import LogForwarder.Generation.Offline
import LogForwarder.Program.CommandLine
import LogForwarder.Program.Files
import LogForwarder.Workload.Definition

/-!
# The programs

What the two programs print: one generates resources from manifest files, the other prints the
definitions of the kinds. Either everything is printed or nothing is.
-/

namespace LogForwarder

/-- How a program ends. -/
structure Outcome where
  exitCode : Nat := 0
  output : String := ""
  /-- The messages of the error that ended the program, the outermost first. -/
  errors : List String := []
  deriving DecidableEq, Repr

/-- What a program knows about its own build. -/
structure BuildInfo where
  commit : String
  time : String
  deriving DecidableEq, Repr

namespace Program

/-- The version of the program. -/
def version : String := "0.1.0"

/-- The line that names the program. -/
def banner : String := "ocmlogctl " ++ version ++ "\n"

/-- What a command prints, or the messages of its error. -/
abbrev Result := Except (List String) String

/-- The error of a manifest that cannot be used at all. -/
def unsupported (version : String) : String := "unsupported API Version: " ++ version

/-- The text of a manifest file. -/
def readManifest (files : Files) (path : String) : Except (List String) String :=
  match files path with
  | .ok text => .ok text
  | .error e => .error ["Failed to read manifest " ++ path, e.message]

/-- The resources that a manifest gives rise to, when it is of a version that is served. -/
def generated (manifest kind : String) (generate : Generation (List Resource)) : Result :=
  match Manifest.version manifest with
  | .error e => .error [e.message]
  | .ok version =>
    if version = "v1alpha1" then
      match generate.outcome with
      | .ok resources => .ok (Resource.yamlStream resources)
      | .error e => .error ["Unable to generate resources for " ++ kind, e.message]
    else .error [unsupported version]

/-- What is printed of the resources of a forwarder. -/
def generateForwarder (files : Files) (workload : String) (collection : Option String) :
    Result := do
  let manifest ← readManifest files workload
  let collection ← collection.mapM (readManifest files)
  generated manifest (WorkloadKind.kind ForwarderSpec)
    (Forwarder.generateOffline manifest collection)

/-- What is printed of the resources of a collection. -/
def generateCollection (files : Files) (collection : String) : Result := do
  let manifest ← readManifest files collection
  generated manifest (WorkloadKind.kind CollectionSpec) (Collection.generateOffline manifest)

/-- What is printed of a sample. -/
def sample (kind : Sample.Kind) (version : String) (requiredOnly : Bool) : Result :=
  match Sample.manifest? kind version requiredOnly with
  | some manifest => .ok manifest
  | none => .error ["Unable to get manifest for " ++ kind.name, unsupported version]

/-- The versions in which a kind is served. -/
def versions (build : BuildInfo) (kind : Sample.Kind) : String :=
  let line (version : String) : String :=
    "  " ++ version ++ (if version = latestVersion then " (latest)" else "") ++ "\n"
  banner ++ "  git commit: " ++ build.commit ++ "\n  built:      " ++ build.time ++ "\n\n" ++
    kind.name ++ " (" ++ apiGroup ++ ")\n" ++ "".intercalate (servedVersions.map line)

/-- What a command prints. -/
def perform (build : BuildInfo) (files : Files) : Command → Result
  | .sample kind version requiredOnly => sample kind version requiredOnly
  | .generateForwarder workload collection => generateForwarder files workload collection
  | .generateCollection collection => generateCollection files collection
  | .versions kind => .ok (versions build kind)

/-- What the program says when it is asked for help. -/
def help : String :=
  "Usage: ocmlogctl <COMMAND>\n\n" ++
  "  init <KIND> [--api-version <VERSION>] [--required-only]\n" ++
  "  generate forwarder -w <MANIFEST> [-c <MANIFEST>]\n" ++
  "  generate config -c <MANIFEST>\n" ++
  "  version <KIND>\n\n" ++
  "Workload kinds: forwarder, config\n"

/-- Runs the program that generates resources. -/
def run (build : BuildInfo) (files : Files) (args : List String) : Outcome :=
  match CommandLine.parse args with
  | .help => { output := help }
  | .version => { output := banner }
  | .misuse => { exitCode := 2 }
  | .command c =>
    match perform build files c with
    | .ok output => { output }
    | .error errors => { exitCode := 1, errors }

/-- Runs the program that prints the definitions of the kinds, whatever its arguments. -/
def definitions : Outcome where
  output := Yaml.writeStream
    [Workload.definition ForwarderSpec, Workload.definition CollectionSpec]

end Program

end LogForwarder
