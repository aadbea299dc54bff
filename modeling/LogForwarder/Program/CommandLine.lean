import LogForwarder.Workload.Sample

/-!
# The command line

What the arguments of the program ask for. They are read from left to right, and the first that
asks for help or cannot be understood decides; an argument that is missing is noticed last.
-/

namespace LogForwarder

/-- What the program is asked to do. -/
inductive Command where
  /-- Write a sample manifest. -/
  | sample (kind : Sample.Kind) (version : String) (requiredOnly : Bool)
  /-- Generate the resources of a forwarder from files. -/
  | generateForwarder (workload : String) (collection : Option String)
  /-- Generate the resources of a collection from a file. -/
  | generateCollection (collection : String)
  /-- Write the versions in which a kind is served. -/
  | versions (kind : Sample.Kind)
  deriving DecidableEq, Repr

/-- What comes of reading arguments. -/
inductive Invocation where
  | command (c : Command)
  | help
  | version
  | misuse
  deriving DecidableEq, Repr

namespace CommandLine

/-- Why reading stops before the last argument. -/
inductive Stop where
  | help
  | misuse
  deriving DecidableEq, Repr

/-- What follows an option. -/
inductive Takes where
  | nothing
  | text
  /-- A path, which is not empty. -/
  | path
  deriving DecidableEq, Repr

/-- An option of a command. -/
structure OptionInfo where
  long : String
  short : Option Char := none
  takes : Takes
  deriving DecidableEq, Repr

/-- The arguments of a command as they were read. -/
structure Arguments where
  options : List (String × String) := []
  kind : Option Sample.Kind := none
  deriving DecidableEq, Repr

/-- What reading arguments gives. -/
abbrev Reading := Except Stop Arguments

/-- The kind that an argument names. -/
def kind? (s : String) : Option Sample.Kind :=
  if s = "forwarder" then some .forwarder
  else if s = "config" then some .collection
  else none

/-- Whether an argument is no value of the option before it. -/
def isOptionLike (s : String) : Bool := s.toList.head? == some '-' && s != "-"

namespace Arguments

/-- The arguments with an option given a value. No option is given twice. -/
def give (a : Arguments) (info : OptionInfo) (value : String) : Reading :=
  if (a.options.lookup info.long).isSome || (info.takes = .path && value = "") then .error .misuse
  else .ok { a with options := (info.long, value) :: a.options }

/-- The arguments with one that is no option. Only a command that takes a kind has one. -/
def givePlain (a : Arguments) (takesKind : Bool) (s : String) : Reading :=
  match kind? s with
  | some kind =>
    if takesKind && a.kind.isNone then .ok { a with kind := some kind } else .error .misuse
  | none => .error .misuse

/-- The arguments with several that are no options. -/
def givePlains (a : Arguments) (takesKind : Bool) : List String → Reading
  | [] => .ok a
  | s :: rest => do (← a.givePlain takesKind s).givePlains takesKind rest

end Arguments

/-- An argument that is an option: which one, and the value written in the same argument. -/
def option? (infos : List OptionInfo) : List Char → Except Stop (OptionInfo × Option String)
  | '-' :: '-' :: cs =>
    let name := String.ofList (cs.takeWhile (· ≠ '='))
    let value :=
      if '=' ∈ cs then some (String.ofList ((cs.dropWhile (· ≠ '=')).drop 1)) else none
    if name = "help" then .error (if value.isSome then .misuse else .help)
    else
      match infos.find? (·.long = name) with
      | some info => .ok (info, value)
      | none => .error .misuse
  | '-' :: 'h' :: _ => .error .help
  | '-' :: c :: cs =>
    match infos.find? (·.short = some c) with
    | some info =>
      let value := match cs with
        | [] => none
        | '=' :: cs => some (String.ofList cs)
        | cs => some (String.ofList cs)
      .ok (info, value)
    | none => .error .misuse
  | _ => .error .misuse

/-- The arguments of a command with some options. -/
def readArguments (infos : List OptionInfo) (takesKind : Bool) :
    Arguments → List String → Reading
  | a, [] => .ok a
  | a, s :: rest =>
    if s = "--" then a.givePlains takesKind rest
    else if isOptionLike s then
      match option? infos s.toList with
      | .error stop => .error stop
      | .ok (info, value) =>
        match info.takes, value, rest with
        | .nothing, none, rest => do readArguments infos takesKind (← a.give info "") rest
        | .nothing, some _, _ => .error .misuse
        | _, some value, rest => do readArguments infos takesKind (← a.give info value) rest
        | _, none, next :: rest =>
          if isOptionLike next then .error .misuse
          else do readArguments infos takesKind (← a.give info next) rest
        | _, none, [] => .error .misuse
    else do readArguments infos takesKind (← a.givePlain takesKind s) rest

/-- What the arguments of a command ask for. An argument that is missing is misuse. -/
def finish (reading : Reading) (command? : Arguments → Option Command) : Invocation :=
  match reading with
  | .error .help => .help
  | .error .misuse => .misuse
  | .ok a => (command? a).elim .misuse .command

/-- The options of the command that writes a sample. -/
def sampleOptions : List OptionInfo :=
  [{ long := "api-version", takes := .text }, { long := "required-only", takes := .nothing }]

/-- What the arguments of that command ask for. -/
def parseSample (args : List String) : Invocation :=
  finish (readArguments sampleOptions true {} args) fun a => do
    let version := (a.options.lookup "api-version").getD "latest"
    return .sample (← a.kind) version (a.options.lookup "required-only").isSome

/-- What the arguments of the command that writes versions ask for. -/
def parseVersions (args : List String) : Invocation :=
  finish (readArguments [] true {} args) fun a => a.kind.map .versions

/-- The option that names the manifest of a forwarder. -/
def workloadOption : OptionInfo := ⟨"workload-manifest", some 'w', .path⟩

/-- The option that names the manifest of a collection. -/
def collectionOption : OptionInfo := ⟨"collection-manifest", some 'c', .path⟩

/-- What the arguments for generating from a forwarder ask for. -/
def parseGenerateForwarder (args : List String) : Invocation :=
  finish (readArguments [workloadOption, collectionOption] false {} args) fun a => do
    let workload ← a.options.lookup workloadOption.long
    return .generateForwarder workload (a.options.lookup collectionOption.long)

/-- What the arguments for generating from a collection ask for. -/
def parseGenerateCollection (args : List String) : Invocation :=
  finish (readArguments [collectionOption] false {} args) fun a =>
    (a.options.lookup collectionOption.long).map .generateCollection

/-- Whether an argument asks for help. -/
def asksHelp (s : String) : Bool := s == "--help" || ['-', 'h'].isPrefixOf s.toList

/-- What asking for help on some command gives. Each of `commands` leads to its own commands. -/
def parseHelp (commands : List (String × List String)) : List String → Invocation
  | [] => .help
  | s :: rest =>
    match commands.lookup s with
    | none => .misuse
    | some inner =>
      match rest with
      | [] => .help
      | [t] => if t ∈ inner then .help else .misuse
      | _ => .misuse

/-- What the arguments of the command that generates ask for. -/
def parseGenerate : List String → Invocation
  | "forwarder" :: args => parseGenerateForwarder args
  | "config" :: args => parseGenerateCollection args
  | "help" :: args => parseHelp [("forwarder", []), ("config", []), ("help", [])] args
  | s :: _ => if asksHelp s then .help else .misuse
  | [] => .misuse

/-- What the arguments of the program ask for. -/
def parse : List String → Invocation
  | "init" :: args => parseSample args
  | "generate" :: args => parseGenerate args
  | "version" :: args => parseVersions args
  | "help" :: args =>
    parseHelp
      [("init", []), ("generate", ["forwarder", "config", "help"]), ("version", []), ("help", [])]
      args
  | s :: _ =>
    if asksHelp s then .help
    else if s = "--version" || ['-', 'V'].isPrefixOf s.toList then .version
    else .misuse
  | [] => .misuse

end CommandLine

end LogForwarder
