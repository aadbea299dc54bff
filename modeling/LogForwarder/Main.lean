import LogForwarder.Program.Run

/-!
# Running the programs

Reads the files that a command names, and prints what the program gives.
-/

namespace LogForwarder

/-- The files that a command reads. -/
def Command.paths : Command → List String
  | .generateForwarder workload collection => workload :: collection.toList
  | .generateCollection collection => [collection]
  | .sample .. | .versions _ => []

/-- What a file holds. -/
def readFile (path : String) : IO (Except ReadError String) := do
  try
    return Files.decode (← IO.FS.readBinFile path)
  catch e =>
    match e with
    | .noFileOrDirectory .. => return .error .missing
    | e => return .error (.other (toString e))

/-- What the files that the arguments name hold. -/
def readFiles (args : List String) : IO Files := do
  let paths := match CommandLine.parse args with
    | .command c => c.paths
    | _ => []
  let contents ← paths.mapM fun path => do return (path, ← readFile path)
  return fun path => (contents.lookup path).getD (.error .missing)

end LogForwarder

open LogForwarder in
/-- Generates resources, or prints the definitions of the kinds when it runs as `crdgen`. -/
def main (args : List String) : IO UInt32 := do
  let outcome ←
    if (← IO.appPath).fileName == some "crdgen" then pure Program.definitions
    else do
      let files ← readFiles args
      pure (Program.run ⟨"unknown", "unknown"⟩ files args)
  IO.print outcome.output
  match outcome.errors with
  | [] => pure ()
  | first :: causes =>
    IO.eprintln ("Error: " ++ first)
    unless causes.isEmpty do
      IO.eprintln "\nCaused by:"
      for cause in causes do
        IO.eprintln ("    " ++ cause)
  return outcome.exitCode.toUInt32
