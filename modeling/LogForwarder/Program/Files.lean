/-!
# Files

The contents of the files that manifests are read from. A manifest is a text, so a file that is
not one cannot be read.
-/

namespace LogForwarder

/-- Why a file cannot be read. -/
inductive ReadError where
  | missing
  | isDirectory
  | notDirectory
  | notText
  /-- Any other reason, by its message. -/
  | other (message : String)
  deriving DecidableEq, Repr

/-- The message of a reading error. -/
def ReadError.message : ReadError → String
  | missing => "No such file or directory (os error 2)"
  | isDirectory => "Is a directory (os error 21)"
  | notDirectory => "Not a directory (os error 20)"
  | notText => "stream did not contain valid UTF-8"
  | other message => message

/-- What is found at each path. -/
abbrev Files := String → Except ReadError String

namespace Files

/-- The text that the bytes of a file spell. -/
def decode (bytes : ByteArray) : Except ReadError String :=
  match String.fromUTF8? bytes with
  | some text => .ok text
  | none => .error .notText

/-- The steps of a path, without those that lead nowhere. -/
def steps (path : String) : List String := (path.splitOn "/").filter fun s => s ≠ "" ∧ s ≠ "."

/-- Whether a path ends as only that of a directory may. -/
def endsAsDirectory (path : String) : Bool :=
  match path.toList.reverse with
  | '/' :: _ | '.' :: '/' :: _ => true
  | _ => false

/-- The files of one directory, by their names, as seen from it. -/
def ofDirectory (entries : List (String × ByteArray)) : Files := fun path =>
  if path.toList.head? = some '/' then .error .missing
  else
    match steps path with
    | [] => if path = "" then .error .missing else .error .isDirectory
    | name :: inner =>
      match entries.lookup name with
      | none => .error .missing
      | some bytes =>
        if inner.isEmpty && !endsAsDirectory path then decode bytes else .error .notDirectory

end Files

end LogForwarder
