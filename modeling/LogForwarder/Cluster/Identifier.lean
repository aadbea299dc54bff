import LogForwarder.Number.Text

/-!
# Identifiers of the cluster

The names that the cluster takes for objects, namespaces, labels and image tags. Each check reads
its text once from left to right; lengths are counted in bytes, except that of an image tag, which
has only characters of one byte.
-/

namespace LogForwarder

/-- What is wrong with a text of a manifest. -/
inductive Complaint where
  | empty
  /-- A text with more bytes than its kind may have. -/
  | tooLong (text : String) (limit : Nat)
  | notName (text : String)
  | notNamespace (text : String)
  | notLabel (text : String)
  | notImageTag (text : String)
  /-- A number outside its bounds. -/
  | outOfBounds (least greatest found : Nat)
  | unsupportedBackend (name : String)
  /-- A text with more characters than it may have. -/
  | tooManyChars (limit count : Nat)
  deriving DecidableEq, Repr

namespace Complaint

/-- A text between quotes. -/
def inQuotes (s : String) : String := "'" ++ s ++ "'"

/-- The message of a limit that a text exceeds. -/
def overLimit (limit count : Nat) : String :=
  "exceeds maximum length of " ++ Numeral.decimal limit ++ " characters (got " ++
    Numeral.decimal count ++ ")"

/-- The message of a complaint. -/
def message : Complaint → String
  | empty => "cannot be empty"
  | tooLong s limit => inQuotes s ++ " " ++ overLimit limit s.utf8ByteSize
  | notName s =>
    inQuotes s ++ " must be a valid Kubernetes name (lowercase alphanumeric, hyphens, dots; " ++
      "cannot start/end with hyphen or dot)"
  | notNamespace s =>
    inQuotes s ++ " must be a valid Kubernetes namespace (lowercase alphanumeric, hyphens; " ++
      "cannot start/end with hyphen)"
  | notLabel s =>
    inQuotes s ++ " must be a valid Kubernetes label (lowercase alphanumeric, hyphens, dots, " ++
      "underscores; cannot start/end with dot)"
  | notImageTag s => inQuotes s ++ " must be a valid image tag"
  | outOfBounds least greatest found =>
    "must be between " ++ Numeral.decimal least ++ " and " ++ Numeral.decimal greatest ++
      " (got " ++ Numeral.decimal found ++ ")"
  | unsupportedBackend name =>
    inQuotes name ++ " is not a supported backend (supported: elasticsearch)"
  | tooManyChars limit count => overLimit limit count

end Complaint

namespace Identifier

/-! ## The characters -/

/-- Whether a character is a digit or a small letter. -/
def isPlain (c : Char) : Bool := c.isLower || c.isDigit

/-- Whether a character may stand inside a label. -/
def isInLabel (c : Char) : Bool := isPlain c || c == '-' || c == '_' || c == '.'

/-- Whether a character may begin an image tag. -/
def isTagStart (c : Char) : Bool := c.isAlphanum || c == '_'

/-- Whether a character may stand inside an image tag. -/
def isInTag (c : Char) : Bool := isTagStart c || c == '.' || c == '-'

/-! ## The forms -/

/-- What stands before a character of a name. -/
inductive Before where
  /-- Nothing, or a dot. -/
  | start
  /-- A digit or a letter. -/
  | plain
  | hyphen
  deriving DecidableEq, Repr

/-- Whether the rest of a name goes on well. A hyphen stands between other characters than dots,
and a dot after a digit or a letter. -/
def isNameFrom (dots : Bool) : Before → List Char → Bool
  | .plain, [] => true
  | _, [] => false
  | before, c :: cs =>
    if isPlain c then isNameFrom dots .plain cs
    else if c = '-' then before ≠ .start && isNameFrom dots .hyphen cs
    else c = '.' && dots && before = .plain && isNameFrom dots .start cs

/-- Whether a text has the form of the name of an object. -/
def isName (s : String) : Bool := isNameFrom true .start s.toList

/-- Whether a text has the form of the name of a namespace. -/
def isNamespace (s : String) : Bool := isNameFrom false .start s.toList

/-- Whether the rest of a label goes on well. `ends` says that the label may end here. -/
def isLabelFrom (ends : Bool) : List Char → Bool
  | [] => ends
  | c :: cs => isInLabel c && isLabelFrom (isPlain c) cs

/-- Whether a text has the form of the value of a label. -/
def isLabel (s : String) : Bool :=
  match s.toList with
  | [] => false
  | c :: cs => isPlain c && isLabelFrom true cs

/-- Whether a text has the form of an image tag. -/
def isImageTag (s : String) : Bool :=
  match s.toList with
  | [] => false
  | c :: cs => isTagStart c && cs.all isInTag && decide (cs.length ≤ 127)

/-! ## The checks -/

/-- Checks a text that may not be empty, has a limit and has a form. -/
def check (limit : Nat) (form : String → Bool) (complaint : String → Complaint) (s : String) :
    Except Complaint Unit :=
  if s = "" then .error .empty
  else if limit < s.utf8ByteSize then .error (.tooLong s limit)
  else if form s then .ok ()
  else .error (complaint s)

/-- Checks the name of an object. -/
def checkName : String → Except Complaint Unit := check 253 isName .notName

/-- Checks the name of a namespace. -/
def checkNamespace : String → Except Complaint Unit := check 63 isNamespace .notNamespace

/-- Checks the value of a label. -/
def checkLabel : String → Except Complaint Unit := check 63 isLabel .notLabel

/-- Checks an image tag. -/
def checkImageTag (s : String) : Except Complaint Unit :=
  if isImageTag s then .ok () else .error (.notImageTag s)

end Identifier

end LogForwarder
