import LogForwarder.Number.Text
import LogForwarder.Schema
import LogForwarder.Text.Quoted

/-!
# Mismatches

Why a value does not fit its schema, and the message that says so. The two syntaxes spell `null`
and floating point numbers differently in messages, so a message takes a `MessageStyle`.
-/

namespace LogForwarder

/-- What was found where something else was expected. -/
inductive Found where
  | null
  | flag (b : Bool)
  | integer (n : Int)
  | float (x : Binary64)
  | text (s : String)
  | list
  | map
  deriving DecidableEq, Repr

/-- What a value is as it stands. -/
def Found.ofValue : Value → Found
  | .null => .null
  | .bool b => .flag b
  | .int n => .integer n
  | .float x => .float x
  | .str s => .text s
  | .list _ => .list
  | .map _ => .map

/-- Why a value does not fit its schema. -/
inductive Mismatch where
  /-- A value of another type. -/
  | wrongType (found : Found) (expected : String)
  /-- A value of the right type that is not among the expected ones. -/
  | wrongValue (found : Found) (expected : String)
  | unknownVariant (name : String) (variants : List String)
  | missing (name : String)
  | duplicate (name : String)
  /-- A record given as a list that ends before the required member at an index. -/
  | tooFew (index : Nat) (record : String) (size : Nat)
  /-- A record given as a list with more items than it has members. -/
  | tooMany (count : Nat)
  deriving DecidableEq, Repr

/-- How messages spell what the syntaxes spell differently. -/
structure MessageStyle where
  null : String
  float : FloatStyle

/-- The spelling of messages about JSON. -/
def MessageStyle.json : MessageStyle where
  null := "null"
  float :=
    { positional := some (-5, 15), pointZero := true, plusSign := true, exponentDigits := 2
      infinity := "inf", negInfinity := "-inf", nan := "NaN" }

/-- The spelling of messages about YAML. -/
def MessageStyle.yaml : MessageStyle where
  null := "unit value"
  float :=
    { positional := none, pointZero := true, plusSign := false, exponentDigits := 1
      infinity := "inf", negInfinity := "-inf", nan := "NaN" }

namespace Mismatch

/-- A text between backquotes. -/
def ticked (s : String) : String := "`" ++ s ++ "`"

/-- The phrase for what was found. -/
def foundText (style : MessageStyle) : Found → String
  | .null => style.null
  | .flag b => "boolean " ++ ticked (if b then "true" else "false")
  | .integer n => "integer " ++ ticked (Numeral.decimal n)
  | .float x => "floating point " ++ ticked (style.float.text x)
  | .text s => "string " ++ Text.quoted s
  | .list => "sequence"
  | .map => "map"

/-- The phrase for one of several names. -/
def oneOf : List String → String
  | [name] => ticked name
  | [one, other] => ticked one ++ " or " ++ ticked other
  | names => "one of " ++ ", ".intercalate (names.map ticked)

/-- The message of a mismatch. -/
def message (style : MessageStyle) : Mismatch → String
  | wrongType found expected =>
    "invalid type: " ++ foundText style found ++ ", expected " ++ expected
  | wrongValue found expected =>
    "invalid value: " ++ foundText style found ++ ", expected " ++ expected
  | unknownVariant name variants =>
    "unknown variant " ++ ticked name ++ ", expected " ++ oneOf variants
  | missing name => "missing field " ++ ticked name
  | duplicate name => "duplicate field " ++ ticked name
  | tooFew index record size =>
    "invalid length " ++ Numeral.decimal index ++ ", expected struct " ++ record ++ " with " ++
      Numeral.decimal size ++ (if size = 1 then " element" else " elements")
  | tooMany count =>
    "invalid length " ++ Numeral.decimal count ++ ", expected fewer elements in array"

end Mismatch

end LogForwarder
