import LogForwarder.Value

/-!
# Schemas

What values may stand where, as data: the readers of both syntaxes, the canonical form of a value
and the schema printed for the cluster are all taken from it.

A record is strict or lenient. A strict record may also be given as a list of its members in their
order, and no member may be given twice; a lenient one is a map only, and the last of two members
with one name counts. Members that the schema does not name are ignored by both.
-/

namespace LogForwarder

/-- The integers that a member may hold. -/
inductive IntegerKind where
  | unsigned32
  | signed32
  | signed64
  deriving DecidableEq, Repr

namespace IntegerKind

/-- The name by which messages call the kind. -/
def name : IntegerKind → String
  | unsigned32 => "u32"
  | signed32 => "i32"
  | signed64 => "i64"

/-- Whether an integer is of the kind. -/
def holds : IntegerKind → Int → Bool
  | unsigned32, n => 0 ≤ n && n < UInt32.size
  | signed32, n => Int32.minValue.toInt ≤ n && n ≤ Int32.maxValue.toInt
  | signed64, n => Int64.minValue.toInt ≤ n && n ≤ Int64.maxValue.toInt

end IntegerKind

/-- What becomes of a member that is not given. -/
inductive Presence where
  | required
  /-- A member left out has a default; `null` is a value like any other. -/
  | whenAbsent (default : Value)
  /-- A member left out or given as `null` has a default. -/
  | whenAbsentOrNull (default : Value)
  /-- A member left out or given as `null` stays out. -/
  | omittable
  /-- A member left out or given as `null` is `null`. -/
  | nullable
  deriving DecidableEq, Repr

/-- Whether `null` stands for a member that is not given. -/
def Presence.acceptsNull : Presence → Bool
  | required | whenAbsent _ => false
  | whenAbsentOrNull _ | omittable | nullable => true

/-- What the schema printed for the cluster says of a member beyond its type. -/
structure Annotations where
  description : Option String := none
  maxLength : Option Nat := none
  /-- The least and the greatest value. -/
  bounds : Option (Nat × Nat) := none
  /-- The only texts that the cluster lets through. -/
  listed : List String := []
  deriving DecidableEq, Repr

/-- A member of a record: its name, and what becomes of it when it is not given. -/
structure MemberInfo where
  name : String
  presence : Presence
  annotations : Annotations := {}
  deriving DecidableEq, Repr

/-- The title of a record, and how it is read. -/
structure RecordInfo where
  title : String
  strict : Bool
  description : Option String := none
  deriving DecidableEq, Repr

/-- What a value has to be. -/
inductive Schema where
  | text
  | flag
  | integer (kind : IntegerKind)
  /-- One of some texts. -/
  | choice (variants : List String)
  | list (item : Schema)
  /-- A map of any keys, sorted by key. -/
  | dict (value : Schema)
  /-- An amount: a text, or a number that stands for its text. -/
  | quantity
  /-- One text. -/
  | constant (value : String)
  | record (info : RecordInfo) (members : List (MemberInfo × Schema))
  deriving Repr, Inhabited

/-- How messages call a record. -/
def RecordInfo.expected (info : RecordInfo) : String :=
  if info.strict then "struct " ++ info.title else info.title

end LogForwarder
