import LogForwarder.Schema

/-!
# Records

How the types of the library read the members of a canonical value and write them. A value in
canonical form has what its schema says, so reading is total, and what is not there reads as empty.
-/

namespace LogForwarder.Value

/-! ## Reading -/

/-- A member of a map, `null` when it is not there. -/
def member (v : Value) (name : String) : Value := (v.get? [name]).getD .null

/-- The text that a value is, or the empty one. -/
def asText : Value → String
  | .str s => s
  | _ => ""

/-- The flag that a value is, or `false`. -/
def asFlag : Value → Bool
  | .bool b => b
  | _ => false

/-- The integer that a value is, or zero. -/
def asInt : Value → Int
  | .int n => n
  | _ => 0

/-- What the items of a list are. -/
def asList {α : Type} (f : Value → α) : Value → List α
  | .list xs => xs.map f
  | _ => []

/-- What the members of a map are, by key. -/
def asDict {α : Type} (f : Value → α) : Value → List (String × α)
  | .map ms => ms.map fun m => (m.1, f m.2)
  | _ => []

/-- What a value is unless it is `null`. -/
def asOption {α : Type} (f : Value → α) : Value → Option α
  | .null => none
  | v => some (f v)

/-! ## Writing -/

/-- A list of what some things are written as. -/
def ofList {α : Type} (f : α → Value) (xs : List α) : Value := .list (xs.map f)

/-- A map of what some things are written as, by key. -/
def ofDict {α : Type} (f : α → Value) (ms : List (String × α)) : Value :=
  .map (ms.map fun m => (m.1, f m.2))

/-- What a thing is written as, or `null`. -/
def ofOption {α : Type} (f : α → Value) : Option α → Value
  | none => .null
  | some a => f a

/-- A member that is there only if it has content. -/
def ofMember {α : Type} (name : String) (f : α → Value) : Option α → Members
  | none => []
  | some a => [(name, f a)]

mutual

/-- The value with the members of every map in it sorted by key. -/
def sorted : Value → Value
  | .list xs => .list (sortedItems xs)
  | .map ms => .map (sortedMembers ms)
  | v => v

/-- The items of a list, each sorted. -/
def sortedItems : List Value → List Value
  | [] => []
  | v :: vs => sorted v :: sortedItems vs

/-- The members of a map, each sorted, in the order of their keys. -/
def sortedMembers : List (String × Value) → Members
  | [] => []
  | (key, v) :: ms => Members.put (sortedMembers ms) key (sorted v)

end

end LogForwarder.Value
