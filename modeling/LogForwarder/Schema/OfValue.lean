import LogForwarder.Schema.Mismatch

/-!
# Reading values by a schema

`Schema.ofValue` puts a value into canonical form: every member of a record is there or left out as
the schema says, in the order of the schema, with its default filled in; members that the schema
does not name are gone. Members are read in the order in which they stand, the first that does not
fit is reported, and only then are members missed.
-/

namespace LogForwarder

/-- The members of a record as they were given: none for one that is given as `null`. -/
abbrev GivenMembers := List (String × Option Value)

/-- The member of a record that was given, or what stands for it. -/
def MemberInfo.settle (info : MemberInfo) (given : GivenMembers) : Except Mismatch Members :=
  match given.lookup info.name, info.presence with
  | some (some v), _ => .ok [(info.name, v)]
  | some none, .required | none, .required => .error (.missing info.name)
  | some none, .whenAbsent default | none, .whenAbsent default => .ok [(info.name, default)]
  | some none, .whenAbsentOrNull default | none, .whenAbsentOrNull default =>
    .ok [(info.name, default)]
  | some none, .omittable | none, .omittable => .ok []
  | some none, .nullable | none, .nullable => .ok [(info.name, .null)]

/-- The canonical members of a record of which some were given. -/
def settleMembers : List MemberInfo → GivenMembers → Except Mismatch Members
  | [], _ => .ok []
  | info :: infos, given => do
    let member ← info.settle given
    let members ← settleMembers infos given
    return member ++ members

/-- Amounts given as numbers are written in full, without `.0`. -/
def quantityStyle : FloatStyle where
  positional := none
  pointZero := false
  plusSign := false
  exponentDigits := 1
  infinity := "inf"
  negInfinity := "-inf"
  nan := "NaN"

namespace Schema

mutual

/-- The canonical form of a value. -/
def ofValue : Schema → Value → Except Mismatch Value
  | .text, v =>
    match v with
    | .str s => .ok (.str s)
    | _ => .error (.wrongType (.ofValue v) "a string")
  | .flag, v =>
    match v with
    | .bool b => .ok (.bool b)
    | _ => .error (.wrongType (.ofValue v) "a boolean")
  | .integer kind, v =>
    match v with
    | .int n => if kind.holds n then .ok (.int n) else .error (.wrongValue (.integer n) kind.name)
    | _ => .error (.wrongType (.ofValue v) kind.name)
  | .choice variants, v =>
    match v with
    | .str s => if s ∈ variants then .ok (.str s) else .error (.unknownVariant s variants)
    | .map [(key, content)] =>
      if key ∈ variants then
        match content with
        | .null => .ok (.str key)
        | _ => .error (.wrongType (.ofValue content) "unit")
      else .error (.unknownVariant key variants)
    | .map _ => .error (.wrongValue .map "map with a single key")
    | _ => .error (.wrongType (.ofValue v) "string or map")
  | .list item, v =>
    match v with
    | .list xs => do return .list (← xs.mapM fun x => item.ofValue x)
    | _ => .error (.wrongType (.ofValue v) "a sequence")
  | .dict value, v =>
    match v with
    | .map ms => do
      let ms ← ms.mapM fun (key, x) => do return (key, ← value.ofValue x)
      return .map (Members.ofList ms)
    | _ => .error (.wrongType (.ofValue v) "a map")
  | .quantity, v =>
    match v with
    | .str s => .ok (.str s)
    | .int n => .ok (.str (Numeral.decimal n))
    | .float x => .ok (.str (quantityStyle.text x))
    | _ => .error (.wrongType (.ofValue v) "Quantity")
  | .constant only, v =>
    match v with
    | .str s => if s = only then .ok (.str s) else .error (.wrongValue (.text s) only)
    | _ => .error (.wrongType (.ofValue v) "a string")
  | .record info members, v =>
    match v with
    | .map ms => do
      let given ← ms.filterMapM fun (key, x) => memberOfValue members key x
      return .map (← settleMembers (members.map (·.1)) given)
    | .list xs =>
      if info.strict then do
        let given ← membersOfItems info.title members.length 0 members xs
        if members.length < xs.length then .error (.tooMany xs.length)
        return .map (← settleMembers (members.map (·.1)) given)
      else .error (.wrongType .list info.expected)
    | _ => .error (.wrongType (.ofValue v) info.expected)

/-- The canonical form of the value of a member, if the record has a member of that name. -/
def memberOfValue : List (MemberInfo × Schema) → String → Value →
    Except Mismatch (Option (String × Option Value))
  | [], _, _ => .ok none
  | (info, schema) :: members, key, v =>
    if info.name = key then
      if v = .null ∧ info.presence.acceptsNull then .ok (some (key, none))
      else do return some (key, some (← schema.ofValue v))
    else memberOfValue members key v

/-- The members of a record that is given as a list. `index` members of it were read before. -/
def membersOfItems (title : String) (size : Nat) : Nat → List (MemberInfo × Schema) →
    List Value → Except Mismatch GivenMembers
  | _, [], _ => .ok []
  | index, (info, _) :: members, [] =>
    if info.presence = .required then .error (.tooFew index title size)
    else membersOfItems title size (index + 1) members []
  | index, (info, schema) :: members, x :: xs => do
    let v ←
      if x = .null ∧ info.presence.acceptsNull then .ok none
      else do pure (some (← schema.ofValue x))
    return (info.name, v) :: (← membersOfItems title size (index + 1) members xs)

end

end Schema

end LogForwarder
