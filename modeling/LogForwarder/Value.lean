import LogForwarder.Number.Binary64

/-!
# Values

The tree of data that manifests are read into, resources are built from and answers are written
from.

1. Members of a map are kept in a list, in the order in which they are written. `Members.get?`
   and `Members.put` look up and store by key; `put` keeps a sorted list sorted.
2. `Value.get?` and `Value.set?` look up and store along a path of keys. A store creates the maps
   it passes through and is refused, as a whole, where a value on the way is not a map.
-/

namespace LogForwarder

/-- A tree of data. -/
inductive Value where
  | null
  | bool (flag : Bool)
  | int (n : Int)
  | float (x : Binary64)
  | str (text : String)
  | list (items : List Value)
  | map (members : List (String × Value))
  deriving Repr, Inhabited

/-- The members of a map. -/
abbrev Members := List (String × Value)

/-! ## Equality -/

mutual

/-- Whether two values are the same tree. -/
def Value.decEq : (v w : Value) → Decidable (v = w)
  | .null, .null => isTrue rfl
  | .bool a, .bool b => decidable_of_iff (a = b) (by simp)
  | .int a, .int b => decidable_of_iff (a = b) (by simp)
  | .float a, .float b => decidable_of_iff (a = b) (by simp)
  | .str a, .str b => decidable_of_iff (a = b) (by simp)
  | .list xs, .list ys =>
    match Value.decEqItems xs ys with
    | isTrue h => isTrue (by rw [h])
    | isFalse h => isFalse (by simpa using h)
  | .map xs, .map ys =>
    match Value.decEqMembers xs ys with
    | isTrue h => isTrue (by rw [h])
    | isFalse h => isFalse (by simpa using h)
  | .null, .bool _ | .null, .int _ | .null, .float _ | .null, .str _ | .null, .list _
  | .null, .map _ | .bool _, .null | .bool _, .int _ | .bool _, .float _ | .bool _, .str _
  | .bool _, .list _ | .bool _, .map _ | .int _, .null | .int _, .bool _ | .int _, .float _
  | .int _, .str _ | .int _, .list _ | .int _, .map _ | .float _, .null | .float _, .bool _
  | .float _, .int _ | .float _, .str _ | .float _, .list _ | .float _, .map _ | .str _, .null
  | .str _, .bool _ | .str _, .int _ | .str _, .float _ | .str _, .list _ | .str _, .map _
  | .list _, .null | .list _, .bool _ | .list _, .int _ | .list _, .float _ | .list _, .str _
  | .list _, .map _ | .map _, .null | .map _, .bool _ | .map _, .int _ | .map _, .float _
  | .map _, .str _ | .map _, .list _ => isFalse (by simp)

/-- Whether two lists hold the same values. -/
def Value.decEqItems : (xs ys : List Value) → Decidable (xs = ys)
  | [], [] => isTrue rfl
  | [], _ :: _ => isFalse (by simp)
  | _ :: _, [] => isFalse (by simp)
  | x :: xs, y :: ys =>
    match Value.decEq x y, Value.decEqItems xs ys with
    | isTrue h, isTrue hs => isTrue (by rw [h, hs])
    | isFalse h, _ => isFalse (by simp [h])
    | _, isFalse hs => isFalse (by simp [hs])

/-- Whether two lists hold the same members. -/
def Value.decEqMembers : (xs ys : List (String × Value)) → Decidable (xs = ys)
  | [], [] => isTrue rfl
  | [], _ :: _ => isFalse (by simp)
  | _ :: _, [] => isFalse (by simp)
  | (k, x) :: xs, (l, y) :: ys =>
    if hk : k = l then
      match Value.decEq x y, Value.decEqMembers xs ys with
      | isTrue h, isTrue hs => isTrue (by rw [hk, h, hs])
      | isFalse h, _ => isFalse (by simp [h])
      | _, isFalse hs => isFalse (by simp [hs])
    else isFalse (by simp [hk])

end

instance : DecidableEq Value := Value.decEq

/-! ## Members of a map -/

namespace Members

/-- The value of the first member with a key. -/
def get? : Members → String → Option Value
  | [], _ => none
  | (k, v) :: ms, key => if k = key then some v else get? ms key

/-- The members with one of them set: in place of the member of that key, or else before the
first member with a greater key. -/
def put : Members → String → Value → Members
  | [], key, value => [(key, value)]
  | (k, v) :: ms, key, value =>
    if k = key then (key, value) :: ms
    else if key < k then (key, value) :: (k, v) :: ms
    else (k, v) :: put ms key value

/-- The members sorted by key, the last one standing for those of its key. -/
def ofList (members : List (String × Value)) : Members :=
  members.foldl (fun ms m => ms.put m.1 m.2) []

@[simp] theorem get?_nil (key : String) : get? [] key = none := rfl

@[simp] theorem get?_cons (k key : String) (v : Value) (ms : Members) :
    get? ((k, v) :: ms) key = if k = key then some v else get? ms key := rfl

theorem get?_put_self (ms : Members) (key : String) (value : Value) :
    (ms.put key value).get? key = some value := by
  induction ms with
  | nil => simp [put]
  | cons m ms ih =>
    obtain ⟨k, v⟩ := m
    by_cases h : k = key
    · simp [put, h]
    · by_cases hlt : key < k <;> simp [put, h, hlt, ih]

theorem get?_put_of_ne (ms : Members) {key other : String} (value : Value) (h : key ≠ other) :
    (ms.put key value).get? other = ms.get? other := by
  induction ms with
  | nil => simp [put, h]
  | cons m ms ih =>
    obtain ⟨k, v⟩ := m
    by_cases hk : k = key
    · subst hk; simp [put, h]
    · by_cases hlt : key < k <;> simp [put, hk, hlt, h, ih]

end Members

/-! ## Paths of keys -/

namespace Value

/-- The members of a map. -/
def members? : Value → Option Members
  | .map ms => some ms
  | _ => none

/-- The items of a list. -/
def items? : Value → Option (List Value)
  | .list xs => some xs
  | _ => none

/-- The text of a string. -/
def text? : Value → Option String
  | .str s => some s
  | _ => none

/-- The value at a path of keys, when every key on it is a member of a map. -/
def get? : Value → List String → Option Value
  | v, [] => some v
  | .map ms, key :: path => (Members.get? ms key).bind fun v => v.get? path
  | _, _ :: _ => none

/-- The value with the one at a path of keys set. Maps missing on the way are created; there is
no result where a value on the way is not a map. -/
def set? : Value → List String → Value → Option Value
  | _, [], new => some new
  | .map ms, key :: path, new =>
    (((Members.get? ms key).getD (.map [])).set? path new).map fun v =>
      .map (Members.put ms key v)
  | _, _ :: _, _ => none

/-- The text at a path of keys. -/
def textAt? (v : Value) (path : List String) : Option String :=
  (v.get? path).bind text?

/-- The items of the list at a path of keys. -/
def itemsAt? (v : Value) (path : List String) : Option (List Value) :=
  (v.get? path).bind items?

@[simp] theorem get?_nil (v : Value) : v.get? [] = some v := by
  cases v <;> rfl

@[simp] theorem get?_map_cons (ms : Members) (key : String) (path : List String) :
    (Value.map ms).get? (key :: path) = (Members.get? ms key).bind fun v => v.get? path := rfl

@[simp] theorem set?_nil (v new : Value) : v.set? [] new = some new := by
  cases v <;> rfl

end Value

end LogForwarder
