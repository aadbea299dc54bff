import LogForwarder.Generation.Environment
import LogForwarder.Proofs.Number.Literal
import LogForwarder.Proofs.Value.Members

/-!
# Coerced entries

What becomes of an entry of the environment of a container when its flags and integers are turned
into texts.

1. A flag becomes its name, an integer the one numeral that spells it, and everything else stays
   as it is, whatever stands in it (`Coerces`, `coerces_coerce`).
2. So nothing is left to coerce (`coerce_coerce`), and no two integers become one text
   (`coerce_int_injective`).
3. In an entry this happens to the direct members, under their keys and in their order
   (`Normalizes`, `coerceEntry_normalizes`).
-/

namespace LogForwarder.Environment

open Numeral (IsNumeral int?)

variable {v v' : Value}

/-! ## Values -/

/-- Whether a value is a flag or an integer, which no container takes. -/
def IsTyped : Value → Prop
  | .bool _ | .int _ => True
  | _ => False

/-- What a value becomes. The text of an integer is said by how it reads, not by how it is
written. -/
inductive Coerces : Value → Value → Prop where
  | on : Coerces (.bool true) (.str "true")
  | off : Coerces (.bool false) (.str "false")
  | integer {n : Int} {s : String} (numeral : IsNumeral s.toList) (reads : int? s = some n)
      (literal : Yaml.fits64 n = true → Json.readNumber s.toList = some (.int n, [])) :
      Coerces (.int n) (.str s)
  | other {v : Value} (h : ¬IsTyped v) : Coerces v v

theorem coerces_coerce (v : Value) : Coerces v (coerce v) := by
  cases v with
  | bool b =>
    cases b with
    | true => exact .on
    | false => exact .off
  | int n =>
    exact .integer (Numeral.isNumeral_decimal n) (Numeral.int?_decimal n) Json.readNumber_decimal
  | null | float | str | list | map => exact .other id

theorem Coerces.not_isTyped (h : Coerces v v') : ¬IsTyped v' := by
  cases h with
  | on | off | integer => exact id
  | other h => exact h

theorem coerce_of_not_isTyped (h : ¬IsTyped v) : coerce v = v := by
  cases v with
  | bool | int => exact absurd trivial h
  | null | float | str | list | map => rfl

theorem coerce_coerce (v : Value) : coerce (coerce v) = coerce v :=
  coerce_of_not_isTyped (coerces_coerce v).not_isTyped

theorem coerce_int_injective : Function.Injective fun n : Int => coerce (.int n) :=
  fun _ _ h => Numeral.decimal_injective (Value.str.inj h)

/-- Coercing a value changes nothing inside it. -/
theorem get?_coerce_cons (v : Value) (key : String) (path : List String) :
    (coerce v).get? (key :: path) = v.get? (key :: path) := by
  cases v <;> rfl

/-! ## Entries -/

/-- What an entry becomes. -/
structure Normalizes (e e' : Members) : Prop where
  keys : e'.keys = e.keys
  /-- Member by member, each value becomes what it is coerced to. -/
  values : List.Forall₂ (fun m m' : String × Value => m'.1 = m.1 ∧ Coerces m.2 m'.2) e e'
  /-- No flag and no integer stands directly in it. -/
  untyped : ∀ m ∈ e', ¬IsTyped m.2
  /-- Inside the values of the members everything is where it was. -/
  inside : ∀ key next path,
    (Value.map e').get? (key :: next :: path) = (Value.map e).get? (key :: next :: path)

theorem forall₂_coerceEntry (e : Members) :
    List.Forall₂ (fun m m' : String × Value => m'.1 = m.1 ∧ Coerces m.2 m'.2) e
      (coerceEntry e) := by
  induction e with
  | nil => exact .nil
  | cons m e ih => exact .cons ⟨rfl, coerces_coerce m.2⟩ ih

theorem coerceEntry_keys (e : Members) : Members.keys (coerceEntry e) = e.keys := by
  simp [coerceEntry, Members.keys]

theorem not_isTyped_of_mem_coerceEntry {e : Members} {m : String × Value}
    (h : m ∈ coerceEntry e) : ¬IsTyped m.2 := by
  obtain ⟨n, -, rfl⟩ := List.mem_map.mp h
  exact (coerces_coerce n.2).not_isTyped

theorem get?_coerceEntry (e : Members) (key next : String) (path : List String) :
    (Value.map (coerceEntry e)).get? (key :: next :: path) =
      (Value.map e).get? (key :: next :: path) := by
  rw [Value.get?_map_cons, Value.get?_map_cons, coerceEntry, Members.get?_map_values,
    Option.bind_map]
  exact congrArg (Option.bind _) (funext fun v => get?_coerce_cons v next path)

theorem coerceEntry_of_forall {e : Members} (h : ∀ m ∈ e, ¬IsTyped m.2) : coerceEntry e = e := by
  have hsame : ∀ m ∈ e, (m.1, coerce m.2) = m := fun m hm => by
    rw [coerce_of_not_isTyped (h m hm)]
  exact (List.map_congr_left hsame).trans (List.map_id e)

/-- **Entries are normalized, and nothing is lost.** An entry keeps its keys, its flags and integers
become texts that name them, and everything else stays, at every depth. What comes out stays as it
is when it is coerced again, and no two integers become the same text. -/
theorem coerceEntry_normalizes (e : Members) :
    Normalizes e (coerceEntry e) ∧ coerceEntry (coerceEntry e) = coerceEntry e ∧
      ∀ m n : Int, coerce (.int m) = coerce (.int n) → m = n :=
  ⟨{ keys := coerceEntry_keys e
     values := forall₂_coerceEntry e
     untyped := fun _ => not_isTyped_of_mem_coerceEntry
     inside := get?_coerceEntry e },
   coerceEntry_of_forall fun _ => not_isTyped_of_mem_coerceEntry,
   fun _ _ h => coerce_int_injective h⟩

/-- The ends of the range of integers, and a flag that stands too deep. -/
example :
    coerceEntry
        [ ("high", .int (UInt64.size - 1)), ("low", .int Int64.minValue.toInt),
          ("valueFrom", .map [("optional", .bool true)]) ] =
      [ ("high", .str "18446744073709551615"), ("low", .str "-9223372036854775808"),
        ("valueFrom", .map [("optional", .bool true)]) ] := by
  decide +kernel

end LogForwarder.Environment
