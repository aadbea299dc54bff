import LogForwarder.Proofs.Schema.Record
import Mathlib.Logic.Relation

/-!
# Members that a schema does not name

Nothing becomes of such members: a record is read from the members that it names
(`ofValue_filter_names`), and so a value reads as it did when others are added anywhere in it
(`ofValue_of_extends`). What a value reads as includes why it does not fit.
-/

namespace LogForwarder

namespace Schema

/-! ## Additions -/

/-- Whether a value is another one with one more member somewhere in it, in a record that has none
of its name. `others` are the names that a record has, by its title, besides those of the members
that are read of it. -/
inductive AddsUnknown (others : String → List String) : Schema → Value → Value → Prop
  /-- The member is one of the record itself. -/
  | here {info : RecordInfo} {members : List (MemberInfo × Schema)} (before after : Members)
      (key : String) (v : Value) : key ∉ names members → key ∉ others info.title →
      AddsUnknown others (.record info members) (.map (before ++ after))
        (.map (before ++ (key, v) :: after))
  /-- The member is in a member of the record. -/
  | member {info : RecordInfo} {members : List (MemberInfo × Schema)} {m : MemberInfo × Schema}
      {v w : Value} (before after : Members) : m ∈ members → AddsUnknown others m.2 v w →
      AddsUnknown others (.record info members) (.map (before ++ (m.1.name, v) :: after))
        (.map (before ++ (m.1.name, w) :: after))
  /-- The member is in an item of a list. -/
  | item {item : Schema} {v w : Value} (before after : List Value) : AddsUnknown others item v w →
      AddsUnknown others (.list item) (.list (before ++ v :: after)) (.list (before ++ w :: after))

/-- Whether a value is another one with more members, which its schema does not name. -/
abbrev Extends (others : String → List String) (s : Schema) : Value → Value → Prop :=
  Relation.ReflTransGen (AddsUnknown others s)

variable {others : String → List String} {s : Schema} {v w : Value}

theorem AddsUnknown.ne_null (h : AddsUnknown others s v w) : v ≠ .null ∧ w ≠ .null := by
  cases h with
  | here | member | item => exact ⟨nofun, nofun⟩

/-! ## Reading -/

section

variable {info : RecordInfo} {members : List (MemberInfo × Schema)}

/-- A record is read from the members that it names. -/
theorem ofValue_filter_names (ms : Members) :
    (Schema.record info members).ofValue (.map (ms.filter fun n => n.1 ∈ names members)) =
      (Schema.record info members).ofValue (.map ms) := by
  have hdrop : ∀ n : String × Value, ¬decide (n.1 ∈ names members) →
      memberOfValue members n.1 n.2 = .ok none :=
    fun n hn => memberOfValue_of_not_mem (by simpa using hn)
  rw [ofValue, ofValue, filterMapM_filter hdrop]

theorem ofValue_record_congr {ms ns : Members}
    (h : ms.filter (fun n => n.1 ∈ names members) = ns.filter fun n => n.1 ∈ names members) :
    (Schema.record info members).ofValue (.map ms) =
      (Schema.record info members).ofValue (.map ns) := by
  rw [← ofValue_filter_names ms, h, ofValue_filter_names]

end

/-- **Unknown members are inert.** A value with a member added that its schema does not name reads
as it did, or fails as it did. -/
theorem ofValue_of_addsUnknown (hs : s.isWellFormed) (h : AddsUnknown others s v w) :
    s.ofValue w = s.ofValue v := by
  induction h with
  | here before after key v hkey _ =>
    refine ofValue_record_congr ?_
    rw [List.filter_append, List.filter_append, List.filter_cons_of_neg (by simpa using hkey)]
  | @member info members m v w before after hm h ih =>
    obtain ⟨hn, hw⟩ := isWellFormed_record.mp hs
    have hread := ih (areWellFormed_iff.mp hw m hm).2
    -- Neither value is `null`, so both are read by the schema of the member.
    have hsame : memberOfValue members m.1.name w = memberOfValue members m.1.name v := by
      obtain ⟨hv, hw⟩ := h.ne_null
      rw [memberOfValue_of_mem hn hm, memberOfValue_of_mem hn hm, if_neg (hw ·.1),
        if_neg (hv ·.1), hread]
    have hpass : ∀ before after : Members,
        (before ++ (m.1.name, w) :: after).filterMapM (fun n => memberOfValue members n.1 n.2) =
          (before ++ (m.1.name, v) :: after).filterMapM fun n => memberOfValue members n.1 n.2 :=
      filterMapM_replace hsame
    rw [ofValue, ofValue, hpass]
  | item before after _ ih =>
    have hread := ih hs
    rw [ofValue, ofValue, mapM_replace hread]

theorem ofValue_of_extends (hs : s.isWellFormed) (h : Extends others s v w) :
    s.ofValue w = s.ofValue v := by
  induction h with
  | refl => rfl
  | tail _ hadds ih => rw [ofValue_of_addsUnknown hs hadds, ih]

end Schema

end LogForwarder
