import LogForwarder.Proofs.Schema.ReadBack
import LogForwarder.Proofs.Yaml.Nodes
import LogForwarder.Schema.OfNode

/-!
# Reading documents that were written

A canonical value that is written as a document reads back as itself, by the schema that it is
canonical for: the styles of its texts keep them apart from `null`, and its numerals and flags are
read as what they spell.

1. A record reads each of its members from its own node, and passes over the others
   (`ofNode_record`).
2. `ofNode_ofValue` reads back every canonical value, by induction on the schema.
-/

namespace LogForwarder

namespace Yaml

/-! ## Nodes of values -/

theorem Node.target_ofValue (v : Value) (root : Node) :
    (Node.ofValue v).target root = Node.ofValue v := by
  cases v <;> rfl

/-! ## Scalars -/

theorem readFlag_spelling (b : Bool) :
    readFlag none .plain (spelling (.bool b)) = .ok (.bool b) := by
  cases b <;> rfl

theorem wideInteger?_decimal {kind : IntegerKind} {n : Int} (h : kind.holds n = true) :
    wideInteger? kind (Numeral.decimal n) = some n := by
  have low32 : Int32.minValue.toInt = -2147483648 := by decide
  have high32 : Int32.maxValue.toInt = 2147483647 := by decide
  have low64 : Int64.minValue.toInt = -9223372036854775808 := by decide
  have high64 : Int64.maxValue.toInt = 9223372036854775807 := by decide
  have signed (h : IntegerKind.signed64.holds n = true) :
      (integer? (Numeral.decimal n).toList).filter IntegerKind.signed64.holds = some n := by
    have fits : fits64 n = true := by
      simp only [IntegerKind.holds, low64, high64, Bool.and_eq_true, decide_eq_true_eq] at h
      exact fits64_iff.mpr (by omega)
    rw [integer?_decimal_of_fits64 fits, Option.filter_some, if_pos h]
  cases kind with
  | unsigned32 =>
    obtain ⟨positive, small⟩ : 0 ≤ n ∧ n < UInt32.size := by simpa [IntegerKind.holds] using h
    have digits : (Numeral.decimal n).toList = Nat.toDigits 10 n.natAbs := by
      rw [toList_decimal, if_neg (by omega)]
    have spelled : Int.ofNat n.natAbs = n := Int.natAbs_of_nonneg positive
    rw [wideInteger?, digits, unsigned?_toDigits, Option.map_some, spelled, Option.filter_some,
      if_pos (by simp at small ⊢; omega)]
  | signed32 =>
    refine signed ?_
    simp only [IntegerKind.holds, low32, high32, low64, high64, Bool.and_eq_true,
      decide_eq_true_eq] at h ⊢
    omega
  | signed64 => exact signed h

theorem readInteger_decimal {kind : IntegerKind} {n : Int} (h : kind.holds n = true) :
    readInteger kind none .plain (Numeral.decimal n) = .ok (.int n) := by
  have spells : maySpell intTag none .plain = true := rfl
  simp [readInteger, spells, wideInteger?_decimal h, h]

/-- No text is taken for `null`. -/
theorem readsAsNull_str (s : String) : readsAsNull (Node.ofValue (.str s)) = .ok false := by
  unfold Node.ofValue readsAsNull
  cases style : styleOf s with
  | plain =>
    have content : ¬(s == "" || isNull s) = true := by
      intro null
      have text := meaning_of_plain style
      rw [meaning, if_pos null] at text
      cases text
    simpa [Style.scalarStyle] using content
  | single | double | literal => simp [Style.scalarStyle]

end Yaml

namespace Schema

open Yaml (Node readsAsNull)

variable {root : Node}

theorem readsAsNull_of_isCanonical {s : Schema} {w : Value} (h : s.isCanonical w) :
    readsAsNull (Node.ofValue w) = .ok false := by
  cases w with
  | null => exact absurd rfl (ne_null_of_isCanonical h)
  | bool b => cases b <;> rfl
  | int n =>
    simp [Node.ofValue, readsAsNull, Yaml.spelling, Yaml.decimal_ne_empty, Yaml.isNull_decimal]
  | float x => cases s <;> simp [isCanonical] at h
  | str text => exact Yaml.readsAsNull_str text
  | list xs => rfl
  | map ms => rfl

/-! ## Records -/

theorem memberOfNode_of_not_mem {name : String} {node : Node} :
    ∀ {members : List (MemberInfo × Schema)}, name ∉ names members →
      memberOfNode root members name node = .ok none
  | [], _ => by rw [memberOfNode]
  | (info, schema) :: members, h => by
    obtain ⟨hne, h⟩ := not_or.mp (List.mem_cons.not.mp h)
    rw [memberOfNode, if_neg (Ne.symm hne), memberOfNode_of_not_mem h]

theorem memberOfNode_of_mem {m : MemberInfo × Schema} {node : Node} :
    ∀ {members : List (MemberInfo × Schema)}, (names members).Nodup → m ∈ members →
      memberOfNode root members m.1.name node = memberOfNode root [m] m.1.name node
  | (info, schema) :: members, hn, hm => by
    obtain ⟨hinfo, hn⟩ := nodup_names_cons.mp hn
    rcases List.mem_cons.mp hm with rfl | hm
    · rw [memberOfNode, memberOfNode, if_pos rfl, if_pos rfl]
    · have hne : info.name ≠ m.1.name := fun e => hinfo (List.mem_map.mpr ⟨m, hm, e.symm⟩)
      rw [memberOfNode, if_neg hne, memberOfNode_of_mem hn hm]

/-- The node of a piece of a canonical record is read as the piece. -/
theorem memberOfNode_of_isPiece {members : List (MemberInfo × Schema)} {m : MemberInfo × Schema}
    {w : Value} (hn : (names members).Nodup) (hm : m ∈ members)
    (hw : IsPiece m [(m.1.name, w)])
    (hread : m.2.isCanonical w → m.2.ofNode root (Node.ofValue w) = .ok w) :
    memberOfNode root members m.1.name (Node.ofValue w) =
      .ok (some (m.1.name, Value.asOption id w)) := by
  obtain ⟨info, schema⟩ := m
  rw [memberOfNode_of_mem hn hm, memberOfNode, if_pos rfl, Node.target_ofValue]
  cases hw with
  | given hw =>
    rw [readsAsNull_of_isCanonical hw, hread hw, asOption_of_ne_null id (ne_null_of_isCanonical hw)]
    split_ifs <;> rfl
  | null hp =>
    rw [hp]
    rfl

/-- The members of a record that were given, after one more entry of its node. -/
def takeEntry (root : Node) (info : RecordInfo) (members : List (MemberInfo × Schema))
    (given : GivenMembers) (entry : Node × Node) : NodeResult GivenMembers := do
  let name ← NodeResult.of (entry.1.keyText root "field identifier")
  if info.strict && (given.lookup name).isSome then .refuse (.duplicate name)
  match ← (memberOfNode root members name entry.2).under entry.1.step with
  | some member => return member :: given
  | none => return given

theorem ofNode_record_of_target (info : RecordInfo) (members : List (MemberInfo × Schema))
    {node : Node} {tag : Option String} {entries : List (Node × Node)}
    (h : node.target root = .mapping tag entries) :
    (Schema.record info members).ofNode root node = do
      let given ← entries.foldlM (takeEntry root info members) []
      return .map (← NodeResult.of (settleMembers (members.map (·.1)) given)) := by
  rw [ofNode, h]
  rfl

theorem ofNode_record_eq (info : RecordInfo) (members : List (MemberInfo × Schema))
    (ns : Members) : (Schema.record info members).ofNode root (Node.ofValue (.map ns)) = do
      let given ← (Node.ofMembers ns).foldlM (takeEntry root info members) []
      return .map (← NodeResult.of (settleMembers (members.map (·.1)) given)) :=
  ofNode_record_of_target info members (Node.target_ofValue _ root)

section

variable {info : RecordInfo} {members : List (MemberInfo × Schema)} {given : GivenMembers}
  {key : String} {v : Value}

theorem takeEntry_of_ok {style : Yaml.ScalarStyle} {taken : Option (String × Option Value)}
    (fresh : given.lookup key = none)
    (read : memberOfNode root members key (Node.ofValue v) = .ok taken) :
    takeEntry root info members given (.scalar none style key, Node.ofValue v) =
      .ok (taken.toList ++ given) := by
  refine bind_eq_ok.mpr ⟨key, rfl, ?_⟩
  simp only [fresh, read, Option.isSome_none, Bool.and_false, Bool.false_eq_true, if_false]
  cases taken <;> rfl

variable (info) in
/-- After an entry its member was given, if the record has one of its name, and the others as they
were. -/
theorem exists_takeEntry (style : Yaml.ScalarStyle) {ms : Members} (hn : (names members).Nodup)
    (hpieces : ∀ m ∈ members, IsPiece m (pieceOf ms m))
    (hread : ∀ m ∈ members, ∀ w, m.2.isCanonical w → m.2.ofNode root (Node.ofValue w) = .ok w)
    (hget : key ∈ names members → ms.get? key = some v) (fresh : given.lookup key = none) :
    ∃ taken, takeEntry root info members given (.scalar none style key, Node.ofValue v) =
      .ok taken ∧ ∀ other, taken.lookup other =
        if key = other ∧ key ∈ names members then some (v.asOption id) else given.lookup other := by
  by_cases hkey : key ∈ names members
  · obtain ⟨m, hm, rfl⟩ := List.mem_map.mp hkey
    have hpiece := hpieces m hm
    rw [pieceOf, hget hkey] at hpiece
    refine ⟨_, takeEntry_of_ok fresh (memberOfNode_of_isPiece hn hm hpiece (hread m hm v)), ?_⟩
    intro other
    by_cases hother : m.1.name = other
    · subst hother
      simp [hkey]
    · simp [hother, List.lookup_cons, beq_false_of_ne (Ne.symm hother)]
  · refine ⟨_, takeEntry_of_ok fresh (memberOfNode_of_not_mem hkey), fun other => ?_⟩
    simp [hkey]

variable (info) in
/-- After the entries of some members every one of them was given that the record has. -/
theorem exists_takeEntries {ms : Members} (hn : (names members).Nodup)
    (hpieces : ∀ m ∈ members, IsPiece m (pieceOf ms m))
    (hread : ∀ m ∈ members, ∀ w, m.2.isCanonical w → m.2.ofNode root (Node.ofValue w) = .ok w) :
    ∀ {ns : Members} {given : GivenMembers}, ns.keys.Nodup →
      (∀ n ∈ ns, n.1 ∈ names members → ms.get? n.1 = some n.2) →
      (∀ key ∈ ns.keys, given.lookup key = none) →
      ∃ taken, (Node.ofMembers ns).foldlM (takeEntry root info members) given = .ok taken ∧
        ∀ key ∈ names members,
          taken.lookup key = ((ns.get? key).map (Value.asOption id)).or (given.lookup key)
  | [], given, _, _, _ => ⟨given, rfl, fun _ _ => rfl⟩
  | (key, v) :: ns, given, hkeys, hget, hfresh => by
    obtain ⟨hkey, hkeys⟩ := List.nodup_cons.mp hkeys
    obtain ⟨hfirst, hget⟩ := List.forall_mem_cons.mp hget
    obtain ⟨hhere, hfresh⟩ := List.forall_mem_cons.mp hfresh
    obtain ⟨taken, htake, htaken⟩ := exists_takeEntry info (Yaml.styleOf key).scalarStyle hn hpieces
      hread hfirst hhere
    have hother : ∀ other ∈ Members.keys ns, taken.lookup other = none := by
      intro other hmem
      have hne : ¬(key = other ∧ key ∈ names members) := fun e => hkey (e.1 ▸ hmem)
      rw [htaken, if_neg hne]
      exact hfresh other hmem
    obtain ⟨all, hrest, hall⟩ := exists_takeEntries hn hpieces hread hkeys hget hother
    refine ⟨all, ?_, fun other hmem => ?_⟩
    · rw [Node.ofMembers, List.foldlM_cons, htake]
      exact hrest
    · rw [hall other hmem, htaken, Members.get?_cons]
      by_cases he : key = other
      · subst he
        rw [Members.get?_eq_none_iff.mpr hkey, if_pos ⟨rfl, hmem⟩, if_pos rfl]
        rfl
      · rw [if_neg (fun e => he e.1), if_neg he]

/-- A record is read from members among which are its own. -/
theorem ofNode_record {ms ns : Members} (hn : (names members).Nodup)
    (h : areCanonical members ms) (hns : ns.keys.Nodup)
    (hget : ∀ key ∈ names members, ns.get? key = ms.get? key)
    (hread : ∀ m ∈ members, ∀ w, m.2.isCanonical w → m.2.ofNode root (Node.ofValue w) = .ok w) :
    (Schema.record info members).ofNode root (Node.ofValue (.map ns)) = .ok (.map ms) := by
  obtain ⟨hpieces, hms⟩ := pieces_of_areCanonical hn h
  have hsame : ∀ n ∈ ns, n.1 ∈ names members → ms.get? n.1 = some n.2 := by
    intro n hmem hkey
    rw [← hget _ hkey]
    exact (Members.get?_eq_some_iff hns).mpr hmem
  have hempty : ∀ key ∈ ns.keys, ([] : GivenMembers).lookup key = none := fun _ _ => rfl
  obtain ⟨given, htaken, hgiven⟩ := exists_takeEntries info hn hpieces hread hns hsame hempty
  have hsettle : ∀ m ∈ members, m.1.settle given = .ok (pieceOf ms m) := by
    intro m hm
    refine settle_eq_of_isPiece (hpieces m hm) ?_
    have hname : m.1.name ∈ names members := List.mem_map_of_mem hm
    rw [hgiven _ hname, hget _ hname]
    exact Option.or_none
  have hout := settleMembers_eq hsettle
  rw [← hms] at hout
  rw [ofNode_record_eq, htaken]
  refine bind_eq_ok.mpr ⟨given, rfl, ?_⟩
  rw [hout]
  rfl

end

/-! ## Canonical values -/

theorem ofNode_items {item : Schema} : ∀ {xs : List Value} (index : Nat),
    (∀ x ∈ xs, item.ofNode root (Node.ofValue x) = .ok x) →
      ((Node.ofItems xs).zipIdx index).mapM
        (fun (x, i) => (item.ofNode root x).under (.index i)) = .ok xs
  | [], _, _ => rfl
  | x :: xs, index, h => by
    obtain ⟨hx, h⟩ := List.forall_mem_cons.mp h
    have first : (item.ofNode root (Node.ofValue x)).under (.index index) = .ok x := by
      rw [hx]
      rfl
    rw [Node.ofItems, List.zipIdx_cons, List.mapM_cons]
    exact bind_eq_ok.mpr ⟨x, first, bind_eq_ok.mpr ⟨xs, ofNode_items (index + 1) h, rfl⟩⟩

theorem ofNode_entries {value : Schema} : ∀ {ms : Members},
    (∀ m ∈ ms, value.ofNode root (Node.ofValue m.2) = .ok m.2) →
      (Node.ofMembers ms).mapM (fun (key, x) => do
        let name ← NodeResult.of (key.keyText root "a string")
        return (name, ← (value.ofNode root x).under key.step)) = .ok ms
  | [], _ => rfl
  | (key, v) :: ms, h => by
    obtain ⟨hv, h⟩ := List.forall_mem_cons.mp h
    have content : (value.ofNode root (Node.ofValue v)).under (.key key) = .ok v := by
      rw [hv]
      rfl
    have first : (do
        let name ← NodeResult.of (.ok key)
        return (name, ← (value.ofNode root (Node.ofValue v)).under (.key key)) :
          NodeResult (String × Value)) = .ok (key, v) :=
      bind_eq_ok.mpr ⟨key, rfl, bind_eq_ok.mpr ⟨v, content, rfl⟩⟩
    rw [Node.ofMembers, List.mapM_cons]
    exact bind_eq_ok.mpr ⟨(key, v), first, bind_eq_ok.mpr ⟨ms, ofNode_entries h, rfl⟩⟩

mutual

/-- **Documents keep what is canonical.** The node of a canonical value reads as the value. -/
theorem ofNode_ofValue : ∀ {s : Schema} {w : Value}, s.isWellFormed → s.isCanonical w →
    s.ofNode root (Node.ofValue w) = .ok w
  | .text, w, _, h | .quantity, w, _, h => by
    cases w with
    | str s => rw [ofNode]; rfl
    | _ => cases h
  | .flag, w, _, h => by
    cases w with
    | bool b =>
      rw [ofNode]
      exact congrArg NodeResult.of (Yaml.readFlag_spelling b)
    | _ => cases h
  | .integer kind, w, _, h => by
    cases w with
    | int n =>
      rw [ofNode]
      exact congrArg NodeResult.of (Yaml.readInteger_decimal h)
    | _ => cases h
  | .choice variants, w, _, h => by
    cases w with
    | str s =>
      rw [ofNode, Node.target_ofValue]
      have named : Yaml.readVariant variants (Node.ofValue (.str s)) = .ok (.str s) :=
        if_pos (of_decide_eq_true h)
      exact congrArg NodeResult.of named
    | _ => cases h
  | .constant only, w, _, h => by
    cases w with
    | str s =>
      rw [ofNode]
      exact if_pos (of_decide_eq_true h)
    | _ => cases h
  | .list item, w, hs, h => by
    cases w with
    | list xs =>
      have hitem : ∀ x ∈ xs, item.ofNode root (Node.ofValue x) = .ok x := fun x hx =>
        ofNode_ofValue (s := item) hs (List.all_eq_true.mp h x hx)
      rw [ofNode, Node.target_ofValue]
      exact bind_eq_ok.mpr ⟨xs, ofNode_items 0 hitem, rfl⟩
    | _ => cases h
  | .dict value, w, hs, h => by
    cases w with
    | map ms =>
      obtain ⟨hsorted, hall⟩ := Bool.and_eq_true_iff.mp h
      have hms : Members.Sorted ms := of_decide_eq_true hsorted
      have hvalue : ∀ m ∈ ms, value.ofNode root (Node.ofValue m.2) = .ok m.2 := fun m hm =>
        ofNode_ofValue (s := value) hs (List.all_eq_true.mp hall m hm)
      rw [ofNode, Node.target_ofValue]
      exact bind_eq_ok.mpr ⟨ms, ofNode_entries hvalue, by rw [hms.ofList_eq]; rfl⟩
    | _ => cases h
  | .record info members, w, hs, h => by
    obtain ⟨hn, hw⟩ := isWellFormed_record.mp hs
    cases w with
    | map ms =>
      have hcanonical : areCanonical members ms := h
      exact ofNode_record hn hcanonical (nodup_keys_of_areCanonical hn hcanonical)
        (fun _ _ => rfl) (ofNode_ofValue_of_mem hw)
    | _ => cases h

theorem ofNode_ofValue_of_mem : ∀ {members : List (MemberInfo × Schema)}, areWellFormed members →
    ∀ m ∈ members, ∀ w, m.2.isCanonical w → m.2.ofNode root (Node.ofValue w) = .ok w
  | (info, schema) :: members, hw, m, hm, w, h => by
    obtain ⟨⟨_, hs⟩, hw⟩ := List.forall_mem_cons.mp (areWellFormed_iff.mp hw)
    rcases List.mem_cons.mp hm with rfl | hm
    · exact ofNode_ofValue hs h
    · exact ofNode_ofValue_of_mem (areWellFormed_iff.mpr hw) m hm w h

end

end Schema

end LogForwarder
