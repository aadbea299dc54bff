import LogForwarder.Proofs.Schema.Canonical

/-!
# Reading canonical values again

1. A canonical value reads as itself, however the members of its maps are arranged
   (`ofValue_arrange`), so also as they stand (`ofValue_of_isCanonical`).
2. Canonical members are what is found of each member of the schema, in its order
   (`pieces_of_areCanonical`).
-/

namespace LogForwarder

/-! ## Arrangements -/

/-- Whether a function only rearranges the members of maps, at every depth. -/
structure Value.Arranges (f : Value → Value) : Prop where
  leaf : ∀ v : Value, v.items? = none → v.members? = none → f v = v
  list : ∀ xs, f (.list xs) = .list (xs.map f)
  map : ∀ ms : Members, ms.keys.Nodup → ∃ ns : Members, f (.map ms) = .map ns ∧ ns.keys.Nodup ∧
    ∀ key, ns.get? key = (ms.get? key).map f
  sorted : ∀ ms : Members, ms.Sorted → f (.map ms) = .map (ms.map fun m => (m.1, f m.2))

theorem Value.arranges_id : Value.Arranges id where
  leaf _ _ _ := rfl
  list xs := by rw [List.map_id]; rfl
  map ms hms := ⟨ms, rfl, hms, fun _ => by rw [Option.map_id]; rfl⟩
  sorted ms _ := congrArg Value.map (List.map_id ms).symm

theorem Value.arranges_sorted : Value.Arranges Value.sorted where
  leaf v hl hm := by
    cases v with
    | list xs => cases hl
    | map ms => cases hm
    | _ => rfl
  list xs := by rw [Value.sorted, Value.sortedItems_eq_map]
  map ms _ := ⟨Value.sortedMembers ms, by rw [Value.sorted],
    (Value.sorted_sortedMembers ms).nodup_keys, Value.get?_sortedMembers ms⟩
  sorted ms hms := by rw [Value.sorted, Value.sortedMembers_of_sorted hms]

namespace Schema

/-! ## Members by name -/

/-- No schema reads `null`: it only ever stands for a member that is not given. -/
theorem ofValue_null_ne_ok (s : Schema) (w : Value) : s.ofValue .null ≠ .ok w := by
  cases s <;> simp [ofValue]

theorem ne_null_of_isCanonical {s : Schema} {w : Value} (h : s.isCanonical w) : w ≠ .null := by
  rintro rfl
  cases s <;> simp [isCanonical] at h

theorem memberOfValue_of_mem {m : MemberInfo × Schema} {v : Value} :
    ∀ {members : List (MemberInfo × Schema)}, (names members).Nodup → m ∈ members →
      memberOfValue members m.1.name v =
        if v = .null ∧ m.1.presence.acceptsNull then .ok (some (m.1.name, none))
        else (m.2.ofValue v).map fun w => some (m.1.name, some w)
  | (info, schema) :: members, hn, hm => by
    obtain ⟨hinfo, hn⟩ := nodup_names_cons.mp hn
    rw [memberOfValue]
    rcases List.mem_cons.mp hm with rfl | hm
    · rw [if_pos rfl]
      cases schema.ofValue v <;> rfl
    · have hne : info.name ≠ m.1.name := fun e => hinfo (List.mem_map.mpr ⟨m, hm, e.symm⟩)
      rw [if_neg hne]
      exact memberOfValue_of_mem hn hm

/-! ## Members by look-up -/

/-- What some members hold for a member of the schema. -/
def pieceOf (ms : Members) (m : MemberInfo × Schema) : Members :=
  Value.ofMember m.1.name id (ms.get? m.1.name)

theorem pieceOf_append_left {m : MemberInfo × Schema} {ms ns : Members}
    (h : m.1.name ∉ ms.keys) : pieceOf (ms ++ ns) m = pieceOf ns m := by
  unfold pieceOf
  rw [Members.get?_append, Members.get?_eq_none_iff.mpr h, Option.none_or]

theorem pieceOf_append_right {m : MemberInfo × Schema} {ms ns : Members}
    (h : m.1.name ∉ ns.keys) : pieceOf (ms ++ ns) m = pieceOf ms m := by
  unfold pieceOf
  rw [Members.get?_append, Members.get?_eq_none_iff.mpr h, Option.or_none]

theorem IsPiece.pieceOf_eq {m : MemberInfo × Schema} {piece : Members} (h : IsPiece m piece) :
    pieceOf piece m = piece := by
  cases h <;> simp [pieceOf, Value.ofMember]

/-- Canonical members hold a piece for every member of the schema, and nothing besides. -/
theorem pieces_of_areCanonical : ∀ {members : List (MemberInfo × Schema)} {ms : Members},
    (names members).Nodup → areCanonical members ms →
      (∀ m ∈ members, IsPiece m (pieceOf ms m)) ∧ ms = members.flatMap (pieceOf ms)
  | [], ms, _, h => ⟨fun _ hm => (nomatch hm), List.isEmpty_iff.mp h⟩
  | m :: members, ms, hn, h => by
    obtain ⟨hm, hn⟩ := nodup_names_cons.mp hn
    obtain ⟨piece, rest, rfl, hpiece, hrest⟩ := (areCanonical_cons_iff hm).mp h
    obtain ⟨hpieces, heq⟩ := pieces_of_areCanonical hn hrest
    have hself : pieceOf (piece ++ rest) m = piece := by
      rw [pieceOf_append_right fun hk => hm (keys_subset_of_areCanonical hrest hk)]
      exact hpiece.pieceOf_eq
    have hothers : ∀ o ∈ members, pieceOf (piece ++ rest) o = pieceOf rest o := by
      intro o ho
      refine pieceOf_append_left fun hk => hm ?_
      rw [← List.mem_singleton.mp (hpiece.keys_subset hk)]
      exact List.mem_map_of_mem ho
    refine ⟨List.forall_mem_cons.mpr ⟨hself.symm ▸ hpiece, fun o ho => ?_⟩, ?_⟩
    · exact hothers o ho ▸ hpieces o ho
    · rw [List.flatMap_cons, hself, List.flatMap_congr hothers, ← heq]

theorem nodup_keys_of_areCanonical : ∀ {members : List (MemberInfo × Schema)} {ms : Members},
    (names members).Nodup → areCanonical members ms → ms.keys.Nodup
  | [], ms, _, h => by
    rw [show ms = [] from List.isEmpty_iff.mp h]
    exact List.nodup_nil
  | m :: members, ms, hn, h => by
    obtain ⟨hm, hn⟩ := nodup_names_cons.mp hn
    obtain ⟨piece, rest, rfl, hpiece, hrest⟩ := (areCanonical_cons_iff hm).mp h
    have hkeys := nodup_keys_of_areCanonical hn hrest
    have hnot : m.1.name ∉ rest.keys := fun hk => hm (keys_subset_of_areCanonical hrest hk)
    cases hpiece with
    | given _ => exact List.nodup_cons.mpr ⟨hnot, hkeys⟩
    | null _ => exact List.nodup_cons.mpr ⟨hnot, hkeys⟩
    | leftOut _ => exact hkeys

theorem asOption_of_ne_null {α : Type} (read : Value → α) {v : Value} (h : v ≠ .null) :
    v.asOption read = some (read v) := by
  cases v with
  | null => exact absurd rfl h
  | _ => rfl

/-! ## Settling what was canonical -/

theorem settle_eq_of_isPiece {m : MemberInfo × Schema} {o : Option Value} {given : GivenMembers}
    (h : IsPiece m (Value.ofMember m.1.name id o))
    (hg : given.lookup m.1.name = o.map (Value.asOption id)) :
    m.1.settle given = .ok (Value.ofMember m.1.name id o) := by
  obtain ⟨⟨name, presence, annotations⟩, schema⟩ := m
  unfold MemberInfo.settle
  rcases o with _ | v
  · have hp : presence = .omittable := by cases h; assumption
    simp only [show given.lookup name = none from hg, hp]
    rfl
  · by_cases hv : v = .null
    · subst hv
      have hp : presence = .nullable := by
        cases h with
        | given hnull => exact absurd rfl (ne_null_of_isCanonical hnull)
        | null hp => exact hp
      simp only [show given.lookup name = some none from hg, hp]
      rfl
    · simp only [hg, Option.map_some, asOption_of_ne_null id hv]
      rfl

theorem settleMembers_eq {given : GivenMembers} {piece : MemberInfo × Schema → Members} :
    ∀ {members : List (MemberInfo × Schema)}, (∀ m ∈ members, m.1.settle given = .ok (piece m)) →
      settleMembers (members.map (·.1)) given = .ok (members.flatMap piece)
  | [], _ => rfl
  | m :: members, h => by
    obtain ⟨hm, h⟩ := List.forall_mem_cons.mp h
    rw [List.map_cons, settleMembers, hm, settleMembers_eq h]
    rfl

/-! ## Reading -/

theorem lookup_filterMap_key {β : Type} (F : String → Option β) (ns : Members) (key : String) :
    (ns.filterMap fun n => (F n.1).map fun b => (n.1, b)).lookup key =
      if key ∈ ns.keys then F key else none := by
  induction ns with
  | nil => rfl
  | cons n ns ih =>
    by_cases hn : n.1 = key
    · subst hn
      cases hF : F n.1 <;> simp [hF, ih]
    · have hne : (key == n.1) = false := beq_false_of_ne (Ne.symm hn)
      have hkeys : key ∈ Members.keys (n :: ns) ↔ key ∈ Members.keys ns := by simp [Ne.symm hn]
      simp only [hkeys]
      cases hF : F n.1 <;> simp [hF, ih, List.lookup_cons, hne]

theorem memberOfValue_of_isPiece {members : List (MemberInfo × Schema)}
    {m : MemberInfo × Schema} {v w : Value} (hn : (names members).Nodup) (hm : m ∈ members)
    (hw : IsPiece m [(m.1.name, w)]) (hread : m.2.isCanonical w → m.2.ofValue v = .ok w)
    (hnull : w = .null → v = .null) :
    memberOfValue members m.1.name v = .ok (some (m.1.name, Value.asOption id w)) := by
  obtain ⟨info, schema⟩ := m
  rw [memberOfValue_of_mem hn hm]
  cases hw with
  | given hw =>
    have hne : ¬(v = .null ∧ info.presence.acceptsNull) := fun e =>
      ofValue_null_ne_ok schema w (e.1 ▸ hread hw)
    rw [if_neg hne, hread hw, asOption_of_ne_null id (ne_null_of_isCanonical hw)]
    rfl
  | null hp =>
    rw [if_pos ⟨hnull rfl, by rw [hp]; rfl⟩]
    rfl

/-- A record is read from other members than its own if they are found under the same names and
each of them reads as its own does. -/
theorem ofValue_record {info : RecordInfo} {members : List (MemberInfo × Schema)}
    {ms ns : Members} {f : String → Value → Value} (hn : (names members).Nodup)
    (h : areCanonical members ms) (hns : ns.keys.Nodup)
    (hget : ∀ key, ns.get? key = (ms.get? key).map (f key)) (hnull : ∀ key, f key .null = .null)
    (hread : ∀ m ∈ members, ∀ w, m.2.isCanonical w → m.2.ofValue (f m.1.name w) = .ok w) :
    (Schema.record info members).ofValue (.map ns) = .ok (.map ms) := by
  obtain ⟨hpieces, hms⟩ := pieces_of_areCanonical hn h
  let F : String → Option (Option Value) := fun key => (ms.get? key).map (Value.asOption id)
  have hmember : ∀ n ∈ ns, memberOfValue members n.1 n.2 =
      .ok ((F n.1).map fun o => (n.1, o)) := by
    rintro ⟨key, v⟩ hmem
    have hsome : (ms.get? key).map (f key) = some v :=
      hget key ▸ (Members.get?_eq_some_iff hns).mpr hmem
    obtain ⟨w, hw, rfl⟩ := Option.map_eq_some_iff.mp hsome
    have hkey : key ∈ names members :=
      keys_subset_of_areCanonical h (Members.mem_keys_of_mem (Members.mem_of_get?_eq_some hw))
    obtain ⟨m, hm, rfl⟩ := List.mem_map.mp hkey
    have hpiece := hpieces m hm
    rw [pieceOf, hw] at hpiece
    simp only [F, hw]
    exact memberOfValue_of_isPiece hn hm hpiece (hread m hm w) (fun e => e ▸ hnull m.1.name)
  have hlookup : ∀ key, (ns.filterMap fun n => (F n.1).map fun o => (n.1, o)).lookup key =
      (ms.get? key).map (Value.asOption id) := by
    intro key
    rw [lookup_filterMap_key]
    split_ifs with hkey
    · rfl
    · have hnone := Members.get?_eq_none_iff.mpr hkey
      rw [hget, Option.map_eq_none_iff] at hnone
      rw [hnone]
      rfl
  rw [ofValue, filterMapM_eq_ok hmember]
  have hsettle : ∀ m ∈ members,
      m.1.settle (ns.filterMap fun n => (F n.1).map fun o => (n.1, o)) = .ok (pieceOf ms m) :=
    fun m hm => settle_eq_of_isPiece (hpieces m hm) (hlookup m.1.name)
  have hout := settleMembers_eq hsettle
  rw [← hms] at hout
  exact bind_eq_ok.mpr ⟨_, rfl, bind_eq_ok.mpr ⟨_, hout, rfl⟩⟩

mutual

/-- What a canonical value is rearranged to reads as the value. -/
theorem ofValue_arrange {f : Value → Value} (hf : Value.Arranges f) :
    ∀ {s : Schema} {w : Value}, s.isWellFormed → s.isCanonical w → s.ofValue (f w) = .ok w
  | .text, w, _, h | .quantity, w, _, h => by
    cases w with
    | str s => rw [hf.leaf (.str s) rfl rfl, ofValue]
    | _ => cases h
  | .flag, w, _, h => by
    cases w with
    | bool b => rw [hf.leaf (.bool b) rfl rfl, ofValue]
    | _ => cases h
  | .integer kind, w, _, h => by
    cases w with
    | int n => rw [hf.leaf (.int n) rfl rfl, ofValue, if_pos (show kind.holds n from h)]
    | _ => cases h
  | .choice variants, w, _, h => by
    cases w with
    | str s => rw [hf.leaf (.str s) rfl rfl, ofValue, if_pos (of_decide_eq_true h)]
    | _ => cases h
  | .constant only, w, _, h => by
    cases w with
    | str s => rw [hf.leaf (.str s) rfl rfl, ofValue, if_pos (of_decide_eq_true h)]
    | _ => cases h
  | .list item, w, hs, h => by
    cases w with
    | list xs =>
      have hitem : ∀ x ∈ xs, item.ofValue (f x) = .ok x := fun x hx =>
        ofValue_arrange hf (s := item) hs (List.all_eq_true.mp h x hx)
      have hitems : (xs.map f).mapM (fun x => item.ofValue x) = .ok xs := by
        refine mapM_eq_ok_iff.mpr (List.forall₂_map_left_iff.mpr ?_)
        exact List.forall₂_same.mpr hitem
      rw [hf.list, ofValue]
      exact bind_eq_ok.mpr ⟨xs, hitems, rfl⟩
    | _ => cases h
  | .dict value, w, hs, h => by
    cases w with
    | map ms =>
      obtain ⟨hsorted, hall⟩ := Bool.and_eq_true_iff.mp h
      have hms : Members.Sorted ms := of_decide_eq_true hsorted
      have hvalue : ∀ m ∈ ms, value.ofValue (f m.2) = .ok m.2 := fun m hm =>
        ofValue_arrange hf (s := value) hs (List.all_eq_true.mp hall m hm)
      rw [hf.sorted ms hms, ofValue]
      refine bind_eq_ok.mpr ⟨ms, ?_, by rw [hms.ofList_eq]; rfl⟩
      refine mapM_eq_ok_iff.mpr (List.forall₂_map_left_iff.mpr ?_)
      exact List.forall₂_same.mpr fun m hm => bind_eq_ok.mpr ⟨m.2, hvalue m hm, rfl⟩
    | _ => cases h
  | .record info members, w, hs, h => by
    obtain ⟨hn, hw⟩ := isWellFormed_record.mp hs
    cases w with
    | map ms =>
      have hcanonical : areCanonical members ms := h
      obtain ⟨ns, hns, hkeys, hget⟩ := hf.map ms (nodup_keys_of_areCanonical hn hcanonical)
      rw [hns]
      exact ofValue_record (f := fun _ => f) hn hcanonical hkeys hget
        (fun _ => hf.leaf .null rfl rfl) (ofValue_arrange_of_mem hf hw)
    | _ => cases h

theorem ofValue_arrange_of_mem {f : Value → Value} (hf : Value.Arranges f) :
    ∀ {members : List (MemberInfo × Schema)}, areWellFormed members → ∀ m ∈ members, ∀ w,
      m.2.isCanonical w → m.2.ofValue (f w) = .ok w
  | (info, schema) :: members, hw, m, hm, w, h => by
    obtain ⟨⟨_, hs⟩, hw⟩ := List.forall_mem_cons.mp (areWellFormed_iff.mp hw)
    rcases List.mem_cons.mp hm with rfl | hm
    · exact ofValue_arrange hf hs h
    · exact ofValue_arrange_of_mem hf (areWellFormed_iff.mpr hw) m hm w h

end

variable {s : Schema} {w : Value}

/-- **Reading is idempotent.** A canonical value reads as itself. -/
theorem ofValue_of_isCanonical (hs : s.isWellFormed) (h : s.isCanonical w) : s.ofValue w = .ok w :=
  ofValue_arrange Value.arranges_id hs h

end Schema

end LogForwarder
