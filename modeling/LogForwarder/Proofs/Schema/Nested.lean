import LogForwarder.Proofs.Schema.Record
import LogForwarder.Proofs.Value.Path

/-!
# Reading through nested records

1. What stands at a path of keys is read by the schema of that place (`ofValue_get?`), and another
   thing that this schema reads may be put there, which leaves everything else as it was read
   (`ofValue_set?`).
2. A list of which the items are changed is read item by item (`readsItems_of_ofValue`).
3. Where the members of all records are in the order of their names, a canonical value is sorted
   (`sorted_of_isCanonical`), and what stands at a place of it is canonical
   (`isCanonical_of_get?`).
-/

namespace LogForwarder

namespace Schema

/-! ## Places -/

/-- The schema of what stands at a path of keys through records. -/
def at? : Schema → List String → Option Schema
  | s, [] => some s
  | .record _ members, key :: path =>
    (members.find? fun m => m.1.name = key).bind fun m => m.2.at? path
  | _, _ :: _ => none

variable {s s' : Schema} {info : RecordInfo} {members : List (MemberInfo × Schema)}
  {m : MemberInfo × Schema} {path : List String} {key : String} {v w x u z : Value}

theorem at?_nil (s : Schema) : s.at? [] = some s := by
  cases s <;> rfl

/-- A place under a key is one in a member of that name. -/
theorem at?_cons_eq_some (h : s.at? (key :: path) = some s') :
    ∃ info members, s = .record info members ∧
      ∃ m ∈ members, m.1.name = key ∧ m.2.at? path = some s' := by
  cases s with
  | record info members =>
    obtain ⟨m, hm, hpath⟩ := Option.bind_eq_some_iff.mp h
    have hname : m.1.name = key := by
      have hfound := List.find?_some hm
      simpa using hfound
    exact ⟨info, members, rfl, m, List.mem_of_find?_eq_some hm, hname, hpath⟩
  | _ => cases h

/-! ## Order -/

mutual

/-- Whether the members of every record in a schema are in the order of their names. -/
def isOrdered : Schema → Bool
  | .text | .flag | .integer _ | .choice _ | .quantity | .constant _ => true
  | .list item | .dict item => item.isOrdered
  | .record _ members => decide ((names members).Pairwise (· < ·)) && areOrdered members

/-- Whether the members of all records in some members are in the order of their names. -/
def areOrdered : List (MemberInfo × Schema) → Bool
  | [] => true
  | (_, schema) :: members => schema.isOrdered && areOrdered members

end

theorem isOrdered_record :
    (Schema.record info members).isOrdered ↔
      (names members).Pairwise (· < ·) ∧ ∀ m ∈ members, m.2.isOrdered := by
  have hmembers : ∀ members : List (MemberInfo × Schema),
      areOrdered members ↔ ∀ m ∈ members, m.2.isOrdered := by
    intro members
    induction members with
    | nil => simp [areOrdered]
    | cons m members ih => rw [areOrdered, Bool.and_eq_true_iff, ih, List.forall_mem_cons]
  rw [isOrdered, Bool.and_eq_true_iff, decide_eq_true_iff, hmembers]

theorem nodup_names_of_ordered (h : (names members).Pairwise (· < ·)) : (names members).Nodup :=
  h.imp ne_of_lt

theorem keys_arranged_sublist (o : String → Option Value) :
    (arranged members o).keys.Sublist (names members) := by
  induction members with
  | nil => exact .slnil
  | cons m members ih =>
    have hcons : arranged (m :: members) o =
        Value.ofMember m.1.name id (o m.1.name) ++ arranged members o := rfl
    rw [hcons]
    cases o m.1.name with
    | none => exact ih.cons _
    | some v => exact ih.cons_cons _

theorem sorted_arranged (h : (names members).Pairwise (· < ·)) (o : String → Option Value) :
    (arranged members o).Sorted :=
  List.pairwise_map.mp (h.sublist (keys_arranged_sublist o))

/-- In a record in the order of the names, a value takes its place. -/
theorem updated_eq_put (h : (names members).Pairwise (· < ·)) (hm : m ∈ members) {out : Members}
    (hout : arranged members out.get? = out) (z : Value) :
    updated members out m.1.name z = out.put m.1.name z := by
  have hsorted : out.Sorted := hout ▸ sorted_arranged h out.get?
  refine (sorted_arranged h _).ext (hsorted.put _ _) fun key => ?_
  show (arranged members fun key => if key = m.1.name then some z else out.get? key).get? key = _
  rw [get?_arranged]
  by_cases hkey : key = m.1.name
  · subst hkey
    rw [if_pos (List.mem_map_of_mem hm), if_pos rfl, Members.get?_put_self]
  · rw [if_neg hkey, Members.get?_put_of_ne _ _ (Ne.symm hkey)]
    conv_rhs => rw [← hout, get?_arranged]

/-! ## What stands at a place -/

/-- What stands at a place is read by the schema of the place. -/
theorem ofValue_get? (hs : s.isOrdered) (hat : s.at? path = some s') (h : s.ofValue v = .ok w)
    (hx : v.get? path = some x) (hne : x ≠ .null) :
    ∃ y, s'.ofValue x = .ok y ∧ w.get? path = some y := by
  induction path generalizing s v w with
  | nil =>
    rw [at?_nil] at hat
    rw [Value.get?_nil] at hx
    cases hat
    cases hx
    exact ⟨w, h, Value.get?_nil w⟩
  | cons key path ih =>
    obtain ⟨info, members, rfl, m, hm, rfl, hplace⟩ := at?_cons_eq_some hat
    obtain ⟨ms, u, rfl, hu, hx⟩ := Value.get?_cons_eq_some hx
    obtain ⟨hordered, hchildren⟩ := isOrdered_record.mp hs
    obtain ⟨out, rfl, -, hreads⟩ := reads_of_ofValue (nodup_names_of_ordered hordered) h
    have hu' : u ≠ .null := by
      rintro rfl
      cases path with
      | nil => exact hne (Option.some.inj hx).symm
      | cons _ _ => cases hx
    obtain ⟨z, hz, hout⟩ := (reads_some_iff hu').mp (hu ▸ hreads m hm)
    obtain ⟨y, hy, hget⟩ := ih (hchildren m hm) hplace hz hx
    refine ⟨y, hy, ?_⟩
    rw [Value.get?_map_cons, hout]
    exact hget

/-- What stands at a place may be replaced by anything that the schema of the place reads. All else
is read as before. -/
theorem ofValue_set? (hs : s.isOrdered) (hat : s.at? path = some s') (h : s.ofValue v = .ok w)
    (hx : v.get? path = some x) (hne : x ≠ .null) (hu : s'.ofValue u = .ok z) :
    ∃ v' w', v.set? path u = some v' ∧ w.set? path z = some w' ∧ s.ofValue v' = .ok w' := by
  induction path generalizing s v w with
  | nil =>
    rw [at?_nil] at hat
    cases hat
    exact ⟨u, z, Value.set?_nil v u, Value.set?_nil w z, hu⟩
  | cons key path ih =>
    obtain ⟨info, members, rfl, m, hm, rfl, hplace⟩ := at?_cons_eq_some hat
    obtain ⟨ms, t, rfl, ht, hx⟩ := Value.get?_cons_eq_some hx
    obtain ⟨hordered, hchildren⟩ := isOrdered_record.mp hs
    have hn := nodup_names_of_ordered hordered
    obtain ⟨out, rfl, harranged, hreads⟩ := reads_of_ofValue hn h
    have ht' : t ≠ .null := by
      rintro rfl
      cases path with
      | nil => exact hne (Option.some.inj hx).symm
      | cons _ _ => cases hx
    obtain ⟨y, hy, hout⟩ := (reads_some_iff ht').mp (ht ▸ hreads m hm)
    obtain ⟨t', y', hsetIn, hsetOut, hread⟩ := ih (hchildren m hm) hplace hy hx
    refine ⟨.map (Members.put ms m.1.name t'), .map (out.put m.1.name y'), ?_, ?_, ?_⟩
    · exact Option.map_eq_some_iff.mpr ⟨t', by rw [ht]; exact hsetIn, rfl⟩
    · exact Option.map_eq_some_iff.mpr ⟨y', by rw [hout]; exact hsetOut, rfl⟩
    · rw [ofValue_put hn hm h hread, updated_eq_put hordered hm harranged]

/-! ## Lists at a place -/

theorem ofValue_list_eq_ok {item : Schema} {xs : List Value}
    (h : (Schema.list item).ofValue (.list xs) = .ok w) :
    ∃ ys, w = .list ys ∧ List.Forall₂ (fun x y => item.ofValue x = .ok y) xs ys := by
  obtain ⟨ys, hys, h⟩ := bind_eq_ok.mp h
  cases h
  exact ⟨ys, rfl, mapM_eq_ok_iff.mp hys⟩

/-- How a list of which the items are changed is read: each of its items as it is changed, in their
order, and all else than the list as it stands. -/
structure ReadsItems (s item : Schema) (path : List String) (f : Value → Value) (v w : Value)
    (xs ys : List Value) : Prop where
  before : v.itemsAt? path = some xs
  after : w.itemsAt? path = some ys
  items : List.Forall₂ (fun x y => item.ofValue (f x) = .ok y) xs ys
  rest : ∃ b b', v.set? path (.list []) = some b ∧ w.set? path (.list []) = some b' ∧
    s.ofValue b = .ok b'

theorem readsItems_of_ofValue {item : Schema} {f : Value → Value} {xs : List Value}
    (hs : s.isOrdered) (hat : s.at? path = some (.list item)) (hxs : v.itemsAt? path = some xs)
    (h : s.ofValue (v.change path (Value.mapItems f)) = .ok w) :
    ∃ ys, ReadsItems s item path f v w xs ys := by
  have hset : v.set? path (.list (xs.map f)) = some (v.change path (Value.mapItems f)) :=
    Value.change_eq (f := Value.mapItems f) (Value.itemsAt?_eq_some_iff.mp hxs)
  have hget := Value.get?_set? hset
  obtain ⟨y, hy, hw⟩ := ofValue_get? hs hat h hget nofun
  obtain ⟨ys, rfl, hys⟩ := ofValue_list_eq_ok hy
  have hempty : (Schema.list item).ofValue (.list []) = .ok (.list []) := rfl
  obtain ⟨b, b', hb, hb', hread⟩ := ofValue_set? hs hat h hget nofun hempty
  rw [Value.set?_set? hset] at hb
  exact ⟨ys, hxs, Value.itemsAt?_eq_some_iff.mpr hw, List.forall₂_map_left_iff.mp hys,
    b, b', hb, hb', hread⟩

/-! ## Canonical values -/

/-- The members of a canonical record are those of its schema. -/
theorem mem_of_areCanonical (hn : (names members).Nodup) {ms : Members}
    (h : areCanonical members ms) {n : String × Value} (hmem : n ∈ ms) :
    ∃ m ∈ members, n.1 = m.1.name ∧ (m.2.isCanonical n.2 ∨ n.2 = .null) := by
  obtain ⟨hpieces, hms⟩ := pieces_of_areCanonical hn h
  rw [hms] at hmem
  obtain ⟨m, hm, hpiece⟩ := List.mem_flatMap.mp hmem
  have hm' := hpieces m hm
  refine ⟨m, hm, ?_⟩
  generalize pieceOf ms m = piece at hm' hpiece
  cases hm' with
  | given hv =>
    cases List.mem_singleton.mp hpiece
    exact ⟨rfl, .inl hv⟩
  | null _ =>
    cases List.mem_singleton.mp hpiece
    exact ⟨rfl, .inr rfl⟩
  | leftOut _ => cases hpiece

mutual

/-- Where the members of all records are in order, canonical values are sorted. -/
theorem sorted_of_isCanonical : ∀ {s : Schema} {w : Value}, s.isWellFormed → s.isOrdered →
    s.isCanonical w → w.sorted = w
  | .text, w, _, _, h | .quantity, w, _, _, h | .flag, w, _, _, h | .integer _, w, _, _, h
  | .choice _, w, _, _, h | .constant _, w, _, _, h => by
    cases w <;> first | rfl | cases h
  | .list item, w, hs, ho, h => by
    cases w with
    | list xs =>
      have hitems : ∀ x ∈ xs, x.sorted = x := fun x hx =>
        sorted_of_isCanonical (s := item) hs ho (List.all_eq_true.mp h x hx)
      rw [Value.sorted, Value.sortedItems_eq_map, List.map_congr_left hitems, List.map_id']
    | _ => cases h
  | .dict value, w, hs, ho, h => by
    cases w with
    | map ms =>
      obtain ⟨hsorted, hall⟩ := Bool.and_eq_true_iff.mp h
      have hms : ∀ m ∈ ms, (m.1, m.2.sorted) = m := fun m hm => Prod.ext rfl <|
        sorted_of_isCanonical (s := value) hs ho (List.all_eq_true.mp hall m hm)
      rw [Value.sorted, Value.sortedMembers_of_sorted (of_decide_eq_true hsorted),
        List.map_congr_left hms, List.map_id']
    | _ => cases h
  | .record info members, w, hs, ho, h => by
    cases w with
    | map ms =>
      obtain ⟨hn, hwell⟩ := isWellFormed_record.mp hs
      obtain ⟨hordered, hchildren⟩ := isOrdered_record.mp ho
      have hcanonical : areCanonical members ms := h
      have hsorted : Members.Sorted ms :=
        (pieces_of_areCanonical hn hcanonical).2 ▸ sorted_arranged hordered _
      have hms : ∀ n ∈ ms, (n.1, n.2.sorted) = n := fun n hmem => Prod.ext rfl <| by
        obtain ⟨m, hm, -, hv | hnull⟩ := mem_of_areCanonical hn hcanonical hmem
        · exact sorted_of_mem hwell hchildren m hm hv
        · rw [hnull]
          rfl
      rw [Value.sorted, Value.sortedMembers_of_sorted hsorted, List.map_congr_left hms,
        List.map_id']
    | _ => cases h

theorem sorted_of_mem : ∀ {members : List (MemberInfo × Schema)}, areWellFormed members →
    (∀ m ∈ members, m.2.isOrdered) → ∀ m ∈ members, ∀ {w : Value}, m.2.isCanonical w →
      w.sorted = w
  | (info, schema) :: members, hwell, ho, m, hm, w, h => by
    obtain ⟨⟨_, hs⟩, hwell⟩ := List.forall_mem_cons.mp (areWellFormed_iff.mp hwell)
    obtain ⟨hfirst, ho⟩ := List.forall_mem_cons.mp ho
    rcases List.mem_cons.mp hm with rfl | hm
    · exact sorted_of_isCanonical hs hfirst h
    · exact sorted_of_mem (areWellFormed_iff.mpr hwell) ho m hm h

end

/-- What stands at a place of a canonical value is canonical. -/
theorem isCanonical_of_get? (hs : s.isWellFormed) (ho : s.isOrdered) (hs' : s'.isWellFormed)
    (hat : s.at? path = some s') (h : s.isCanonical w) (hx : w.get? path = some x)
    (hne : x ≠ .null) : s'.isCanonical x := by
  obtain ⟨y, hy, hget⟩ := ofValue_get? ho hat (ofValue_of_isCanonical hs h) hx hne
  cases hx.symm.trans hget
  exact isCanonical_of_ofValue hs' hy

/-- A list in a canonical value does not change if its items do not. -/
theorem change_eq_self_of_isCanonical {item : Schema} {f : Value → Value} (hs : s.isWellFormed)
    (ho : s.isOrdered) (hitem : item.isWellFormed) (hat : s.at? path = some (.list item))
    (hf : ∀ x, item.isCanonical x → f x = x) (h : s.isCanonical w) :
    w.change path (Value.mapItems f) = w := by
  refine Value.change_eq_self (sorted_of_isCanonical hs ho h) fun x hx => ?_
  cases x with
  | list xs =>
    have hxs : (Schema.list item).isCanonical (.list xs) :=
      isCanonical_of_get? hs ho hitem hat h hx nofun
    have hsame : ∀ x ∈ xs, f x = x := fun x hmem => hf x (List.all_eq_true.mp hxs x hmem)
    exact congrArg Value.list ((List.map_congr_left hsame).trans (List.map_id' xs))
  | _ => rfl

end Schema

end LogForwarder
