import LogForwarder.Value.Record
import Mathlib.Data.List.Induction
import Mathlib.Data.String.Basic
import Mathlib.Tactic.SplitIfs

/-!
# Members of maps

Maps are lists of members in the order in which they are written. Most of what is done with them
depends on their look-ups only.

1. Without repeated keys, `get?` finds exactly the members (`get?_eq_some_iff`), and `put` keeps
   it so.
2. Sorted members are fixed by their look-ups, and `ofList` gives them back.
3. `Value.sorted` sorts the members at every depth. It changes no look-up but for what it does to
   the value that is found (`get?_sortedMembers`).
-/

namespace LogForwarder

namespace Members

/-- The keys, in the order of the members. -/
abbrev keys (ms : Members) : List String := ms.map Prod.fst

/-- Whether the members stand in the order of their keys, none of which is repeated. -/
def Sorted (ms : Members) : Prop := ms.Pairwise fun a b => a.1 < b.1

instance (ms : Members) : Decidable ms.Sorted := by unfold Sorted; infer_instance

/-! ## Look-ups -/

theorem mem_keys_of_mem {ms : Members} {key : String} {v : Value} (h : (key, v) ∈ ms) :
    key ∈ ms.keys :=
  List.mem_map_of_mem h

theorem mem_of_get?_eq_some {ms : Members} {key : String} {v : Value}
    (h : ms.get? key = some v) : (key, v) ∈ ms := by
  induction ms with
  | nil => simp at h
  | cons m ms ih =>
    obtain ⟨k, w⟩ := m
    rw [get?_cons] at h
    split_ifs at h with hk
    · rw [hk, Option.some.inj h]; exact List.mem_cons_self
    · exact List.mem_cons_of_mem _ (ih h)

theorem get?_eq_none_iff {ms : Members} {key : String} :
    ms.get? key = none ↔ key ∉ ms.keys := by
  induction ms with
  | nil => simp
  | cons m ms ih =>
    obtain ⟨k, w⟩ := m
    by_cases hk : k = key
    · simp [hk]
    · rw [get?_cons, if_neg hk, ih]; simp [Ne.symm hk]

theorem get?_eq_some_iff {ms : Members} (hn : ms.keys.Nodup) {key : String} {v : Value} :
    ms.get? key = some v ↔ (key, v) ∈ ms := by
  refine ⟨mem_of_get?_eq_some, fun h => ?_⟩
  induction ms with
  | nil => simp at h
  | cons m ms ih =>
    obtain ⟨k, w⟩ := m
    obtain ⟨hk, hn⟩ := List.nodup_cons.mp hn
    rcases List.mem_cons.mp h with h | h
    · cases h; simp
    · have hne : k ≠ key := fun e => hk (e ▸ mem_keys_of_mem h)
      rw [get?_cons, if_neg hne]
      exact ih hn h

theorem get?_append (ms ns : Members) (key : String) :
    get? (ms ++ ns) key = (ms.get? key).or (ns.get? key) := by
  induction ms with
  | nil => simp
  | cons m ms ih =>
    obtain ⟨k, v⟩ := m
    by_cases hk : k = key
    · simp [hk]
    · simp [hk, ih]

theorem get?_append_cons_of_ne {key other : String} (h : key ≠ other) {before after : Members}
    {v : Value} : get? (before ++ (key, v) :: after) other = get? (before ++ after) other := by
  rw [get?_append, get?_append, get?_cons, if_neg h]

theorem get?_replace_of_ne {key other : String} (h : key ≠ other) {before after : Members}
    {v w : Value} :
    get? (before ++ (key, w) :: after) other = get? (before ++ (key, v) :: after) other := by
  rw [get?_append_cons_of_ne h, get?_append_cons_of_ne h]

theorem get?_filter_key (p : String → Prop) [DecidablePred p] (ms : Members) (key : String) :
    get? (ms.filter fun m => p m.1) key = if p key then ms.get? key else none := by
  induction ms with
  | nil => simp
  | cons m ms ih =>
    obtain ⟨k, v⟩ := m
    by_cases hk : k = key
    · subst hk
      by_cases hp : p k <;> simp [hp, ih]
    · by_cases hp : p k <;> simp [hp, hk, ih]

/-! ## Stores -/

theorem get?_map_values (f : Value → Value) (ms : Members) (key : String) :
    get? (ms.map fun m => (m.1, f m.2)) key = (ms.get? key).map f := by
  induction ms with
  | nil => rfl
  | cons m ms ih =>
    rw [List.map_cons, get?_cons, get?_cons, ih]
    split_ifs <;> rfl

theorem mem_keys_put {ms : Members} {key k : String} {v : Value} :
    k ∈ (ms.put key v).keys ↔ k = key ∨ k ∈ ms.keys := by
  induction ms with
  | nil => simp [put]
  | cons m ms ih =>
    obtain ⟨l, w⟩ := m
    unfold put
    split_ifs with h₁ h₂
    · subst h₁; simp
    · simp
    · rw [keys, List.map_cons, List.mem_cons, ih]; simp [or_left_comm]

theorem mem_of_mem_put {ms : Members} {key : String} {v : Value} {m : String × Value}
    (h : m ∈ ms.put key v) : m = (key, v) ∨ m ∈ ms := by
  induction ms with
  | nil => exact .inl (List.mem_singleton.mp h)
  | cons n ms ih =>
    obtain ⟨l, w⟩ := n
    unfold put at h
    split_ifs at h
    · exact (List.mem_cons.mp h).imp_right (List.mem_cons_of_mem _)
    · exact List.mem_cons.mp h
    · rcases List.mem_cons.mp h with h | h
      · exact .inr (h ▸ List.mem_cons_self)
      · exact (ih h).imp_right (List.mem_cons_of_mem _)

/-- The second of two stores under one key counts. -/
theorem put_put (ms : Members) (key : String) (v w : Value) :
    (ms.put key v).put key w = ms.put key w := by
  induction ms with
  | nil => simp [put]
  | cons m ms ih =>
    obtain ⟨k, u⟩ := m
    by_cases hk : k = key
    · simp [put, hk]
    · by_cases hlt : key < k <;> simp [put, hk, hlt, ih]

/-- Stores under two keys may change places. -/
theorem put_comm (ms : Members) {key other : String} (h : key < other) (v w : Value) :
    (ms.put key v).put other w = (ms.put other w).put key v := by
  have hne : key ≠ other := ne_of_lt h
  induction ms with
  | nil => simp [put, hne, h, Ne.symm hne, lt_asymm h]
  | cons m ms ih =>
    obtain ⟨k, u⟩ := m
    -- The first of the two keys is stored where the second is, or before.
    rcases lt_trichotomy k key with hk | rfl | hk
    · have hko : k < other := hk.trans h
      simp [put, ne_of_lt hk, lt_asymm hk, ne_of_lt hko, lt_asymm hko, ih]
    · simp [put, hne, lt_asymm h]
    · by_cases hko : k = other
      · simp [put, hko, hne, Ne.symm hne, h, lt_asymm h]
      · by_cases hlt : other < k <;>
          simp [put, hko, hlt, hne, Ne.symm hne, h, lt_asymm h, ne_of_gt hk, hk]

theorem put_comm_of_ne (ms : Members) {key other : String} (h : key ≠ other) (v w : Value) :
    (ms.put key v).put other w = (ms.put other w).put key v := by
  rcases lt_or_gt_of_ne h with hlt | hlt
  · exact put_comm ms hlt v w
  · exact (put_comm ms hlt w v).symm

theorem filter_put_of_lt (p : String → Prop) [DecidablePred p] {key : String} (hp : p key)
    (hlt : ∀ k, ¬p k → k < key) (ms : Members) (v : Value) :
    ((ms.put key v).filter fun m => p m.1) = Members.put (ms.filter fun m => p m.1) key v := by
  induction ms with
  | nil => simp [put, hp]
  | cons m ms ih =>
    obtain ⟨k, w⟩ := m
    by_cases hk : k = key
    · subst hk
      simp [put, hp]
    · by_cases hlt' : key < k
      · have hpk : p k := by
          by_contra hpk
          exact lt_asymm hlt' (hlt k hpk)
        simp [put, hk, hlt', hp, hpk]
      · by_cases hpk : p k <;> simp [put, hk, hlt', hpk, ih]

theorem filter_put_of_not (p : String → Prop) [DecidablePred p] {key : String} (hp : ¬ p key)
    (ms : Members) (v : Value) :
    ((ms.put key v).filter fun m => p m.1) = ms.filter fun m => p m.1 := by
  induction ms with
  | nil => simp [put, hp]
  | cons m ms ih =>
    obtain ⟨k, w⟩ := m
    unfold put
    split_ifs with hk
    · subst hk
      simp [hp]
    · simp [hp]
    · simp only [List.filter_cons, ih]

/-- A member that is stored among greater ones and ones that are dropped is the first that stays. -/
theorem filter_put_of_forall_lt (p : String → Prop) [DecidablePred p] {key : String} (hp : p key)
    {ms : Members} (hlt : ∀ m ∈ ms, p m.1 → key < m.1) (v : Value) :
    ((ms.put key v).filter fun m => p m.1) = (key, v) :: ms.filter fun m => p m.1 := by
  induction ms with
  | nil => simp [put, hp]
  | cons m ms ih =>
    obtain ⟨k, w⟩ := m
    obtain ⟨hfirst, hlt⟩ := List.forall_mem_cons.mp hlt
    unfold put
    split_ifs with hk hbefore
    · exact absurd (hfirst (hk ▸ hp)) (hk ▸ lt_irrefl _)
    · simp [hp]
    · have hdropped : ¬p k := fun hpk => hbefore (hfirst hpk)
      simp [hdropped, ih hlt]

theorem ofList_append_singleton (ms : List (String × Value)) (m : String × Value) :
    ofList (ms ++ [m]) = (ofList ms).put m.1 m.2 :=
  List.foldl_append

/-- Of members of one key, the last one is found. -/
theorem get?_ofList_append (ms ns : List (String × Value)) (key : String) :
    (ofList (ms ++ ns)).get? key = ((ofList ns).get? key).or ((ofList ms).get? key) := by
  induction ns using List.reverseRec with
  | nil =>
    rw [List.append_nil]
    rfl
  | append_singleton ns n ih =>
    rw [← List.append_assoc, ofList_append_singleton, ofList_append_singleton]
    by_cases hkey : n.1 = key
    · subst hkey
      rw [get?_put_self, get?_put_self, Option.some_or]
    · rw [get?_put_of_ne _ _ hkey, get?_put_of_ne _ _ hkey, ih]

theorem mem_of_mem_ofList {ms : List (String × Value)} {m : String × Value}
    (h : m ∈ ofList ms) : m ∈ ms := by
  have key : ∀ (ns : List (String × Value)) (acc : Members),
      m ∈ ns.foldl (fun ms n => ms.put n.1 n.2) acc → m ∈ acc ∨ m ∈ ns := by
    intro ns
    induction ns with
    | nil => exact fun acc h => .inl h
    | cons n ns ih =>
      intro acc h
      rcases ih _ h with h | h
      · refine (mem_of_mem_put h).symm.imp_right fun e => ?_
        rw [e]
        exact List.mem_cons_self
      · exact .inr (List.mem_cons_of_mem _ h)
  exact (key ms [] h).resolve_left List.not_mem_nil

theorem get?_ofList_of_not_mem {ms : List (String × Value)} {key : String}
    (h : key ∉ keys ms) : (ofList ms).get? key = none := by
  refine get?_eq_none_iff.mpr fun hmem => h ?_
  obtain ⟨m, hm, rfl⟩ := List.mem_map.mp hmem
  exact List.mem_map_of_mem (mem_of_mem_ofList hm)

/-- Without repeated keys all members are found. -/
theorem get?_ofList_of_mem {ms : List (String × Value)} {key : String} {v : Value}
    (hn : (keys ms).Nodup) (h : (key, v) ∈ ms) : (ofList ms).get? key = some v := by
  induction ms with
  | nil => exact absurd h List.not_mem_nil
  | cons m ms ih =>
    obtain ⟨hm, hn⟩ := List.nodup_cons.mp hn
    have happend := get?_ofList_append [m] ms key
    rw [List.singleton_append] at happend
    rcases List.mem_cons.mp h with rfl | h
    · rw [happend, get?_ofList_of_not_mem hm, Option.none_or]
      exact get?_put_self [] key v
    · rw [happend, ih hn h, Option.some_or]

theorem get?_ofList_append_of_not_mem {ns : List (String × Value)} {key : String}
    (h : key ∉ keys ns) (ms : List (String × Value)) :
    (ofList (ms ++ ns)).get? key = (ofList ms).get? key := by
  rw [get?_ofList_append, get?_ofList_of_not_mem h, Option.none_or]

theorem nodup_keys_put {ms : Members} (h : ms.keys.Nodup) {key : String} (hkey : key ∉ ms.keys)
    (v : Value) : (ms.put key v).keys.Nodup := by
  induction ms with
  | nil => simp [put]
  | cons m ms ih =>
    obtain ⟨l, w⟩ := m
    obtain ⟨hl, hms⟩ := List.nodup_cons.mp h
    unfold put
    split_ifs with h₁ h₂
    · exact absurd h₁.symm (fun e => hkey (e ▸ List.mem_cons_self))
    · exact List.nodup_cons.mpr ⟨hkey, h⟩
    · have hrest := ih hms fun hmem => hkey (List.mem_cons_of_mem _ hmem)
      exact List.nodup_cons.mpr ⟨fun hmem => (mem_keys_put.mp hmem).elim h₁ hl, hrest⟩

/-! ## Sorted members -/

theorem Sorted.nodup_keys {ms : Members} (h : ms.Sorted) : ms.keys.Nodup :=
  List.pairwise_map.mpr (h.imp fun hlt => ne_of_lt hlt)

theorem Sorted.nodup {ms : Members} (h : ms.Sorted) : ms.Nodup :=
  h.imp fun hlt heq => ne_of_lt hlt (congrArg Prod.fst heq)

/-- A store keeps members sorted. -/
theorem Sorted.put {ms : Members} (h : ms.Sorted) (key : String) (v : Value) :
    Sorted (ms.put key v) := by
  induction ms with
  | nil => exact List.pairwise_singleton _ _
  | cons m ms ih =>
    obtain ⟨l, w⟩ := m
    obtain ⟨hl, hms⟩ := List.pairwise_cons.mp h
    unfold Members.put
    split_ifs with h₁ h₂
    · subst h₁; exact List.pairwise_cons.mpr ⟨hl, hms⟩
    · refine List.pairwise_cons.mpr ⟨fun b hb => ?_, h⟩
      rcases List.mem_cons.mp hb with rfl | hb
      · exact h₂
      · exact h₂.trans (hl b hb)
    · have hlt : l < key := lt_of_le_of_ne (not_lt.mp h₂) h₁
      refine List.pairwise_cons.mpr ⟨fun b hb => ?_, ih hms⟩
      rcases mem_keys_put.mp (List.mem_map_of_mem hb) with hb | hb
      · exact hb ▸ hlt
      · obtain ⟨c, hc, hcb⟩ := List.mem_map.mp hb
        exact hcb ▸ hl c hc

/-- Sorted members are fixed by their look-ups. -/
theorem Sorted.ext {ms ns : Members} (hm : ms.Sorted) (hn : ns.Sorted)
    (h : ∀ key, ms.get? key = ns.get? key) : ms = ns := by
  have hmem : ∀ m, m ∈ ms ↔ m ∈ ns := by
    rintro ⟨key, v⟩
    rw [← get?_eq_some_iff hm.nodup_keys, ← get?_eq_some_iff hn.nodup_keys, h]
  have hperm : ms.Perm ns := (List.perm_ext_iff_of_nodup hm.nodup hn.nodup).mpr hmem
  exact hperm.eq_of_pairwise (fun a b _ _ hab hba => absurd hba (lt_asymm hab)) hm hn

/-- A store of what is there changes nothing. -/
theorem Sorted.put_eq_self {ms : Members} (h : ms.Sorted) {key : String} {v : Value}
    (hv : ms.get? key = some v) : ms.put key v = ms := by
  refine (h.put key v).ext h fun other => ?_
  by_cases ho : key = other
  · rw [← ho, get?_put_self, hv]
  · exact get?_put_of_ne ms v ho

theorem sorted_ofList (ms : List (String × Value)) : Sorted (ofList ms) := by
  unfold ofList
  generalize hacc : ([] : Members) = acc
  have h : Sorted acc := hacc ▸ List.Pairwise.nil
  clear hacc
  induction ms generalizing acc with
  | nil => exact h
  | cons m ms ih => exact ih _ (h.put m.1 m.2)

/-- A member whose key is past all others is stored at the end. -/
theorem put_of_forall_lt {ms : Members} {key : String} (h : ∀ m ∈ ms, m.1 < key) (v : Value) :
    ms.put key v = ms ++ [(key, v)] := by
  induction ms with
  | nil => rfl
  | cons m ms ih =>
    obtain ⟨l, w⟩ := m
    have hl : l < key := h _ List.mem_cons_self
    rw [Members.put, if_neg (ne_of_lt hl), if_neg (lt_asymm hl),
      ih fun m hm => h m (List.mem_cons_of_mem _ hm)]
    rfl

/-- A member whose key is before all others is stored at the front. -/
theorem put_of_forall_gt {ms : Members} {key : String} (h : ∀ m ∈ ms, key < m.1) (v : Value) :
    ms.put key v = (key, v) :: ms := by
  cases ms with
  | nil => rfl
  | cons m ms =>
    have hm : key < m.1 := h m List.mem_cons_self
    rw [Members.put, if_neg (ne_of_gt hm), if_pos hm]

/-- Sorted members are listed as they are. -/
theorem Sorted.ofList_eq {ms : Members} (h : ms.Sorted) : ofList ms = ms := by
  have key : ∀ ns acc : Members, Sorted (acc ++ ns) →
      ns.foldl (fun ms m => ms.put m.1 m.2) acc = acc ++ ns := by
    intro ns
    induction ns with
    | nil => intro acc _; simp
    | cons n ns ih =>
      intro acc hacc
      have hlt : ∀ m ∈ acc, m.1 < n.1 := fun m hm =>
        (List.pairwise_append.mp hacc).2.2 m hm n List.mem_cons_self
      rw [List.foldl_cons, put_of_forall_lt hlt, ih _ (by simpa using hacc)]
      simp
  exact key ms [] h

end Members

/-! ## Sorting at every depth -/

namespace Value

theorem get?_sortedMembers (ms : Members) (key : String) :
    (sortedMembers ms).get? key = (ms.get? key).map sorted := by
  induction ms with
  | nil => simp [sortedMembers]
  | cons m ms ih =>
    obtain ⟨k, v⟩ := m
    rw [sortedMembers, Members.get?_cons]
    by_cases hk : k = key
    · rw [hk, Members.get?_put_self, if_pos rfl]; rfl
    · rw [Members.get?_put_of_ne _ _ hk, if_neg hk, ih]

theorem sorted_sortedMembers (ms : Members) : Members.Sorted (sortedMembers ms) := by
  induction ms with
  | nil => exact List.Pairwise.nil
  | cons m ms ih => exact ih.put m.1 (sorted m.2)

theorem sortedItems_eq_map (xs : List Value) : sortedItems xs = xs.map sorted := by
  induction xs with
  | nil => rfl
  | cons x xs ih => rw [sortedItems, ih, List.map_cons]

/-- Members that stand in order stay where they are. -/
theorem sortedMembers_of_sorted {ms : Members} (h : ms.Sorted) :
    sortedMembers ms = ms.map fun m => (m.1, sorted m.2) := by
  induction ms with
  | nil => rfl
  | cons m ms ih =>
    obtain ⟨hm, hms⟩ := List.pairwise_cons.mp h
    rw [sortedMembers, ih hms, List.map_cons]
    refine Members.put_of_forall_gt (fun n hn => ?_) _
    obtain ⟨l, hl, rfl⟩ := List.mem_map.mp hn
    exact hm l hl

end Value

end LogForwarder
