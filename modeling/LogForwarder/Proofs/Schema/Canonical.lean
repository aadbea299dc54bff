import LogForwarder.Schema.OfValue
import LogForwarder.Proofs.Except
import LogForwarder.Proofs.Value.Members
import Mathlib.Data.List.Nodup

/-!
# Canonical values

`Schema.ofValue` reads values into canonical form, which `Schema.isCanonical` describes on its own:
the members of a record stand in the order of the schema, and only omittable ones are left out.

1. Canonical members are a piece for each member of the schema (`areCanonical_cons_iff`).
2. What is read is canonical, when the schema is well formed (`isCanonical_of_ofValue`): the names
   of a record are distinct, and its defaults are canonical themselves.
-/

namespace LogForwarder

namespace Schema

/-! ## The canonical form -/

mutual

/-- Whether a value is in the canonical form of a schema. -/
def isCanonical : Schema → Value → Bool
  | .text, v | .quantity, v =>
    match v with
    | .str _ => true
    | _ => false
  | .flag, v =>
    match v with
    | .bool _ => true
    | _ => false
  | .integer kind, v =>
    match v with
    | .int n => kind.holds n
    | _ => false
  | .choice variants, v =>
    match v with
    | .str s => decide (s ∈ variants)
    | _ => false
  | .list item, v =>
    match v with
    | .list xs => xs.all fun x => item.isCanonical x
    | _ => false
  | .dict value, v =>
    match v with
    | .map ms => decide (Members.Sorted ms) && ms.all fun m => value.isCanonical m.2
    | _ => false
  | .constant only, v =>
    match v with
    | .str s => decide (s = only)
    | _ => false
  | .record _ members, v =>
    match v with
    | .map ms => areCanonical members ms
    | _ => false

/-- Whether members are in the canonical form of a record. -/
def areCanonical : List (MemberInfo × Schema) → Members → Bool
  | [], ms => ms.isEmpty
  | (info, _) :: members, [] => decide (info.presence = .omittable) && areCanonical members []
  | (info, schema) :: members, (key, v) :: ms =>
    if info.name = key then
      (schema.isCanonical v || decide (v = .null ∧ info.presence = .nullable)) &&
        areCanonical members ms
    else decide (info.presence = .omittable) && areCanonical members ((key, v) :: ms)

end

/-- The names of the members of a record. -/
abbrev names (members : List (MemberInfo × Schema)) : List String := members.map (·.1.name)

theorem nodup_names_cons {m : MemberInfo × Schema} {members : List (MemberInfo × Schema)} :
    (names (m :: members)).Nodup ↔ m.1.name ∉ names members ∧ (names members).Nodup :=
  List.nodup_cons

/-- Whether the default of a member, if it has one, is in canonical form. -/
def defaultIsCanonical (schema : Schema) : Presence → Bool
  | .whenAbsent default | .whenAbsentOrNull default => schema.isCanonical default
  | .required | .omittable | .nullable => true

mutual

/-- Whether the names of every record in a schema are distinct and its defaults canonical. -/
def isWellFormed : Schema → Bool
  | .text | .flag | .integer _ | .choice _ | .quantity | .constant _ => true
  | .list item | .dict item => item.isWellFormed
  | .record _ members => decide (names members).Nodup && areWellFormed members

/-- Whether the members of a record have canonical defaults and well-formed schemas. -/
def areWellFormed : List (MemberInfo × Schema) → Bool
  | [] => true
  | (info, schema) :: members =>
    defaultIsCanonical schema info.presence && schema.isWellFormed && areWellFormed members

end

/-! ## One member of a record -/

/-- What stands for a member in canonical form: the member, or nothing if it may be left out. -/
inductive IsPiece : MemberInfo × Schema → Members → Prop
  | given {info schema v} : schema.isCanonical v → IsPiece (info, schema) [(info.name, v)]
  | null {info schema} : info.presence = .nullable → IsPiece (info, schema) [(info.name, .null)]
  | leftOut {info schema} : info.presence = .omittable → IsPiece (info, schema) []

theorem IsPiece.keys_subset {m : MemberInfo × Schema} {piece : Members} (h : IsPiece m piece) :
    piece.keys ⊆ [m.1.name] := by
  cases h <;> simp

theorem keys_subset_of_areCanonical : ∀ {members : List (MemberInfo × Schema)} {ms : Members},
    areCanonical members ms → ms.keys ⊆ names members
  | [], ms, h => by
    have : ms = [] := List.isEmpty_iff.mp h
    simp [this]
  | (info, _) :: members, [], h => by simp
  | (info, schema) :: members, (key, v) :: ms, h => by
    unfold areCanonical at h
    split_ifs at h with hk
    · have hms := keys_subset_of_areCanonical (Bool.and_eq_true_iff.mp h).2
      exact List.cons_subset.mpr
        ⟨hk ▸ List.mem_cons_self, fun k hk => List.mem_cons_of_mem _ (hms hk)⟩
    · have hms := keys_subset_of_areCanonical (Bool.and_eq_true_iff.mp h).2
      exact fun k hk => List.mem_cons_of_mem _ (hms hk)

/-- Canonical members are a piece for the first member of the schema before pieces for the
others. -/
theorem areCanonical_cons_iff {m : MemberInfo × Schema} {members : List (MemberInfo × Schema)}
    {ms : Members} (hm : m.1.name ∉ names members) :
    areCanonical (m :: members) ms ↔
      ∃ piece rest, ms = piece ++ rest ∧ IsPiece m piece ∧ areCanonical members rest := by
  obtain ⟨info, schema⟩ := m
  constructor
  · intro h
    cases ms with
    | nil =>
      obtain ⟨hp, hms⟩ := Bool.and_eq_true_iff.mp h
      exact ⟨[], [], rfl, .leftOut (of_decide_eq_true hp), hms⟩
    | cons n ms =>
      obtain ⟨key, v⟩ := n
      unfold areCanonical at h
      split_ifs at h with hk
      · obtain ⟨hv, hms⟩ := Bool.and_eq_true_iff.mp h
        subst hk
        rcases Bool.or_eq_true_iff.mp hv with hv | hv
        · exact ⟨[(_, v)], ms, rfl, .given hv, hms⟩
        · obtain ⟨rfl, hp⟩ := of_decide_eq_true hv
          exact ⟨[(_, .null)], ms, rfl, .null hp, hms⟩
      · obtain ⟨hp, hms⟩ := Bool.and_eq_true_iff.mp h
        exact ⟨[], (key, v) :: ms, rfl, .leftOut (of_decide_eq_true hp), hms⟩
  · rintro ⟨piece, rest, rfl, hpiece, hrest⟩
    cases hpiece with
    | given hv => simp [areCanonical, hv, hrest]
    | null hp => simp [areCanonical, hp, hrest]
    | leftOut hp =>
      cases rest with
      | nil => simp [areCanonical, hp, hrest]
      | cons n rest =>
        have hne : info.name ≠ n.1 := fun e =>
          hm (e ▸ keys_subset_of_areCanonical hrest List.mem_cons_self)
        simp [areCanonical, hp, hne, hrest]

theorem isCanonical_record {info : RecordInfo} {members : List (MemberInfo × Schema)} {v : Value} :
    (Schema.record info members).isCanonical v ↔ ∃ ms, v = .map ms ∧ areCanonical members ms := by
  cases v with
  | map ms => exact ⟨fun h => ⟨ms, rfl, h⟩, fun ⟨_, hms, h⟩ => by cases hms; exact h⟩
  | _ => exact ⟨(nomatch ·), fun ⟨_, hms, _⟩ => nomatch hms⟩

/-! ## What is read is canonical -/

theorem isWellFormed_record {info : RecordInfo} {members : List (MemberInfo × Schema)} :
    (Schema.record info members).isWellFormed ↔
      (names members).Nodup ∧ areWellFormed members := by
  unfold isWellFormed
  rw [Bool.and_eq_true_iff, decide_eq_true_iff]

theorem areWellFormed_iff {members : List (MemberInfo × Schema)} :
    areWellFormed members ↔
      ∀ m ∈ members, defaultIsCanonical m.2 m.1.presence ∧ m.2.isWellFormed := by
  induction members with
  | nil => simp [areWellFormed]
  | cons m members ih =>
    rw [areWellFormed, Bool.and_eq_true_iff, Bool.and_eq_true_iff, ih, List.forall_mem_cons]

/-- Whether a member may have been given so: a value in canonical form, or a `null` that stands
for nothing. -/
def Gives (m : MemberInfo × Schema) : Option Value → Prop
  | some v => m.2.isCanonical v
  | none => m.1.presence.acceptsNull

/-- What a member settles to is its piece of the canonical form. -/
theorem isPiece_of_settle {m : MemberInfo × Schema} {given : GivenMembers} {piece : Members}
    (hd : defaultIsCanonical m.2 m.1.presence)
    (hg : ∀ r, given.lookup m.1.name = some r → Gives m r)
    (h : m.1.settle given = .ok piece) : IsPiece m piece := by
  obtain ⟨⟨name, presence, annotations⟩, schema⟩ := m
  unfold MemberInfo.settle at h
  rcases hl : given.lookup name with _ | _ | v
  · simp only [hl] at h
    cases presence with
    | required => cases h
    | whenAbsent default => cases h; exact .given hd
    | whenAbsentOrNull default => cases h; exact .given hd
    | omittable => cases h; exact .leftOut rfl
    | nullable => cases h; exact .null rfl
  · have hnull : presence.acceptsNull := hg none hl
    simp only [hl] at h
    cases presence with
    | required => cases hnull
    | whenAbsent default => cases hnull
    | whenAbsentOrNull default => cases h; exact .given hd
    | omittable => cases h; exact .leftOut rfl
    | nullable => cases h; exact .null rfl
  · simp only [hl] at h
    cases h
    exact .given (hg _ hl)

theorem areCanonical_of_settleMembers {given : GivenMembers} :
    ∀ {members : List (MemberInfo × Schema)} {ms : Members}, (names members).Nodup →
      areWellFormed members → (∀ m ∈ members, ∀ r, given.lookup m.1.name = some r → Gives m r) →
      settleMembers (members.map (·.1)) given = .ok ms → areCanonical members ms
  | [], ms, _, _, _, h => by cases h; rfl
  | m :: members, ms, hn, hw, hg, h => by
    obtain ⟨hm, hn⟩ := nodup_names_cons.mp hn
    obtain ⟨hwm, hw⟩ := List.forall_mem_cons.mp (areWellFormed_iff.mp hw)
    obtain ⟨hgm, hg⟩ := List.forall_mem_cons.mp hg
    obtain ⟨piece, hpiece, h⟩ := bind_eq_ok.mp h
    obtain ⟨rest, hrest, h⟩ := bind_eq_ok.mp h
    cases h
    exact (areCanonical_cons_iff hm).mpr ⟨piece, rest, rfl, isPiece_of_settle hwm.1 hgm hpiece,
      areCanonical_of_settleMembers hn (areWellFormed_iff.mpr hw) hg hrest⟩

theorem mem_of_lookup_eq_some {α : Type} {l : List (String × α)} {key : String} {a : α}
    (h : l.lookup key = some a) : (key, a) ∈ l := by
  obtain ⟨l₁, l₂, rfl, _⟩ := List.lookup_eq_some_iff.mp h
  simp

/-- With distinct names, what is known of some member of a name is known of the one looked up. -/
theorem gives_of_lookup {members : List (MemberInfo × Schema)} {given : GivenMembers}
    (hn : (names members).Nodup)
    (hg : ∀ g ∈ given, ∃ m ∈ members, m.1.name = g.1 ∧ Gives m g.2) :
    ∀ m ∈ members, ∀ r, given.lookup m.1.name = some r → Gives m r := by
  intro m hm r hr
  obtain ⟨m', hm', hname, hgives⟩ := hg (m.1.name, r) (mem_of_lookup_eq_some hr)
  rwa [List.inj_on_of_nodup_map hn hm' hm hname] at hgives

mutual

/-- **Reading normalizes.** What is read by a well-formed schema is in canonical form. -/
theorem isCanonical_of_ofValue : ∀ {s : Schema} {v w : Value}, s.isWellFormed →
    s.ofValue v = .ok w → s.isCanonical w
  | .text, v, w, _, h => by
    cases v <;> cases h
    rfl
  | .quantity, v, w, _, h => by
    cases v <;> cases h <;> rfl
  | .flag, v, w, _, h => by
    cases v <;> cases h
    rfl
  | .integer kind, v, w, _, h => by
    cases v with
    | int n =>
      rw [ofValue] at h
      split_ifs at h with hn
      cases h
      exact hn
    | _ => cases h
  | .constant only, v, w, _, h => by
    cases v with
    | str s =>
      rw [ofValue] at h
      split_ifs at h with hs
      cases h
      exact decide_eq_true hs
    | _ => cases h
  | .choice variants, v, w, _, h => by
    unfold ofValue at h
    split at h
    · split_ifs at h with hs
      cases h
      exact decide_eq_true hs
    · split_ifs at h with hs
      split at h
      · cases h
        exact decide_eq_true hs
      · cases h
    · cases h
    · cases h
  | .list item, v, w, hs, h => by
    cases v with
    | list xs =>
      obtain ⟨ys, hys, h⟩ := bind_eq_ok.mp h
      cases h
      refine List.all_eq_true.mpr fun y hy => ?_
      obtain ⟨x, _, hx⟩ := exists_of_mem_mapM hys hy
      exact isCanonical_of_ofValue (s := item) hs hx
    | _ => cases h
  | .dict value, v, w, hs, h => by
    cases v with
    | map ms =>
      obtain ⟨ns, hns, h⟩ := bind_eq_ok.mp h
      cases h
      refine Bool.and_eq_true_iff.mpr ⟨decide_eq_true (Members.sorted_ofList ns), ?_⟩
      refine List.all_eq_true.mpr fun n hn => ?_
      obtain ⟨m, _, hm⟩ := exists_of_mem_mapM hns (Members.mem_of_mem_ofList hn)
      obtain ⟨x, hx, hm⟩ := bind_eq_ok.mp hm
      cases hm
      exact isCanonical_of_ofValue (s := value) hs hx
    | _ => cases h
  | .record info members, v, w, hs, h => by
    obtain ⟨hn, hw⟩ := isWellFormed_record.mp hs
    cases v with
    | map ms =>
      obtain ⟨given, hgiven, h⟩ := bind_eq_ok.mp h
      obtain ⟨out, hout, h⟩ := bind_eq_ok.mp h
      cases h
      refine areCanonical_of_settleMembers hn hw (gives_of_lookup hn fun g hg => ?_) hout
      obtain ⟨n, hn, hread⟩ := exists_of_mem_filterMapM hgiven hg
      exact gives_of_memberOfValue hw hread
    | list xs =>
      rw [ofValue] at h
      split_ifs at h
      · obtain ⟨given, hgiven, h⟩ := bind_eq_ok.mp h
        cases h
      · obtain ⟨given, hgiven, h⟩ := bind_eq_ok.mp h
        obtain ⟨out, hout, h⟩ := bind_eq_ok.mp h
        cases h
        exact areCanonical_of_settleMembers hn hw
          (gives_of_lookup hn (gives_of_membersOfItems hw hgiven)) hout
    | _ => cases h

/-- A member that is read is one of the record, given as it may be. -/
theorem gives_of_memberOfValue : ∀ {members : List (MemberInfo × Schema)} {key : String}
    {v : Value} {g : String × Option Value}, areWellFormed members →
      memberOfValue members key v = .ok (some g) → ∃ m ∈ members, m.1.name = g.1 ∧ Gives m g.2
  | [], _, _, _, _, h => by cases h
  | (info, schema) :: members, key, v, g, hw, h => by
    obtain ⟨⟨_, hs⟩, hw⟩ := List.forall_mem_cons.mp (areWellFormed_iff.mp hw)
    unfold memberOfValue at h
    split_ifs at h with hname hnull
    · cases h
      exact ⟨_, List.mem_cons_self, hname, hnull.2⟩
    · obtain ⟨w, hread, h⟩ := bind_eq_ok.mp h
      cases h
      exact ⟨_, List.mem_cons_self, hname, isCanonical_of_ofValue hs hread⟩
    · obtain ⟨m, hm, hg⟩ := gives_of_memberOfValue (areWellFormed_iff.mpr hw) h
      exact ⟨m, List.mem_cons_of_mem _ hm, hg⟩

theorem gives_of_membersOfItems {title : String} {size : Nat} :
    ∀ {members : List (MemberInfo × Schema)} {index : Nat} {xs : List Value}
      {given : GivenMembers}, areWellFormed members →
        membersOfItems title size index members xs = .ok given →
          ∀ g ∈ given, ∃ m ∈ members, m.1.name = g.1 ∧ Gives m g.2
  | [], _, _, _, _, h, g, hg => by
    rw [membersOfItems] at h
    cases h
    cases hg
  | (info, schema) :: members, index, [], given, hw, h, g, hg => by
    obtain ⟨_, hw⟩ := List.forall_mem_cons.mp (areWellFormed_iff.mp hw)
    rw [membersOfItems] at h
    split_ifs at h
    obtain ⟨m, hm, hgives⟩ := gives_of_membersOfItems (areWellFormed_iff.mpr hw) h g hg
    exact ⟨m, List.mem_cons_of_mem _ hm, hgives⟩
  | (info, schema) :: members, index, x :: xs, given, hw, h, g, hg => by
    obtain ⟨⟨_, hs⟩, hw⟩ := List.forall_mem_cons.mp (areWellFormed_iff.mp hw)
    have hfirst : ∀ {r : Option Value} {rest : GivenMembers}, Gives (info, schema) r →
        membersOfItems title size (index + 1) members xs = .ok rest →
          (info.name, r) :: rest = given →
            ∃ m ∈ (info, schema) :: members, m.1.name = g.1 ∧ Gives m g.2 := by
      rintro r rest hr hrest rfl
      rcases List.mem_cons.mp hg with rfl | hg
      · exact ⟨_, List.mem_cons_self, rfl, hr⟩
      · obtain ⟨m, hm, hgives⟩ := gives_of_membersOfItems (areWellFormed_iff.mpr hw) hrest g hg
        exact ⟨m, List.mem_cons_of_mem _ hm, hgives⟩
    rw [membersOfItems] at h
    split_ifs at h with hnull
    · obtain ⟨r, hr, h⟩ := bind_eq_ok.mp h
      obtain ⟨rest, hrest, h⟩ := bind_eq_ok.mp h
      cases hr
      exact hfirst (show Gives _ none from hnull.2) hrest (pure_eq_ok.mp h)
    · obtain ⟨w, hread, h⟩ := bind_eq_ok.mp h
      obtain ⟨r, hr, h⟩ := bind_eq_ok.mp h
      obtain ⟨rest, hrest, h⟩ := bind_eq_ok.mp h
      cases hr
      exact hfirst (show Gives _ (some w) from isCanonical_of_ofValue hs hread) hrest
        (pure_eq_ok.mp h)

end

end Schema

end LogForwarder
