import LogForwarder.Proofs.Value.Members

/-!
# Paths of keys

Stores along paths, and changes of what stands at a path.

1. What was stored is found again (`get?_set?`), the second of two stores counts (`set?_set?`), and
   what is found elsewhere was there before or is a map (`get?_set?_cases`).
2. A store succeeds exactly where everything on the way is a map or missing (`exists_set?_iff`).
   It leaves what stands neither above nor below its place (`get?_set?_of_apart`), so that two
   stores of which neither is above the other can change places (`set?_comm`).
3. `Value.change` changes what stands at a path, and nothing where there is nothing. It leaves a
   sorted value as it is if what stands there does not change (`change_eq_self`).
-/

namespace LogForwarder.Value

variable {v w x new : Value} {path : List String}

/-! ## Stores -/

/-- A store goes through the members of a map. -/
theorem set?_cons_eq_some {key : String} (h : v.set? (key :: path) new = some w) :
    ∃ ms u, v = .map ms ∧ ((Members.get? ms key).getD (.map [])).set? path new = some u ∧
      w = .map (Members.put ms key u) := by
  cases v with
  | map ms =>
    obtain ⟨u, hu, rfl⟩ := Option.map_eq_some_iff.mp h
    exact ⟨ms, u, rfl, hu, rfl⟩
  | _ => cases h

theorem set?_map_cons (ms : Members) (key : String) (path : List String) (new : Value) :
    (Value.map ms).set? (key :: path) new =
      (((Members.get? ms key).getD (.map [])).set? path new).map fun u =>
        .map (Members.put ms key u) := rfl

theorem get?_cons_eq_some {key : String} (h : v.get? (key :: path) = some x) :
    ∃ ms u, v = .map ms ∧ Members.get? ms key = some u ∧ u.get? path = some x := by
  cases v with
  | map ms =>
    obtain ⟨u, hu, hx⟩ := Option.bind_eq_some_iff.mp h
    exact ⟨ms, u, rfl, hu, hx⟩
  | _ => cases h

theorem get?_singleton (ms : Members) (key : String) :
    (Value.map ms).get? [key] = Members.get? ms key := by
  rw [get?_map_cons]
  cases Members.get? ms key <;> simp

/-- What was stored is found. -/
theorem get?_set? (h : v.set? path new = some w) : w.get? path = some new := by
  induction path generalizing v w with
  | nil =>
    rw [set?_nil] at h
    rw [get?_nil, h]
  | cons key path ih =>
    obtain ⟨ms, u, rfl, hu, rfl⟩ := set?_cons_eq_some h
    rw [get?_map_cons, Members.get?_put_self]
    exact ih hu

/-- A store under a key leaves what stands under others. -/
theorem get?_set?_of_ne {key other : String} {rest : List String} (hne : key ≠ other)
    (h : v.set? (key :: path) new = some w) : w.get? (other :: rest) = v.get? (other :: rest) := by
  obtain ⟨ms, u, rfl, -, rfl⟩ := set?_cons_eq_some h
  rw [get?_map_cons, get?_map_cons, Members.get?_put_of_ne _ _ hne]

/-- The second of two stores at one path counts. -/
theorem set?_set? {new' : Value} (h : v.set? path new = some w) :
    w.set? path new' = v.set? path new' := by
  induction path generalizing v w with
  | nil => rw [set?_nil, set?_nil]
  | cons key path ih =>
    obtain ⟨ms, u, rfl, hu, rfl⟩ := set?_cons_eq_some h
    have hput : ∀ t, Members.put (Members.put ms key u) key t = Members.put ms key t :=
      Members.put_put ms key u
    show (((Members.get? (Members.put ms key u) key).getD (.map [])).set? path new').map _ = _
    simp only [Members.get?_put_self, Option.getD_some, ih hu, hput]
    rfl

/-- What is found after a store is a map, or was there before, or is part of what was stored. -/
theorem get?_set?_cases {q : List String} (h : v.set? path new = some w) (hx : w.get? q = some x) :
    (∃ ms, x = .map ms) ∨ v.get? q = some x ∨
      ∃ rest, q = path ++ rest ∧ new.get? rest = some x := by
  induction path generalizing v w q with
  | nil =>
    rw [set?_nil] at h
    cases h
    exact .inr (.inr ⟨q, rfl, hx⟩)
  | cons key path ih =>
    obtain ⟨ms, u, rfl, hu, rfl⟩ := set?_cons_eq_some h
    cases q with
    | nil =>
      rw [get?_nil] at hx
      exact .inl ⟨_, (Option.some.inj hx).symm⟩
    | cons other q =>
      by_cases hne : key = other
      · subst hne
        rw [get?_map_cons, Members.get?_put_self, Option.bind_some] at hx
        rcases ih hu hx with hmap | hbefore | ⟨rest, rfl, hrest⟩
        · exact .inl hmap
        · cases hk : Members.get? ms key with
          | some y =>
            rw [hk, Option.getD_some] at hbefore
            refine .inr (.inl ?_)
            rw [get?_map_cons, hk]
            exact hbefore
          | none =>
            -- The map that was created is empty.
            rw [hk, Option.getD_none] at hbefore
            cases q with
            | nil =>
              rw [get?_nil] at hbefore
              exact .inl ⟨[], (Option.some.inj hbefore).symm⟩
            | cons _ _ => cases hbefore
        · exact .inr (.inr ⟨rest, rfl, hrest⟩)
      · rw [get?_set?_of_ne hne h] at hx
        exact .inr (.inl hx)

/-- Whether everything that stands at one of some paths is a map. -/
def HasMapsAt (v : Value) (paths : List (List String)) : Prop :=
  ∀ q ∈ paths, ∀ x, v.get? q = some x → ∃ ms, x = .map ms

/-- A store succeeds where everything on the way is a map or missing. -/
theorem exists_set? (new : Value)
    (h : ∀ q x, q <+: path → q ≠ path → v.get? q = some x → ∃ ms, x = .map ms) :
    ∃ w, v.set? path new = some w := by
  induction path generalizing v with
  | nil => exact ⟨new, set?_nil v new⟩
  | cons key path ih =>
    obtain ⟨ms, rfl⟩ := h [] v List.nil_prefix (by simp) (get?_nil v)
    have hchild : ∀ q x, q <+: path → q ≠ path →
        ((Members.get? ms key).getD (.map [])).get? q = some x → ∃ ms, x = .map ms := by
      intro q x hq hne hx
      cases hk : Members.get? ms key with
      | some y =>
        rw [hk, Option.getD_some] at hx
        refine h (key :: q) x (List.cons_prefix_cons.mpr ⟨rfl, hq⟩) (by simpa using hne) ?_
        rw [get?_map_cons, hk]
        exact hx
      | none =>
        rw [hk, Option.getD_none] at hx
        cases q with
        | nil =>
          rw [get?_nil] at hx
          exact ⟨[], (Option.some.inj hx).symm⟩
        | cons _ _ => cases hx
    obtain ⟨u, hu⟩ := ih hchild
    exact ⟨.map (Members.put ms key u), Option.map_eq_some_iff.mpr ⟨u, hu, rfl⟩⟩

/-- What is found can be replaced. -/
theorem exists_set?_of_get? (h : v.get? path = some x) (new : Value) :
    ∃ w, v.set? path new = some w := by
  induction path generalizing v with
  | nil => exact ⟨new, set?_nil v new⟩
  | cons key path ih =>
    obtain ⟨ms, u, rfl, hu, hx⟩ := get?_cons_eq_some h
    obtain ⟨t, ht⟩ := ih hx
    refine ⟨.map (Members.put ms key t), Option.map_eq_some_iff.mpr ⟨t, ?_, rfl⟩⟩
    rw [hu]
    exact ht

/-! ## Stores below a place -/

section

variable {p q : List String}

/-- A look-up goes on from what it has found. -/
theorem get?_append (v : Value) (p q : List String) :
    v.get? (p ++ q) = (v.get? p).bind fun x => x.get? q := by
  induction p generalizing v with
  | nil => rw [List.nil_append, get?_nil, Option.bind_some]
  | cons key p ih =>
    cases v with
    | map ms =>
      rw [List.cons_append, get?_map_cons, get?_map_cons, Option.bind_assoc]
      exact Option.bind_congr fun u _ => ih u
    | _ => rfl

/-- A store below what is found is a store in it. -/
theorem set?_append (h : v.get? p = some x) (q : List String) (new : Value) :
    v.set? (p ++ q) new = (x.set? q new).bind fun u => v.set? p u := by
  induction p generalizing v with
  | nil =>
    rw [get?_nil] at h
    cases h
    simp only [List.nil_append, set?_nil, Option.bind_fun_some]
  | cons key p ih =>
    obtain ⟨ms, u, rfl, hu, hx⟩ := get?_cons_eq_some h
    rw [List.cons_append]
    simp only [set?_map_cons, hu, Option.getD_some, ih hx, Option.map_bind]
    rfl

/-- A store makes a map where there is nothing, so one that was made before makes no
difference. -/
theorem set?_append_of_missing (h : v.get? p = none) (hw : v.set? p (.map []) = some w)
    (q : List String) (new : Value) : w.set? (p ++ q) new = v.set? (p ++ q) new := by
  induction p generalizing v w with
  | nil => cases h
  | cons key p ih =>
    obtain ⟨ms, u, rfl, hu, rfl⟩ := set?_cons_eq_some hw
    have hchild : u.set? (p ++ q) new =
        ((Members.get? ms key).getD (.map [])).set? (p ++ q) new := by
      cases hk : Members.get? ms key with
      | some y =>
        rw [get?_map_cons, hk] at h
        rw [hk] at hu
        exact ih h hu
      | none =>
        rw [hk, Option.getD_none] at hu
        cases p with
        | nil =>
          rw [set?_nil] at hu
          cases hu
          rfl
        | cons other p => exact ih rfl hu
    have hput : ∀ t, Members.put (Members.put ms key u) key t = Members.put ms key t :=
      Members.put_put ms key u
    rw [List.cons_append, set?_map_cons, set?_map_cons, Members.get?_put_self, Option.getD_some,
      hchild]
    simp only [hput]

/-- What lies above a place of a path lies on it. -/
theorem exists_cons_of_above (hq : q <+: path) (hne : q ≠ path) :
    ∃ key rest, path = q ++ key :: rest := by
  obtain ⟨rest, rfl⟩ := hq
  cases rest with
  | nil => exact absurd (List.append_nil q).symm hne
  | cons key rest => exact ⟨key, rest, rfl⟩

/-- A store succeeds exactly where everything on the way is a map or missing. -/
theorem exists_set?_iff :
    (∃ w, v.set? path new = some w) ↔
      ∀ q, q <+: path → q ≠ path → ∀ x, v.get? q = some x → ∃ ms, x = .map ms := by
  constructor
  · rintro ⟨w, hw⟩ q hq hne x hx
    obtain ⟨key, rest, rfl⟩ := exists_cons_of_above hq hne
    rw [set?_append hx] at hw
    obtain ⟨u, hu, -⟩ := Option.bind_eq_some_iff.mp hw
    obtain ⟨ms, -, rfl, -⟩ := set?_cons_eq_some hu
    exact ⟨ms, rfl⟩
  · intro h
    exact exists_set? new fun q x hq hne => h q hq hne x

/-- After a store there are maps on the way. -/
theorem get?_set?_above (h : v.set? path new = some w) (hq : q <+: path) (hne : q ≠ path) :
    ∃ ms, w.get? q = some (.map ms) := by
  obtain ⟨key, rest, rfl⟩ := exists_cons_of_above hq hne
  have hfound := get?_set? h
  rw [get?_append] at hfound
  obtain ⟨y, hy, hrest⟩ := Option.bind_eq_some_iff.mp hfound
  obtain ⟨ms, -, rfl, -⟩ := get?_cons_eq_some hrest
  exact ⟨ms, hy⟩

/-- A store leaves what stands neither above nor below its place. -/
theorem get?_set?_of_apart (h : v.set? p new = some w) (hqp : ¬q <+: p) (hpq : ¬p <+: q) :
    w.get? q = v.get? q := by
  induction p generalizing v w q with
  | nil => exact absurd List.nil_prefix hpq
  | cons key p ih =>
    cases q with
    | nil => exact absurd List.nil_prefix hqp
    | cons other q =>
      by_cases hne : key = other
      · subst hne
        rw [List.cons_prefix_cons, and_iff_right rfl] at hqp hpq
        obtain ⟨ms, u, rfl, hu, rfl⟩ := set?_cons_eq_some h
        rw [get?_map_cons, get?_map_cons, Members.get?_put_self, Option.bind_some, ih hu hqp hpq]
        cases hk : Members.get? ms key with
        | some y => rfl
        | none =>
          -- The other path goes on, and the map that was made is empty.
          cases q with
          | nil => exact absurd List.nil_prefix hqp
          | cons _ _ => rfl
      · exact get?_set?_of_ne hne h

/-- Stores of which neither is above the other may change places. -/
theorem set?_comm {a b : Value} (hpq : ¬p <+: q) (hqp : ¬q <+: p) :
    ((v.set? p a).bind fun w => w.set? q b) = (v.set? q b).bind fun w => w.set? p a := by
  induction p generalizing v q with
  | nil => exact absurd List.nil_prefix hpq
  | cons key p ih =>
    cases q with
    | nil => exact absurd List.nil_prefix hqp
    | cons other q =>
      cases v with
      | map ms =>
        simp only [set?_map_cons, Option.bind_map, Function.comp_def]
        by_cases hne : key = other
        · -- Both go through one member, in which they are no more related than they were.
          subst hne
          rw [List.cons_prefix_cons, and_iff_right rfl] at hqp hpq
          have hput : ∀ u t, Members.put (Members.put ms key u) key t = Members.put ms key t :=
            Members.put_put ms key
          have hchild := congrArg (Option.map fun u => map (Members.put ms key u))
            (ih (v := (Members.get? ms key).getD (.map [])) hpq hqp)
          simp only [Option.map_bind, Function.comp_def] at hchild
          simp only [Members.get?_put_self, Option.getD_some, hput, hchild]
        · simp only [Members.get?_put_of_ne _ _ hne, Members.get?_put_of_ne _ _ (Ne.symm hne)]
          cases ((Members.get? ms key).getD (.map [])).set? p a with
          | none => cases ((Members.get? ms other).getD (.map [])).set? q b <;> rfl
          | some u =>
            cases ((Members.get? ms other).getD (.map [])).set? q b with
            | none => rfl
            | some t =>
              exact congrArg (fun ms => some (Value.map ms)) (Members.put_comm_of_ne ms hne u t)
      | _ => rfl

/-- A store does not get in the way of another that is neither above nor below it. -/
theorem exists_set?_of_apart {a b : Value} (h : v.set? p a = some w) (hpq : ¬p <+: q)
    (hq : ∃ u, v.set? q b = some u) : ∃ u, w.set? q b = some u := by
  rw [exists_set?_iff] at hq ⊢
  intro r hr hne x hx
  rcases get?_set?_cases h hx with hmap | hbefore | ⟨rest, rfl, -⟩
  · exact hmap
  · exact hq r hr hne x hbefore
  · exact absurd ((List.prefix_append p rest).trans hr) hpq

end

/-! ## Changes -/

/-- The value with what stands at a path changed. Where there is nothing, it stays as it is. -/
def change (v : Value) (path : List String) (f : Value → Value) : Value :=
  match v.get? path with
  | some x => (v.set? path (f x)).getD v
  | none => v

/-- A list with its items changed. -/
def mapItems (f : Value → Value) : Value → Value
  | list xs => .list (xs.map f)
  | v => v

/-- A map with its direct members changed. -/
def mapMembers (f : Value → Value) : Value → Value
  | map ms => .map (ms.map fun m => (m.1, f m.2))
  | v => v

theorem change_eq {f : Value → Value} (h : v.get? path = some x) :
    v.set? path (f x) = some (v.change path f) := by
  obtain ⟨w, hw⟩ := exists_set?_of_get? h (f x)
  unfold change
  rw [h]
  simp only [hw, Option.getD_some]

/-- A change under a key leaves what stands under others. -/
theorem get?_change_of_ne {f : Value → Value} {key other : String} {rest : List String}
    (hne : key ≠ other) :
    (v.change (key :: path) f).get? (other :: rest) = v.get? (other :: rest) := by
  cases hx : v.get? (key :: path) with
  | none =>
    unfold change
    rw [hx]
  | some x => exact get?_set?_of_ne hne (change_eq hx)

/-! ## Parts of values -/

/-- What is looked up as a value of one form is found as that value. -/
theorem bind_get?_eq_some_iff {α : Type} {part? : Value → Option α} {mk : α → Value}
    (h : ∀ x a, part? x = some a ↔ x = mk a) {a : α} :
    (v.get? path).bind part? = some a ↔ v.get? path = some (mk a) := by
  simp only [Option.bind_eq_some_iff, h, exists_eq_right]

theorem itemsAt?_eq_some_iff {xs : List Value} :
    v.itemsAt? path = some xs ↔ v.get? path = some (.list xs) :=
  bind_get?_eq_some_iff fun x _ => by cases x <;> simp [items?]

theorem textAt?_eq_some_iff {text : String} :
    v.textAt? path = some text ↔ v.get? path = some (.str text) :=
  bind_get?_eq_some_iff fun x _ => by cases x <;> simp [text?]

/-! ## Sorted values -/

/-- A member of a sorted map is sorted. -/
theorem sorted_of_member {ms : Members} {key : String} {u : Value}
    (h : (Value.map ms).sorted = .map ms) (hu : Members.get? ms key = some u) : u.sorted = u := by
  have hms : sortedMembers ms = ms := Value.map.inj h
  have hfound := get?_sortedMembers ms key
  rw [hms, hu] at hfound
  exact (Option.some.inj hfound).symm

/-- A store of what is there does not change a sorted value. -/
theorem set?_of_get? (h : v.sorted = v) (hx : v.get? path = some x) : v.set? path x = some v := by
  induction path generalizing v with
  | nil =>
    rw [get?_nil] at hx
    rw [set?_nil, hx]
  | cons key path ih =>
    obtain ⟨ms, u, rfl, hu, hx⟩ := get?_cons_eq_some hx
    have hms : sortedMembers ms = ms := Value.map.inj h
    have hsorted : Members.Sorted ms := hms ▸ sorted_sortedMembers ms
    refine Option.map_eq_some_iff.mpr ⟨u, ?_, congrArg Value.map (hsorted.put_eq_self hu)⟩
    rw [hu]
    exact ih (sorted_of_member h hu) hx

/-- A sorted value does not change if what stands at the path does not. -/
theorem change_eq_self {f : Value → Value} (h : v.sorted = v)
    (hf : ∀ x, v.get? path = some x → f x = x) : v.change path f = v := by
  unfold change
  cases hx : v.get? path with
  | none => rfl
  | some x =>
    simp only [hf x hx, set?_of_get? h hx, Option.getD_some]

end LogForwarder.Value
