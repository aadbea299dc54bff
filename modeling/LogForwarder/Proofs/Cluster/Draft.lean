import LogForwarder.Cluster.Draft
import LogForwarder.Proofs.Value.Path

/-!
# Stores in drafts

A store is carried out step by step, and what it has made on the way is not taken back where it has
to stop. Nothing is ever left over, all the same.

1. A step down makes at most an empty map, and changes nothing for the store that it is part of
   (`Entered`). Below an empty map nothing is in the way, so a walk that ends nowhere has made
   nothing (`walk_of_blocked`).
2. So a store either changes the value at its path and makes the way to it, or leaves the draft as
   it is (`store_eq`, `store_atomic`).
3. Stores of which neither is above the other can be made in either order (`store_comm`).
-/

namespace LogForwarder.Draft

variable {d d' : Draft} {place keys path : List String} {key last : String} {v w x : Value}

/-! ## Steps -/

theorem membersAt?_eq_some_iff {ms : Members} :
    membersAt? d place = some ms ↔ d.get? place = some (.map ms) :=
  Value.bind_get?_eq_some_iff fun x _ => by cases x <;> simp [Value.members?]

theorem overwrite_of_set? (h : d.set? place v = some w) : overwrite d place v = w := by
  rw [overwrite, h, Option.getD_some]

/-- What a step down comes to. -/
structure Entered (d : Draft) (place : List String) (key : String) (d' : Draft) : Prop where
  there : ∃ x, d'.get? (place ++ [key]) = some x
  /-- At most, an empty map was made. -/
  made : d' = d ∨ d'.get? (place ++ [key]) = some (.map [])
  /-- Stores further down find what they would have found. -/
  stores : ∀ keys v, d'.set? (place ++ key :: keys) v = d.set? (place ++ key :: keys) v

/-- There is a step down from every map. -/
theorem enter?_of_map {ms : Members} (h : d.get? place = some (.map ms)) (key : String) :
    ∃ d', enter? d place key = some d' ∧ Entered d place key d' := by
  have hget : d.get? (place ++ [key]) = ms.get? key := by
    rw [Value.get?_append, h, Option.bind_some, Value.get?_singleton]
  have hmembers := membersAt?_eq_some_iff.mpr h
  cases hkey : ms.get? key with
  | some x =>
    refine ⟨d, ?_, ⟨x, hget.trans hkey⟩, .inl rfl, fun _ _ => rfl⟩
    simp only [enter?, hmembers, Option.map_some, hkey, Option.isSome_some, if_true]
  | none =>
    obtain ⟨d', hd'⟩ : ∃ d', d.set? (place ++ [key]) (.map []) = some d' := by
      rw [Value.set?_append h]
      exact Value.exists_set?_of_get? h _
    have hfound := Value.get?_set? hd'
    refine ⟨d', ?_, ⟨_, hfound⟩, .inr hfound, fun keys v => ?_⟩
    · simp only [enter?, hmembers, Option.map_some, hkey, Option.isSome_none, Bool.false_eq_true,
        if_false, overwrite_of_set? hd']
    · rw [List.append_cons]
      exact Value.set?_append_of_missing (hget.trans hkey) hd' keys v

theorem enter?_of_not_map (h : ¬∃ ms, d.get? place = some (.map ms)) (key : String) :
    enter? d place key = none := by
  cases hms : membersAt? d place with
  | some ms => exact absurd ⟨ms, membersAt?_eq_some_iff.mp hms⟩ h
  | none => rw [enter?, hms, Option.map_none]

/-! ## Walks -/

/-- A store that succeeds goes through a map. -/
theorem exists_map_of_set? (hx : d.get? place = some x)
    (h : d.set? (place ++ key :: keys) v = some w) : ∃ ms, d.get? place = some (.map ms) := by
  rw [Value.set?_append hx] at h
  obtain ⟨u, hu, -⟩ := Option.bind_eq_some_iff.mp h
  obtain ⟨ms, -, rfl, -⟩ := Value.set?_cons_eq_some hu
  exact ⟨ms, hx⟩

/-- Where a store succeeds the walk reaches a map, and the maps that it made make no difference. -/
theorem walk_of_set? (hx : d.get? place = some x)
    (h : d.set? (place ++ (keys ++ [last])) v = some w) :
    ∃ d', walk d place keys = (d', true) ∧ d'.set? (place ++ (keys ++ [last])) v = some w := by
  induction keys generalizing d place x with
  | nil =>
    obtain ⟨ms, hms⟩ := exists_map_of_set? hx h
    refine ⟨d, ?_, h⟩
    rw [walk, membersAt?_eq_some_iff.mpr hms, Option.isSome_some]
  | cons key keys ih =>
    obtain ⟨ms, hms⟩ := exists_map_of_set? hx h
    obtain ⟨d₁, hd₁, hentered⟩ := enter?_of_map hms key
    obtain ⟨y, hy⟩ := hentered.there
    rw [List.cons_append, ← hentered.stores, List.append_cons] at h
    obtain ⟨d', hd', hw⟩ := ih hy h
    refine ⟨d', ?_, ?_⟩
    · rw [walk, hd₁]
      exact hd'
    · rwa [List.cons_append, List.append_cons]

/-- Where a store is blocked the walk ends at no map, and has made none. -/
theorem walk_of_blocked (hx : d.get? place = some x)
    (h : d.set? (place ++ (keys ++ [last])) v = none) : walk d place keys = (d, false) := by
  induction keys generalizing d place x with
  | nil =>
    have hmap : membersAt? d place = none := by
      rw [Option.eq_none_iff_forall_ne_some]
      intro ms hms
      rw [List.nil_append, Value.set?_append (membersAt?_eq_some_iff.mp hms)] at h
      obtain ⟨w, hw⟩ := Value.exists_set?_of_get? (membersAt?_eq_some_iff.mp hms)
        (.map (ms.put last v))
      cases hw.symm.trans h
    rw [walk, hmap, Option.isSome_none]
  | cons key keys ih =>
    by_cases hmap : ∃ ms, d.get? place = some (.map ms)
    · obtain ⟨ms, hms⟩ := hmap
      obtain ⟨d₁, hd₁, hentered⟩ := enter?_of_map hms key
      obtain ⟨y, hy⟩ := hentered.there
      rw [List.cons_append, ← hentered.stores, List.append_cons] at h
      rw [walk, hd₁]
      rcases hentered.made with rfl | hempty
      · exact ih hy h
      · -- Nothing blocks a store into an empty map.
        obtain ⟨u, hu⟩ : ∃ u, (Value.map []).set? (keys ++ [last]) v = some u := by
          refine Value.exists_set?_iff.mpr fun q _ _ z hz => ?_
          cases q with
          | nil => exact ⟨[], (Option.some.inj ((Value.get?_nil _).symm.trans hz)).symm⟩
          | cons _ _ => cases hz
        obtain ⟨w, hw⟩ := Value.exists_set?_of_get? hempty u
        rw [Value.set?_append hempty, hu, Option.bind_some, hw] at h
        cases h
    · rw [walk, enter?_of_not_map hmap]

/-! ## Stores -/

/-- **A store is made as a whole or not at all.** -/
theorem store_eq (d : Draft) (path : List String) (v : Value) :
    store d path v = match d.set? path v with
      | some w => (w, true)
      | none => (d, false) := by
  rcases List.eq_nil_or_concat path with rfl | ⟨keys, last, rfl⟩
  · rw [Value.set?_nil]
    rfl
  rw [List.concat_eq_append]
  have hroot : d.get? [] = some d := Value.get?_nil d
  rw [store, if_neg (by simp), List.dropLast_concat]
  cases hset : d.set? (keys ++ [last]) v with
  | some w =>
    obtain ⟨d', hwalk, hw⟩ := walk_of_set? hroot hset
    rw [List.nil_append] at hw
    simp only [hwalk, overwrite_of_set? hw]
  | none => simp only [walk_of_blocked hroot hset]

theorem store_of_set? (h : d.set? path v = some w) : store d path v = (w, true) := by
  rw [store_eq, h]

theorem store_of_set?_eq_none (h : d.set? path v = none) : store d path v = (d, false) := by
  rw [store_eq, h]

/-- What a draft is after a value was stored in another. -/
structure Updated (d : Draft) (path : List String) (v : Value) (d' : Draft) : Prop where
  found : d'.get? path = some v
  below : ∀ rest, d'.get? (path ++ rest) = v.get? rest
  above : ∀ q, q <+: path → q ≠ path → ∃ ms, d'.get? q = some (.map ms)
  elsewhere : ∀ q, ¬q <+: path → ¬path <+: q → d'.get? q = d.get? q

theorem updated_of_set? (h : d.set? path v = some w) : Updated d path v w where
  found := Value.get?_set? h
  below rest := by rw [Value.get?_append, Value.get?_set? h, Option.bind_some]
  above _ hq hne := Value.get?_set?_above h hq hne
  elsewhere _ hqp hpq := Value.get?_set?_of_apart h hqp hpq

/-- **A store is an atomic update.** It is made exactly if no value on the way is anything but a
map, so at any place where something stands. If it is not made, the draft stays as it is; if it is,
nothing but the value at its path and the way to it changes. -/
theorem store_atomic (d : Draft) (path : List String) (v : Value) :
    ((store d path v).2 = true ↔
        ¬∃ q x, q <+: path ∧ q ≠ path ∧ d.get? q = some x ∧ ¬∃ ms, x = .map ms) ∧
      ((store d path v).2 = false → (store d path v).1 = d) ∧
      ((store d path v).2 = true → Updated d path v (store d path v).1) ∧
      ((d.get? path).isSome → (store d path v).2 = true) := by
  have hway : (∃ w, d.set? path v = some w) ↔
      ¬∃ q x, q <+: path ∧ q ≠ path ∧ d.get? q = some x ∧ ¬∃ ms, x = .map ms := by
    rw [Value.exists_set?_iff]
    push Not
    exact ⟨fun h q x hq hne => h q hq hne x, fun h q hq hne x => h q x hq hne⟩
  have hthere : (d.get? path).isSome → ∃ w, d.set? path v = some w := fun h =>
    Value.exists_set?_of_get? (Option.some_get h).symm v
  rw [← hway]
  cases hset : d.set? path v with
  | some w =>
    rw [store_of_set? hset]
    exact ⟨⟨fun _ => ⟨w, rfl⟩, fun _ => rfl⟩, nofun, fun _ => updated_of_set? hset, fun _ => rfl⟩
  | none =>
    rw [store_of_set?_eq_none hset]
    rw [hset] at hthere
    refine ⟨⟨nofun, nofun⟩, fun _ => rfl, nofun, fun h => ?_⟩
    obtain ⟨w, hw⟩ := hthere h
    cases hw

/-- **Independent stores can change places.** If neither of two paths is above the other, or the
same, the draft after both stores does not depend on their order, and neither does whether each of
them is made. -/
theorem store_comm (d : Draft) {p q : List String} (hpq : ¬p <+: q) (hqp : ¬q <+: p)
    (v w : Value) :
    (store (store d p v).1 q w).1 = (store (store d q w).1 p v).1 ∧
      (store d p v).2 = (store (store d q w).1 p v).2 ∧
      (store (store d p v).1 q w).2 = (store d q w).2 := by
  have hcomm := Value.set?_comm (v := d) (a := v) (b := w) hpq hqp
  cases hp : d.set? p v with
  | none =>
    rw [hp, Option.bind_none] at hcomm
    cases hq : d.set? q w with
    | none => simp only [store_of_set?_eq_none hp, store_of_set?_eq_none hq, and_self]
    | some dq =>
      rw [hq, Option.bind_some] at hcomm
      simp only [store_of_set?_eq_none hp, store_of_set? hq, store_of_set?_eq_none hcomm.symm,
        and_self]
  | some dp =>
    rw [hp, Option.bind_some] at hcomm
    cases hq : d.set? q w with
    | none =>
      rw [hq, Option.bind_none] at hcomm
      simp only [store_of_set? hp, store_of_set?_eq_none hq, store_of_set?_eq_none hcomm,
        and_self]
    | some dq =>
      obtain ⟨d', hd'⟩ := Value.exists_set?_of_apart hp hpq ⟨dq, hq⟩
      rw [hq, Option.bind_some, hd'] at hcomm
      simp only [store_of_set? hp, store_of_set? hq, store_of_set? hd', store_of_set? hcomm.symm,
        and_self]

/-- Of two labels that are set, the first makes the map for both, whichever it is. A member of a
text cannot be set, neither before nor after. -/
theorem store_comm_labels :
    let d : Draft := .map [("metadata", .map [("name", .str "sample")])]
    let labels : Draft := .map
      [ ("metadata", .map
          [ ("labels", .map [("app", .str "a"), ("tier", .map [("of", .str "b")])]),
            ("name", .str "sample") ]) ]
    let p := ["metadata", "labels", "app"]
    let q := ["metadata", "labels", "tier", "of"]
    let r := ["metadata", "name", "of"]
    (¬p <+: q ∧ ¬q <+: p ∧ store (store d p (.str "a")).1 q (.str "b") = (labels, true) ∧
        (store (store d q (.str "b")).1 p (.str "a")).1 = labels) ∧
      (¬p <+: r ∧ ¬r <+: p ∧ (store (store d p (.str "a")).1 r .null).2 = false ∧
        (store d r .null).2 = false) := by
  have hlabels := store_comm (.map [("metadata", .map [("name", .str "sample")])])
    (p := ["metadata", "labels", "app"]) (q := ["metadata", "labels", "tier", "of"])
    (by decide) (by decide) (.str "a") (.str "b")
  have hname := store_comm (.map [("metadata", .map [("name", .str "sample")])])
    (p := ["metadata", "labels", "app"]) (q := ["metadata", "name", "of"])
    (by decide) (by decide) (.str "a") .null
  exact ⟨⟨by decide, by decide, by decide, hlabels.1.symm.trans (by decide)⟩, by decide, by decide,
    by decide, hname.2.2.symm.trans (by decide)⟩

end LogForwarder.Draft
