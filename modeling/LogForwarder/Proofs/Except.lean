import Mathlib.Data.List.Forall2

/-!
# Steps that may fail

A chain of steps succeeds when each of them does. A pass over a list succeeds when it does at
every item, and then it has what it makes of each of them, in their order.
-/

namespace LogForwarder

variable {ε α β : Type}

theorem bind_eq_ok {x : Except ε α} {f : α → Except ε β} {b : β} :
    x >>= f = .ok b ↔ ∃ a, x = .ok a ∧ f a = .ok b := by
  cases x with
  | error e => exact ⟨(nomatch ·), fun ⟨_, h, _⟩ => nomatch h⟩
  | ok a => exact ⟨fun h => ⟨a, rfl, h⟩, fun ⟨_, h, hb⟩ => by cases h; exact hb⟩

theorem bind_eq_error {x : Except ε α} {f : α → Except ε β} {e : ε} :
    x >>= f = .error e ↔ x = .error e ∨ ∃ a, x = .ok a ∧ f a = .error e := by
  cases x with
  | error e' =>
    constructor
    · rintro ⟨⟩
      exact .inl rfl
    · rintro (⟨⟨⟩⟩ | ⟨_, ⟨⟩, _⟩)
      rfl
  | ok a =>
    constructor
    · intro h
      exact .inr ⟨a, rfl, h⟩
    · rintro (⟨⟨⟩⟩ | ⟨_, ⟨⟩, h⟩)
      exact h

/-- Two checks in a row pass if each of them does. -/
theorem then_eq_ok_iff {x y : Except ε Unit} :
    (x >>= fun _ => y) = .ok () ↔ x = .ok () ∧ y = .ok () := by
  rw [bind_eq_ok]
  exact ⟨fun ⟨(), hx, hy⟩ => ⟨hx, hy⟩, fun ⟨hx, hy⟩ => ⟨(), hx, hy⟩⟩

theorem pure_eq_ok {a b : α} : (pure a : Except ε α) = .ok b ↔ a = b :=
  ⟨fun h => Except.ok.inj h, fun h => congrArg Except.ok h⟩

theorem map_eq_ok {x : Except ε α} {f : α → β} {b : β} :
    x.map f = .ok b ↔ ∃ a, x = .ok a ∧ f a = b := by
  cases x with
  | error e => exact ⟨(nomatch ·), fun ⟨_, h, _⟩ => nomatch h⟩
  | ok a => exact ⟨fun h => ⟨a, rfl, Except.ok.inj h⟩, fun ⟨_, h, hb⟩ => by cases h; exact hb ▸ rfl⟩

theorem map_eq_error {x : Except ε α} {f : α → β} {e : ε} :
    x.map f = .error e ↔ x = .error e := by
  cases x with
  | error e' => exact ⟨fun h => congrArg Except.error (Except.error.inj h),
      fun h => congrArg Except.error (Except.error.inj h)⟩
  | ok a => exact ⟨nofun, nofun⟩

/-- What can fail in one way only fails in this way unless it succeeds. -/
theorem eq_error_iff {x : Except ε α} {p : Prop} {e₀ e : ε} (hok : (∃ a, x = .ok a) ↔ p)
    (herror : ∀ e, x = .error e → e = e₀) : x = .error e ↔ ¬p ∧ e = e₀ := by
  cases x with
  | error e' =>
    have hp : ¬p := fun h => nomatch (hok.mpr h).choose_spec
    constructor
    · intro h
      exact ⟨hp, herror e h⟩
    · rintro ⟨-, rfl⟩
      rw [herror e' rfl]
  | ok a => exact ⟨nofun, fun ⟨h, _⟩ => absurd (hok.mp ⟨a, rfl⟩) h⟩

/-! ## Passes over a list -/

theorem exists_of_forall₂ {R : α → β → Prop} {xs : List α} {ys : List β}
    (h : List.Forall₂ R xs ys) : ∀ x ∈ xs, ∃ y, R x y :=
  ((List.forall₂_and_left xs ys).mp (h.imp fun _ y hxy => ⟨⟨y, hxy⟩, hxy⟩)).1

theorem mapM_eq_ok_iff {f : α → Except ε β} {xs : List α} {ys : List β} :
    xs.mapM f = .ok ys ↔ List.Forall₂ (fun x y => f x = .ok y) xs ys := by
  induction xs generalizing ys with
  | nil => rw [List.mapM_nil, pure_eq_ok, List.forall₂_nil_left_iff, eq_comm]
  | cons x xs ih =>
    rw [List.mapM_cons, bind_eq_ok, List.forall₂_cons_left_iff]
    refine exists_congr fun y => ?_
    constructor
    · rintro ⟨hy, h⟩
      obtain ⟨zs, hzs, h⟩ := bind_eq_ok.mp h
      exact ⟨zs, hy, ih.mp hzs, (pure_eq_ok.mp h).symm⟩
    · rintro ⟨zs, hy, hzs, rfl⟩
      exact ⟨hy, bind_eq_ok.mpr ⟨zs, ih.mpr hzs, rfl⟩⟩

theorem exists_of_mem_mapM {f : α → Except ε β} {xs : List α} {ys : List β}
    (h : xs.mapM f = .ok ys) {y : β} (hy : y ∈ ys) : ∃ x ∈ xs, f x = .ok y := by
  induction mapM_eq_ok_iff.mp h with
  | nil => cases hy
  | cons hx _ ih =>
    rcases List.mem_cons.mp hy with rfl | hy
    · exact ⟨_, List.mem_cons_self, hx⟩
    · obtain ⟨z, hz, hf⟩ := ih (mapM_eq_ok_iff.mpr ‹_›) hy
      exact ⟨z, List.mem_cons_of_mem _ hz, hf⟩

/-- A pass of steps that succeed under a condition succeeds if all items meet it. -/
theorem mapM_eq_ok_iff_of_step {f : α → Except ε β} {p : α → Prop} {g : α → β}
    (h : ∀ x y, f x = .ok y ↔ p x ∧ y = g x) {xs : List α} {ys : List β} :
    xs.mapM f = .ok ys ↔ (∀ x ∈ xs, p x) ∧ ys = xs.map g := by
  rw [mapM_eq_ok_iff]
  simp only [h]
  constructor
  · intro hall
    induction hall with
    | nil => exact ⟨nofun, rfl⟩
    | cons hfirst _ ih => exact ⟨List.forall_mem_cons.mpr ⟨hfirst.1, ih.1⟩,
        List.cons_eq_cons.mpr ⟨hfirst.2, ih.2⟩⟩
  · rintro ⟨hall, rfl⟩
    exact List.forall₂_map_right_iff.mpr (List.forall₂_same.mpr fun x hx => ⟨hall x hx, rfl⟩)

/-- A pass fails as the first of its steps that fails. -/
theorem mapM_eq_error_iff {f : α → Except ε β} {xs : List α} {e : ε} :
    xs.mapM f = .error e ↔ ∃ before x after, xs = before ++ x :: after ∧
      (∀ b ∈ before, ∃ y, f b = .ok y) ∧ f x = .error e := by
  induction xs with
  | nil =>
    constructor
    · intro h
      cases h
    · rintro ⟨before, x, after, h, -⟩
      simp at h
  | cons x xs ih =>
    rw [List.mapM_cons, bind_eq_error]
    constructor
    · rintro (h | ⟨y, hy, h⟩)
      · exact ⟨[], x, xs, rfl, nofun, h⟩
      · -- What follows the pass over the rest does not fail.
        have hrest : xs.mapM f = .error e := by
          rcases bind_eq_error.mp h with h | ⟨_, _, h⟩
          · exact h
          · cases h
        obtain ⟨before, z, after, rfl, hbefore, hz⟩ := ih.mp hrest
        exact ⟨x :: before, z, after, rfl, List.forall_mem_cons.mpr ⟨⟨y, hy⟩, hbefore⟩, hz⟩
    · rintro ⟨before, z, after, hsplit, hbefore, hz⟩
      cases before with
      | nil =>
        cases hsplit
        exact .inl hz
      | cons b before =>
        cases hsplit
        obtain ⟨⟨y, hy⟩, hbefore⟩ := List.forall_mem_cons.mp hbefore
        have hrest := ih.mpr ⟨before, z, after, rfl, hbefore, hz⟩
        exact .inr ⟨y, hy, bind_eq_error.mpr (.inl hrest)⟩

/-- A filtering pass succeeds exactly if every step of it does. -/
theorem exists_filterMapM_iff {f : α → Except ε (Option β)} {xs : List α} :
    (∃ ys, xs.filterMapM f = .ok ys) ↔ ∀ x ∈ xs, ∃ o, f x = .ok o := by
  induction xs with
  | nil => exact ⟨fun _ => nofun, fun _ => ⟨[], rfl⟩⟩
  | cons x xs ih =>
    rw [List.forall_mem_cons, ← ih, List.filterMapM_cons]
    constructor
    · rintro ⟨ys, h⟩
      obtain ⟨o, ho, h⟩ := bind_eq_ok.mp h
      refine ⟨⟨o, ho⟩, ?_⟩
      cases o with
      | none => exact ⟨ys, h⟩
      | some y =>
        obtain ⟨zs, hzs, -⟩ := bind_eq_ok.mp h
        exact ⟨zs, hzs⟩
    · rintro ⟨⟨o, ho⟩, ys, hys⟩
      rw [ho, hys]
      cases o with
      | none => exact ⟨ys, rfl⟩
      | some y => exact ⟨y :: ys, rfl⟩

theorem filterMapM_eq_ok {f : α → Except ε (Option β)} {g : α → Option β} {xs : List α}
    (h : ∀ x ∈ xs, f x = .ok (g x)) : xs.filterMapM f = .ok (xs.filterMap g) := by
  induction xs with
  | nil => rfl
  | cons x xs ih =>
    rw [List.filterMapM_cons, h x List.mem_cons_self, List.filterMap_cons,
      ih fun y hy => h y (List.mem_cons_of_mem _ hy)]
    cases hx : g x <;> rfl

theorem exists_of_mem_filterMapM {f : α → Except ε (Option β)} {xs : List α} {ys : List β}
    (h : xs.filterMapM f = .ok ys) {y : β} (hy : y ∈ ys) : ∃ x ∈ xs, f x = .ok (some y) := by
  induction xs generalizing ys with
  | nil => cases h; cases hy
  | cons x xs ih =>
    rw [List.filterMapM_cons] at h
    obtain ⟨o, ho, h⟩ := bind_eq_ok.mp h
    cases o with
    | none =>
      obtain ⟨z, hz, hf⟩ := ih h hy
      exact ⟨z, List.mem_cons_of_mem _ hz, hf⟩
    | some z =>
      obtain ⟨zs, hzs, h⟩ := bind_eq_ok.mp h
      cases h
      rcases List.mem_cons.mp hy with rfl | hy
      · exact ⟨x, List.mem_cons_self, ho⟩
      · obtain ⟨w, hw, hf⟩ := ih hzs hy
        exact ⟨w, List.mem_cons_of_mem _ hw, hf⟩

/-- A filtering pass goes over the items before one, over this one, and over those after it. -/
theorem filterMapM_append_cons_eq_ok_iff {f : α → Except ε (Option β)} {xs ys : List α} {x : α}
    {zs : List β} :
    (xs ++ x :: ys).filterMapM f = .ok zs ↔ ∃ us o vs, xs.filterMapM f = .ok us ∧ f x = .ok o ∧
      ys.filterMapM f = .ok vs ∧ zs = us ++ (o.toList ++ vs) := by
  have hcons (y : α) (ys : List α) (zs : List β) : (y :: ys).filterMapM f = .ok zs ↔
      ∃ o vs, f y = .ok o ∧ ys.filterMapM f = .ok vs ∧ zs = o.toList ++ vs := by
    rw [List.filterMapM_cons, bind_eq_ok]
    refine exists_congr fun o => ?_
    cases o with
    | none => simp [eq_comm]
    | some z =>
      constructor
      · rintro ⟨ho, h⟩
        obtain ⟨vs, hvs, h⟩ := bind_eq_ok.mp h
        exact ⟨vs, ho, hvs, (pure_eq_ok.mp h).symm⟩
      · rintro ⟨vs, ho, hvs, rfl⟩
        exact ⟨ho, bind_eq_ok.mpr ⟨vs, hvs, rfl⟩⟩
  induction xs generalizing zs with
  | nil =>
    rw [List.nil_append, hcons]
    constructor
    · rintro ⟨o, vs, ho, hvs, rfl⟩
      exact ⟨[], o, vs, rfl, ho, hvs, rfl⟩
    · rintro ⟨_, o, vs, ⟨⟩, ho, hvs, rfl⟩
      exact ⟨o, vs, ho, hvs, rfl⟩
  | cons y xs ih =>
    rw [List.cons_append, hcons]
    constructor
    · rintro ⟨p, ws, hp, hws, rfl⟩
      obtain ⟨us, o, vs, hus, ho, hvs, rfl⟩ := ih.mp hws
      exact ⟨p.toList ++ us, o, vs, (hcons _ _ _).mpr ⟨p, us, hp, hus, rfl⟩, ho, hvs,
        (List.append_assoc _ _ _).symm⟩
    · rintro ⟨_, o, vs, hfirst, ho, hvs, rfl⟩
      obtain ⟨p, us, hp, hus, rfl⟩ := (hcons _ _ _).mp hfirst
      exact ⟨p, _, hp, ih.mpr ⟨us, o, vs, hus, ho, hvs, rfl⟩, List.append_assoc _ _ _⟩

/-! ## Passes over lists that differ -/

theorem filterMapM_congr {f g : α → Except ε (Option β)} {xs : List α} (h : ∀ x ∈ xs, f x = g x) :
    xs.filterMapM f = xs.filterMapM g := by
  induction xs with
  | nil => rfl
  | cons x xs ih =>
    obtain ⟨hx, h⟩ := List.forall_mem_cons.mp h
    rw [List.filterMapM_cons, List.filterMapM_cons, hx, ih h]


theorem mapM_replace {f : α → Except ε β} {x y : α} (h : f x = f y)
    (before after : List α) :
    (before ++ x :: after).mapM f = (before ++ y :: after).mapM f := by
  rw [List.mapM_append, List.mapM_append, List.mapM_cons, List.mapM_cons, h]

theorem filterMapM_replace {f : α → Except ε (Option β)} {x y : α} (h : f x = f y)
    (before after : List α) :
    (before ++ x :: after).filterMapM f = (before ++ y :: after).filterMapM f := by
  induction before with
  | nil => rw [List.nil_append, List.nil_append, List.filterMapM_cons, List.filterMapM_cons, h]
  | cons b before ih =>
    rw [List.cons_append, List.cons_append, List.filterMapM_cons, List.filterMapM_cons, ih]

/-- A filtering pass does not see the items that it drops. -/
theorem filterMapM_filter {f : α → Except ε (Option β)} {p : α → Bool}
    (h : ∀ x, ¬p x → f x = .ok none) (xs : List α) :
    (xs.filter p).filterMapM f = xs.filterMapM f := by
  induction xs with
  | nil => rfl
  | cons x xs ih =>
    rw [List.filterMapM_cons]
    by_cases hx : p x
    · rw [List.filter_cons_of_pos hx, List.filterMapM_cons, ih]
    · rw [List.filter_cons_of_neg hx, h x hx, ih]
      rfl

end LogForwarder
