import LogForwarder.Proofs.Generation.Pipeline

/-!
# Steps of generation in turn

A step of generation takes counters to a result and to further counters. This module says what
steps come to that are made one after the other.

1. Two steps in a row succeed if both do, and otherwise they fail as the first one of them that
   does (`run_bind_eq_ok_iff`, `run_bind_eq_error_iff`).
2. So do all the steps of a pass over a list: it succeeds if they succeed in turn (`InTurn`), and
   otherwise it stops at the first that fails (`run_mapM_eq_ok_iff`, `run_mapM_eq_error_iff`).
3. What steps give that do not look at counters (`Steady`) is found without any.
4. Steps built of the mutators of generation count nothing but one failure if they fail
   (`CountsFailure`).
-/

namespace LogForwarder.Generation

variable {α β : Type} {m m' : Metrics}

/-! ## Two steps in a row -/

theorem run_bind_of_ok {g : Generation α} {a : α} {m₁ : Metrics} (h : g.run.run m = (.ok a, m₁))
    (f : α → Generation β) : (g >>= f).run.run m = (f a).run.run m₁ := by
  show ExceptT.bindCont f (g.run.run m).1 (g.run.run m).2 = (f a).run.run m₁
  rw [h]
  rfl

theorem run_bind_of_error {g : Generation α} {e : GenerationError} {m₁ : Metrics}
    (h : g.run.run m = (.error e, m₁)) (f : α → Generation β) :
    (g >>= f).run.run m = (.error e, m₁) := by
  show ExceptT.bindCont f (g.run.run m).1 (g.run.run m).2 = (.error e, m₁)
  rw [h]
  rfl

theorem run_bind_eq_ok_iff {g : Generation α} {f : α → Generation β} {b : β} :
    (g >>= f).run.run m = (.ok b, m') ↔
      ∃ a m₁, g.run.run m = (.ok a, m₁) ∧ (f a).run.run m₁ = (.ok b, m') := by
  rcases hg : g.run.run m with ⟨e | a, m₁⟩
  · rw [run_bind_of_error hg]
    exact ⟨nofun, nofun⟩
  · rw [run_bind_of_ok hg]
    constructor
    · intro h
      exact ⟨a, m₁, rfl, h⟩
    · rintro ⟨_, _, ⟨⟩, h⟩
      exact h

theorem run_bind_eq_error_iff {g : Generation α} {f : α → Generation β} {e : GenerationError} :
    (g >>= f).run.run m = (.error e, m') ↔
      g.run.run m = (.error e, m') ∨
        ∃ a m₁, g.run.run m = (.ok a, m₁) ∧ (f a).run.run m₁ = (.error e, m') := by
  rcases hg : g.run.run m with ⟨e₁ | a, m₁⟩
  · rw [run_bind_of_error hg]
    constructor
    · rintro ⟨⟩
      exact .inl rfl
    · rintro (h | ⟨_, _, ⟨⟩, _⟩)
      cases h
      rfl
  · rw [run_bind_of_ok hg]
    constructor
    · intro h
      exact .inr ⟨a, m₁, rfl, h⟩
    · rintro (h | ⟨_, _, ⟨⟩, h⟩)
      · cases h
      · exact h

/-! ## Passes over a list -/

/-- Steps that succeed one after the other, from the counters before to those after. -/
inductive InTurn (f : α → Generation β) : Metrics → List α → List β → Metrics → Prop
  | nil (m : Metrics) : InTurn f m [] [] m
  | cons {m m₁ m₂ : Metrics} {x : α} {xs : List α} {y : β} {ys : List β}
      (first : (f x).run.run m = (.ok y, m₁)) (rest : InTurn f m₁ xs ys m₂) :
      InTurn f m (x :: xs) (y :: ys) m₂

variable {f : α → Generation β}

theorem run_mapM_eq_ok_iff {xs : List α} {ys : List β} :
    (xs.mapM f).run.run m = (.ok ys, m') ↔ InTurn f m xs ys m' := by
  induction xs generalizing m ys with
  | nil =>
    constructor
    · rintro ⟨⟩
      exact .nil _
    · rintro ⟨⟩
      rfl
  | cons x xs ih =>
    rw [List.mapM_cons, run_bind_eq_ok_iff]
    constructor
    · rintro ⟨y, m₁, hfirst, h⟩
      obtain ⟨ys', m₂, hrest, ⟨⟩⟩ := run_bind_eq_ok_iff.mp h
      exact .cons hfirst (ih.mp hrest)
    · rintro (_ | ⟨hfirst, hrest⟩)
      exact ⟨_, _, hfirst, run_bind_eq_ok_iff.mpr ⟨_, _, ih.mpr hrest, rfl⟩⟩

/-- A pass fails as the first of its steps does that fails; those after it leave no trace. -/
theorem run_mapM_eq_error_iff {xs : List α} {e : GenerationError} :
    (xs.mapM f).run.run m = (.error e, m') ↔
      ∃ before x after, xs = before ++ x :: after ∧
        ∃ ys m₁, InTurn f m before ys m₁ ∧ (f x).run.run m₁ = (.error e, m') := by
  constructor
  · intro h
    -- The steps before the first that fails succeed, each from the counters that the last one left.
    induction xs generalizing m with
    | nil => cases h
    | cons x xs ih =>
      rw [List.mapM_cons] at h
      rcases run_bind_eq_error_iff.mp h with h | ⟨y, m₁, hfirst, h⟩
      · exact ⟨[], x, xs, rfl, [], m, .nil m, h⟩
      · rcases run_bind_eq_error_iff.mp h with h | ⟨_, _, _, ⟨⟩⟩
        obtain ⟨before, z, after, rfl, ys, m₂, hbefore, hfails⟩ := ih h
        exact ⟨x :: before, z, after, rfl, y :: ys, m₂, .cons hfirst hbefore, hfails⟩
  · rintro ⟨before, x, after, rfl, ys, m₁, hbefore, hfails⟩
    rw [List.mapM_append, run_bind_of_ok (run_mapM_eq_ok_iff.mpr hbefore), List.mapM_cons]
    exact run_bind_of_error (run_bind_of_error hfails _) _

/-! ## Steps that do not look at counters -/

/-- Whether what a step gives does not depend on what was counted before. -/
def Steady (g : Generation α) : Prop := ∀ m : Metrics, (g.run.run m).1 = g.outcome

theorem steady_pure (a : α) : Steady (pure a) := by
  intro m
  rfl

theorem outcome_bind {g : Generation α} {k : α → Generation β} (hk : ∀ a, (k a).Steady) :
    (g >>= k).outcome = g.outcome >>= fun a => (k a).outcome := by
  unfold outcome
  rcases hg : g.run.run {} with ⟨e | a, m₁⟩
  · rw [run_bind_of_error hg]
    rfl
  · rw [run_bind_of_ok hg]
    exact hk a m₁

theorem outcome_map (g : Generation α) (h : α → β) : (h <$> g).outcome = g.outcome.map h := by
  rw [← bind_pure_comp, outcome_bind fun a => steady_pure (h a)]
  cases g.outcome <;> rfl

theorem Steady.bind {g : Generation α} {k : α → Generation β} (hg : g.Steady)
    (hk : ∀ a, (k a).Steady) : (g >>= k).Steady := by
  intro m
  rw [outcome_bind hk, ← hg m]
  rcases h : g.run.run m with ⟨e | a, m₁⟩
  · rw [run_bind_of_error h]
    rfl
  · rw [run_bind_of_ok h]
    exact hk a m₁

theorem steady_mapM {xs : List α} (h : ∀ x ∈ xs, (f x).Steady) : (xs.mapM f).Steady := by
  induction xs with
  | nil => exact steady_pure []
  | cons x xs ih =>
    obtain ⟨hx, hxs⟩ := List.forall_mem_cons.mp h
    rw [List.mapM_cons]
    apply hx.bind
    intro y
    apply (ih hxs).bind
    intro ys
    exact steady_pure _

theorem outcome_mapM {xs : List α} (h : ∀ x ∈ xs, (f x).Steady) :
    (xs.mapM f).outcome = xs.mapM fun x => (f x).outcome := by
  induction xs with
  | nil => rfl
  | cons x xs ih =>
    obtain ⟨-, hxs⟩ := List.forall_mem_cons.mp h
    rw [List.mapM_cons, List.mapM_cons, ← ih hxs,
      outcome_bind fun _ => (steady_mapM hxs).bind fun _ => steady_pure _]
    simp only [outcome_bind fun _ => steady_pure _]
    rfl

/-! ## Steps that count their failure -/

/-- Whether a step counts one failure if it fails, and nothing else, and looks at no counters. -/
def CountsFailure (g : Generation α) : Prop := ∀ m : Metrics,
  g.run.run m = (g.outcome, if g.outcome.isOk then m else m.countMutationFailure)

theorem CountsFailure.steady {g : Generation α} (h : g.CountsFailure) : g.Steady := by
  intro m
  rw [h m]

theorem countsFailure_pure (a : α) : CountsFailure (pure a) := by
  intro m
  rfl

theorem CountsFailure.bind {g : Generation α} {k : α → Generation β} (hg : g.CountsFailure)
    (hk : ∀ a, (k a).CountsFailure) : (g >>= k).CountsFailure := by
  intro m
  have hm := hg m
  rw [outcome_bind fun a => (hk a).steady]
  cases hout : g.outcome with
  | error e =>
    rw [hout] at hm
    exact run_bind_of_error hm k
  | ok a =>
    rw [hout] at hm
    rw [run_bind_of_ok hm]
    exact hk a m

theorem countsFailure_mapM {xs : List α} (h : ∀ x ∈ xs, (f x).CountsFailure) :
    (xs.mapM f).CountsFailure := by
  induction xs with
  | nil => exact countsFailure_pure []
  | cons x xs ih =>
    obtain ⟨hx, hxs⟩ := List.forall_mem_cons.mp h
    rw [List.mapM_cons]
    apply hx.bind
    intro y
    apply (ih hxs).bind
    intro ys
    exact countsFailure_pure _

theorem countsFailure_passThrough (d : Draft) (request : Option Request) :
    (Mutator.passThrough d request).CountsFailure :=
  countsFailure_pure _

theorem countsFailure_deployment (d : Draft) (request : Option Request) :
    (Mutator.deployment d request).CountsFailure := by
  unfold Mutator.deployment
  cases request with
  | none => exact countsFailure_pure _
  | some request =>
    cases Mutator.convert d with
    | error e =>
      intro m
      rfl
    | ok deployment => exact countsFailure_pure _

end LogForwarder.Generation
