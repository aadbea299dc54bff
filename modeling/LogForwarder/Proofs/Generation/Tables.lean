import LogForwarder.Proofs.Generation.Steps
import LogForwarder.Generation.Forwarder

/-!
# Runs of tables of builders

A run of a table calls the builders that are included, in their order, up to the first that fails.

1. What a run does is one pass over the builders that are included (`runAll_eq_mapM`).
2. So the laws of passes are laws of runs, and of pipelines, which only count around a run
   (`runAll_in_order`).
-/

namespace LogForwarder.Builder

open Generation

variable {ι : Type} {input : ι} {request : Option Request}

/-- What a builder makes of an input, whether or not it is included. -/
def make (b : Builder ι) (input : ι) (request : Option Request) : Generation Resource :=
  b.mutate (b.build input) request

/-- The builders of a table that are included, in its order. -/
def selected (input : ι) (bs : List (Builder ι)) : List (Builder ι) :=
  bs.filter (·.includes input)

theorem selected_cons_of_includes {b : Builder ι} (h : b.includes input) (bs : List (Builder ι)) :
    selected input (b :: bs) = b :: selected input bs :=
  List.filter_cons_of_pos h

theorem selected_cons_of_not_includes {b : Builder ι} (h : ¬ b.includes input)
    (bs : List (Builder ι)) : selected input (b :: bs) = selected input bs :=
  List.filter_cons_of_neg h

theorem selected_append (bs bs' : List (Builder ι)) :
    selected input (bs ++ bs') = selected input bs ++ selected input bs' :=
  List.filter_append bs bs'

theorem selected_selected (bs : List (Builder ι)) :
    selected input (selected input bs) = selected input bs := by
  unfold selected
  rw [List.filter_filter]
  simp only [Bool.and_self]

theorem create_of_includes {b : Builder ι} (h : b.includes input) :
    b.create input request = (b.make input request >>= fun r => pure [r]) :=
  if_pos h

theorem create_of_not_includes {b : Builder ι} (h : ¬ b.includes input) :
    b.create input request = pure [] :=
  if_neg h

/-- A run is a pass over the builders that are included. -/
theorem runAll_eq_mapM (bs : List (Builder ι)) :
    runAll input request bs = (selected input bs).mapM (·.make input request) := by
  induction bs with
  | nil => rfl
  | cons b bs ih =>
    unfold runAll
    by_cases h : b.includes input
    · -- What a builder makes stands alone in what it creates, so both lists grow by one.
      rw [create_of_includes h, selected_cons_of_includes h, List.mapM_cons, ih]
      simp only [bind_assoc, pure_bind]
      rfl
    · rw [create_of_not_includes h, selected_cons_of_not_includes h, pure_bind, ih]
      exact bind_pure _

theorem runAll_selected (bs : List (Builder ι)) :
    runAll input request (selected input bs) = runAll input request bs := by
  rw [runAll_eq_mapM, runAll_eq_mapM, selected_selected]

theorem runAll_append (bs bs' : List (Builder ι)) :
    runAll input request (bs ++ bs') = do
      return (← runAll input request bs) ++ (← runAll input request bs') := by
  rw [runAll_eq_mapM, runAll_eq_mapM, runAll_eq_mapM, selected_append, List.mapM_append]

/-- A run joins what the builders create in turn. -/
theorem runAll_eq_flatten (bs : List (Builder ι)) :
    runAll input request bs = List.flatten <$> bs.mapM (·.create input request) := by
  induction bs with
  | nil => rfl
  | cons b bs ih =>
    rw [List.mapM_cons]
    unfold runAll
    rw [ih]
    simp only [map_bind, map_pure, bind_map_left, List.flatten_cons]

/-- A pipeline counts the run before it begins, and does not touch what comes of it. -/
theorem result_runPipeline (pipeline : String) (bs : List (Builder ι)) (m : Metrics) :
    ((runPipeline pipeline bs input request).run.run m).1 =
      ((runAll input request bs).run.run (m.countGeneration pipeline)).1 :=
  rfl

section Steady

variable {bs : List (Builder ι)} (h : ∀ b ∈ bs, (b.make input request).Steady)

include h

theorem steady_make_of_mem_selected : ∀ b ∈ selected input bs, (b.make input request).Steady := by
  intro b hb
  exact h b (List.mem_filter.mp hb).1

theorem steady_create : ∀ b ∈ bs, (b.create input request).Steady := by
  intro b hb
  by_cases hincludes : b.includes input
  · rw [create_of_includes hincludes]
    exact (h b hb).bind fun _ => steady_pure _
  · rw [create_of_not_includes hincludes]
    exact steady_pure _

theorem steady_runAll : (runAll input request bs).Steady := by
  rw [runAll_eq_mapM]
  exact steady_mapM (steady_make_of_mem_selected h)

theorem outcome_runAll : (runAll input request bs).outcome =
    (selected input bs).mapM fun b => (b.make input request).outcome := by
  rw [runAll_eq_mapM]
  exact outcome_mapM (steady_make_of_mem_selected h)

theorem outcome_runAll_eq_flatten : (runAll input request bs).outcome =
    Except.map List.flatten (bs.mapM fun b => (b.create input request).outcome) := by
  rw [runAll_eq_flatten, outcome_map, outcome_mapM (steady_create h)]

end Steady

/-- **Tables run in their order.** Whatever the guards, the builds and the mutators of a table do,
and whatever was counted before:

1. a run gives resources exactly if all builders that are included make one in turn, and then it
   gives these, one for each builder, in the order of the table;
2. otherwise it fails as the first of them that fails, and leaves the counters as this one does, so
   none after it is called;
3. builders that are left out make no difference;
4. a run gives what its builders create in turn, joined;
5. a run of two tables joined is a run of the first and then one of the second;
6. a pipeline gives what a run of its table gives, once it is counted;
7. if no mutator looks at counters, then what each builder makes, or creates, by itself decides on
   the run, and the pipeline gives what the run does, whatever was counted before either. -/
theorem runAll_in_order (input : ι) (request : Option Request) (bs : List (Builder ι)) :
    (∀ m rs m', (runAll input request bs).run.run m = (.ok rs, m') ↔
      InTurn (·.make input request) m (selected input bs) rs m') ∧
    (∀ m e m', (runAll input request bs).run.run m = (.error e, m') ↔
      ∃ before b after, selected input bs = before ++ b :: after ∧
        ∃ rs m₁, InTurn (·.make input request) m before rs m₁ ∧
          (b.make input request).run.run m₁ = (.error e, m')) ∧
    runAll input request bs = runAll input request (selected input bs) ∧
    runAll input request bs = List.flatten <$> bs.mapM (·.create input request) ∧
    (∀ bs', runAll input request (bs ++ bs') = do
      return (← runAll input request bs) ++ (← runAll input request bs')) ∧
    (∀ pipeline m, ((runPipeline pipeline bs input request).run.run m).1 =
      ((runAll input request bs).run.run (m.countGeneration pipeline)).1) ∧
    ((∀ b ∈ bs, (b.make input request).Steady) →
      (runAll input request bs).outcome =
        ((selected input bs).mapM fun b => (b.make input request).outcome) ∧
      (runAll input request bs).outcome =
        Except.map List.flatten (bs.mapM fun b => (b.create input request).outcome) ∧
      ∀ pipeline m m', ((runPipeline pipeline bs input request).run.run m).1 =
        ((runAll input request bs).run.run m').1) := by
  refine ⟨?_, ?_, (runAll_selected bs).symm, runAll_eq_flatten bs, runAll_append bs, ?_, ?_⟩
  · intro m rs m'
    rw [runAll_eq_mapM]
    exact run_mapM_eq_ok_iff
  · intro m e m'
    rw [runAll_eq_mapM]
    exact run_mapM_eq_error_iff
  · intro pipeline m
    exact result_runPipeline pipeline bs m
  · intro h
    refine ⟨outcome_runAll h, outcome_runAll_eq_flatten h, ?_⟩
    intro pipeline m m'
    rw [result_runPipeline, steady_runAll h, steady_runAll h]

/-- The table of a forwarder has mutators that do not look at counters. -/
theorem pipeline_result_of_forwarder :
    let p : Forwarder := { metadata := {}, spec := { ocm := { clusterId := "abc123" } } }
    (∀ b ∈ Forwarder.builders, (b.make p none).Steady) ∧
      ∀ m m', ((runPipeline "forwarder" Forwarder.builders p none).run.run m).1 =
        ((runAll p none Forwarder.builders).run.run m').1 := by
  intro p
  have hsteady : ∀ b ∈ Forwarder.builders, (b.make p none).Steady := by
    simp only [Forwarder.builders, List.forall_mem_cons]
    exact ⟨steady_pure _, steady_pure _, steady_pure _, steady_pure _, steady_pure _,
      (countsFailure_deployment (Forwarder.deployment p) none).steady, nofun⟩
  obtain ⟨-, -, -, -, -, -, hlast⟩ := runAll_in_order p none Forwarder.builders
  exact ⟨hsteady, (hlast hsteady).2.2 "forwarder"⟩

end LogForwarder.Builder
