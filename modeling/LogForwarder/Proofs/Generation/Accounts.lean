import LogForwarder.Generation.Collection
import LogForwarder.Proofs.Generation.Tables

/-!
# Accounts of what was generated

Counters are kept in different places, on the ways of success and of failure, yet after any history
of operations they tell what came of it.

1. `Operation` is what generation is asked for: a run of a pipeline, one builder, or the mutator of
   deployments; `Operation.mutations` are the calls of this mutator that are made for it.
2. The tables of the library have no other mutators, so every generation for a forwarder or a
   collection is such an operation (`Operation.perform_ofForwarder`,
   `Operation.perform_ofCollection`).
3. `Counted` says what is counted of a history. One operation is counted rightly
   (`Operation.counted_perform`), and so is one history after another (`Counted.trans`).
4. Hence counters that start from zero add up (`Operation.performAll_accounts`).
-/

namespace LogForwarder

open Generation Builder

/-! ## Tallies -/

namespace Tally

theorem count_cons (k : String) (n : Nat) (t : Tally) (label : String) :
    count ((k, n) :: t) label = if k = label then n else t.count label := by
  unfold count
  rw [List.lookup_cons]
  by_cases h : k = label
  · rw [if_pos h, beq_iff_eq.mpr h.symm]
    rfl
  · rw [if_neg h, beq_eq_false_iff_ne.mpr (Ne.symm h)]

theorem count_add (t : Tally) (label l : String) :
    (t.add label).count l = t.count l + if label = l then 1 else 0 := by
  induction t with
  | nil =>
    unfold add
    rw [count_cons]
    exact (Nat.zero_add _).symm
  | cons entry t ih =>
    obtain ⟨k, n⟩ := entry
    unfold add
    by_cases hk : k = label
    · rw [if_pos hk, count_cons, count_cons, hk]
      split_ifs <;> rfl
    · rw [if_neg hk, count_cons, count_cons, ih]
      by_cases hl : k = l
      · rw [if_pos hl, if_pos hl, if_neg fun h => hk (hl.trans h.symm)]
        rfl
      · rw [if_neg hl, if_neg hl]

theorem count_foldl_add (labels : List String) (t : Tally) (l : String) :
    (labels.foldl add t).count l = t.count l + labels.count l := by
  induction labels generalizing t with
  | nil => rfl
  | cons label labels ih =>
    rw [List.foldl_cons, ih, count_add, List.count_cons]
    simp only [beq_iff_eq]
    omega

end Tally

/-! ## Operations -/

/-- The mutators of generation. -/
inductive Treatment where
  | passThrough
  | deployment
  deriving DecidableEq, Repr

def Treatment.mutator : Treatment → Mutator
  | passThrough => Mutator.passThrough
  | deployment => Mutator.deployment

/-- A builder with one of the mutators of generation. -/
structure StandardBuilder (ι : Type) extends Builder ι where
  treatment : Treatment
  mutate_eq : mutate = treatment.mutator

/-- A call of the mutator of deployments. -/
structure Mutation where
  draft : Draft
  request : Option Request
  deriving DecidableEq, Repr

/-- Whether a call with a request fails. -/
def Mutation.fails (c : Mutation) : Bool :=
  c.request.isSome && !(Mutator.deployment c.draft c.request).outcome.isOk

namespace StandardBuilder

variable {ι : Type} (input : ι) (request : Option Request)

def succeeds (b : StandardBuilder ι) : Bool := (b.make input request).outcome.isOk

/-- The builders that a run of a table calls: those that are included, up to the first that
fails. -/
def called (table : List (StandardBuilder ι)) : List (StandardBuilder ι) :=
  let included := table.filter (·.includes input)
  included.takeWhile (succeeds input request) ++
    (included.dropWhile (succeeds input request)).take 1

/-- The calls of the mutator of deployments that a run of a table makes. -/
def mutations (table : List (StandardBuilder ι)) : List Mutation :=
  ((called input request table).filter (·.treatment = .deployment)).map fun b =>
    ⟨b.build input, request⟩

end StandardBuilder

/-- What generation is asked for. -/
inductive Operation : Type 1 where
  /-- A run of a pipeline. -/
  | run {ι : Type} (pipeline : String) (table : List (StandardBuilder ι)) (input : ι)
      (request : Option Request)
  /-- One builder by itself. -/
  | create {ι : Type} (b : StandardBuilder ι) (input : ι) (request : Option Request)
  /-- The mutator of deployments by itself. -/
  | mutate (d : Draft) (request : Option Request)

namespace Operation

/-- What is done for an operation. -/
def perform : Operation → Generation (List Resource)
  | run pipeline table input request =>
    runPipeline pipeline (table.map (·.toBuilder)) input request
  | create b input request => b.create input request
  | mutate d request => do return [← Mutator.deployment d request]

/-- What is done for the operations of a history, one after the other, whether or not they fail. -/
def performAll (history : List Operation) :
    StateM Metrics (List (Except GenerationError (List Resource))) :=
  history.mapM fun o => o.perform.run

def isRun : Operation → Bool
  | run .. => true
  | _ => false

def isRunOf (pipeline : String) : Operation → Bool
  | run name .. => name = pipeline
  | _ => false

def fails (o : Operation) : Bool := !o.perform.outcome.isOk

/-- The resources that a successful run of a pipeline gives. -/
def delivered (o : Operation) : List Resource :=
  if o.isRun then o.perform.outcome.toOption.getD [] else []

/-- The calls of the mutator of deployments that are made for an operation. -/
def mutations : Operation → List Mutation
  | run _ table input request => StandardBuilder.mutations input request table
  | create b input request => StandardBuilder.mutations input request [b]
  | mutate d request => [⟨d, request⟩]

end Operation

/-! ## The tables of the library -/

namespace StandardBuilder

variable {ι : Type}

/-- The builders of a table with their mutators, which are of generation. -/
def ofTable : (table : List (Builder ι)) → (treatments : List Treatment) →
    table.map (·.mutate) = treatments.map Treatment.mutator → List (StandardBuilder ι)
  | [], [], _ => []
  | b :: table, t :: treatments, h =>
    ⟨b, t, (List.cons.inj h).1⟩ :: ofTable table treatments (List.cons.inj h).2

theorem map_toBuilder_ofTable {table : List (Builder ι)} {treatments : List Treatment}
    (h : table.map (·.mutate) = treatments.map Treatment.mutator) :
    (ofTable table treatments h).map (·.toBuilder) = table := by
  induction table generalizing treatments with
  | nil =>
    cases treatments with
    | nil => rfl
    | cons t treatments => cases h
  | cons b table ih =>
    cases treatments with
    | nil => cases h
    | cons t treatments =>
      unfold ofTable
      rw [List.map_cons, ih]

end StandardBuilder

theorem Forwarder.map_mutate_builders : builders.map (·.mutate) =
    (List.replicate 5 Treatment.passThrough ++ [Treatment.deployment]).map Treatment.mutator := rfl

theorem ManagedForwarder.map_mutate_builders :
    builders.map (·.mutate) = [Treatment.deployment].map Treatment.mutator := rfl

theorem Collection.map_mutate_builders :
    builders.map (·.mutate) = (List.replicate 6 Treatment.passThrough).map Treatment.mutator := rfl

/-- The builders for a forwarder of its own. -/
def Forwarder.standardBuilders : List (StandardBuilder Forwarder) :=
  StandardBuilder.ofTable builders _ map_mutate_builders

/-- The builders for a forwarder of a collection. -/
def ManagedForwarder.standardBuilders : List (StandardBuilder ManagedForwarder) :=
  StandardBuilder.ofTable builders _ map_mutate_builders

/-- The builders for a collection. -/
def Collection.standardBuilders : List (StandardBuilder Collection) :=
  StandardBuilder.ofTable builders _ map_mutate_builders

namespace Operation

/-- The generation for a forwarder, which belongs to a collection or stands alone. -/
def ofForwarder (p : Forwarder) (collection : Option Collection) (request : Option Request) :
    Operation :=
  match collection with
  | some c => run Forwarder.pipeline ManagedForwarder.standardBuilders ⟨p, c⟩ request
  | none => run Forwarder.pipeline Forwarder.standardBuilders p request

/-- The generation for a collection. -/
def ofCollection (c : Collection) (request : Option Request) : Operation :=
  run Collection.pipeline Collection.standardBuilders c request

theorem perform_run_ofTable {ι : Type} (pipeline : String) {table : List (Builder ι)}
    {treatments : List Treatment}
    (h : table.map (·.mutate) = treatments.map Treatment.mutator) (input : ι)
    (request : Option Request) :
    (run pipeline (StandardBuilder.ofTable table treatments h) input request).perform =
      runPipeline pipeline table input request := by
  unfold perform
  dsimp only
  rw [StandardBuilder.map_toBuilder_ofTable]

theorem perform_ofForwarder (p : Forwarder) (collection : Option Collection)
    (request : Option Request) :
    (ofForwarder p collection request).perform = p.generate collection request := by
  cases collection with
  | some c =>
    exact perform_run_ofTable Forwarder.pipeline ManagedForwarder.map_mutate_builders ⟨p, c⟩ request
  | none => exact perform_run_ofTable Forwarder.pipeline Forwarder.map_mutate_builders p request

theorem perform_ofCollection (c : Collection) (request : Option Request) :
    (ofCollection c request).perform = c.generate request :=
  perform_run_ofTable Collection.pipeline Collection.map_mutate_builders c request

end Operation

/-- Whether a history of operations is all that was counted between two states of the counters. -/
structure Counted (m : Metrics) (history : List Operation) (m' : Metrics) : Prop where
  generations : ∀ pipeline, m'.generations.count pipeline =
    m.generations.count pipeline + history.countP (·.isRunOf pipeline)
  generationErrors : ∀ pipeline, m'.generationErrors.count pipeline =
    m.generationErrors.count pipeline + history.countP fun o => o.isRunOf pipeline && o.fails
  durations : m'.durations = m.durations + history.countP (·.isRun)
  resourcesGenerated : ∀ kind, m'.resourcesGenerated.count kind =
    m.resourcesGenerated.count kind + (history.flatMap (·.delivered)).countP (·.kind = kind)
  mutationFailures : m'.mutationFailures =
    m.mutationFailures + (history.flatMap (·.mutations)).countP (·.fails)

theorem Counted.refl (m : Metrics) : Counted m [] m where
  generations _ := rfl
  generationErrors _ := rfl
  durations := rfl
  resourcesGenerated _ := rfl
  mutationFailures := rfl

theorem Counted.trans {m m₁ m₂ : Metrics} {past history : List Operation}
    (h : Counted m past m₁) (h' : Counted m₁ history m₂) : Counted m (past ++ history) m₂ where
  generations pipeline := by
    rw [h'.generations, h.generations, List.countP_append, Nat.add_assoc]
  generationErrors pipeline := by
    rw [h'.generationErrors, h.generationErrors, List.countP_append, Nat.add_assoc]
  durations := by
    rw [h'.durations, h.durations, List.countP_append, Nat.add_assoc]
  resourcesGenerated kind := by
    rw [h'.resourcesGenerated, h.resourcesGenerated, List.flatMap_append, List.countP_append,
      Nat.add_assoc]
  mutationFailures := by
    rw [h'.mutationFailures, h.mutationFailures, List.flatMap_append, List.countP_append,
      Nat.add_assoc]

/-! ## Failures are counted once -/

theorem isOk_mapM {ε α β : Type} (f : α → Except ε β) (xs : List α) :
    (xs.mapM f).isOk = xs.all fun x => (f x).isOk := by
  induction xs with
  | nil => rfl
  | cons x xs ih =>
    rw [List.mapM_cons, List.all_cons, ← ih]
    cases f x with
    | error e => rfl
    | ok y => cases xs.mapM f <;> rfl

/-- Up to the first item that fails a test, there is one that fails it, or all pass. -/
theorem countP_upTo_first {α : Type} (p : α → Bool) (xs : List α) :
    (xs.takeWhile p ++ (xs.dropWhile p).take 1).countP (fun x => !p x) =
      if xs.all p then 0 else 1 := by
  induction xs with
  | nil => rfl
  | cons x xs ih =>
    cases hx : p x with
    | true =>
      rw [List.takeWhile_cons_of_pos hx, List.dropWhile_cons_of_pos hx, List.cons_append,
        List.countP_cons_of_neg (by simp [hx]), ih, List.all_cons, hx, Bool.true_and]
    | false =>
      rw [List.takeWhile_cons_of_neg (by simp [hx]), List.dropWhile_cons_of_neg (by simp [hx]),
        List.all_cons, hx]
      simp [hx]

theorem Mutation.fails_eq (c : Mutation) :
    c.fails = !(Mutator.deployment c.draft c.request).outcome.isOk := by
  obtain ⟨d, request⟩ := c
  -- Without a request the mutator leaves the draft as it is, and cannot fail.
  cases request with
  | none => rfl
  | some request => exact Bool.true_and _

namespace StandardBuilder

variable {ι : Type} (input : ι) (request : Option Request)

theorem countsFailure_make (b : StandardBuilder ι) : (b.make input request).CountsFailure := by
  unfold Builder.make
  rw [b.mutate_eq]
  cases b.treatment with
  | passThrough => exact countsFailure_passThrough (b.build input) request
  | deployment => exact countsFailure_deployment (b.build input) request

/-- A builder fails only where its call of the mutator of deployments does. -/
theorem fails_eq (b : StandardBuilder ι) :
    ((⟨b.build input, request⟩ : Mutation).fails && b.treatment = .deployment) =
      !b.succeeds input request := by
  rw [Mutation.fails_eq]
  unfold succeeds Builder.make
  rw [b.mutate_eq]
  cases b.treatment with
  | passThrough => exact Bool.and_false _
  | deployment => exact Bool.and_true _

theorem countsFailure_of_mem {table : List (StandardBuilder ι)} :
    ∀ b ∈ table.map (·.toBuilder), (b.make input request).CountsFailure := by
  intro b hb
  obtain ⟨c, -, rfl⟩ := List.mem_map.mp hb
  exact c.countsFailure_make input request

theorem countsFailure_runAll (table : List (StandardBuilder ι)) :
    (runAll input request (table.map (·.toBuilder))).CountsFailure := by
  rw [runAll_eq_mapM]
  apply countsFailure_mapM
  intro b hb
  exact countsFailure_of_mem input request b (List.mem_filter.mp hb).1

theorem isOk_outcome_runAll (table : List (StandardBuilder ι)) :
    (runAll input request (table.map (·.toBuilder))).outcome.isOk =
      (table.filter (·.includes input)).all (succeeds input request) := by
  -- Mutators do not look at counters, so each builder decides by itself.
  rw [outcome_runAll fun b hb => (countsFailure_of_mem input request b hb).steady, isOk_mapM]
  unfold selected
  rw [List.filter_map, List.all_map]
  rfl

theorem outcome_runPipeline (pipeline : String) (table : List (StandardBuilder ι)) :
    (runPipeline pipeline (table.map (·.toBuilder)) input request).outcome =
      (runAll input request (table.map (·.toBuilder))).outcome := by
  unfold outcome
  rw [result_runPipeline]
  exact (countsFailure_runAll input request table).steady _

/-- A run that fails has one call of the mutator of deployments that fails, and a run that does not
has none. -/
theorem countP_mutations (table : List (StandardBuilder ι)) :
    (mutations input request table).countP (·.fails) =
      if (runAll input request (table.map (·.toBuilder))).outcome.isOk then 0 else 1 := by
  unfold mutations
  rw [List.countP_map, List.countP_filter, isOk_outcome_runAll, ← countP_upTo_first]
  unfold called
  apply List.countP_congr
  intro b _
  rw [← fails_eq]
  rfl

end StandardBuilder

namespace Operation

theorem runAll_singleton {ι : Type} (b : Builder ι) (input : ι) (request : Option Request) :
    runAll input request [b] = b.create input request := by
  rw [runAll_eq_flatten, List.mapM_cons, List.mapM_nil]
  simp

/-- A failed operation has one call of the mutator of deployments that fails, and any other has
none. -/
theorem countP_mutations (o : Operation) :
    o.mutations.countP (·.fails) = if o.fails then 1 else 0 := by
  unfold fails
  cases o with
  | run pipeline table input request =>
    unfold mutations perform
    rw [StandardBuilder.countP_mutations, StandardBuilder.outcome_runPipeline]
    cases (runAll input request (table.map (·.toBuilder))).outcome <;> rfl
  | create b input request =>
    unfold mutations perform
    rw [StandardBuilder.countP_mutations, List.map_singleton, runAll_singleton]
    cases (b.create input request).outcome <;> rfl
  | mutate d request =>
    unfold mutations perform
    rw [List.countP_singleton, Mutation.fails_eq, outcome_bind fun _ => steady_pure _]
    cases (Mutator.deployment d request).outcome <;> rfl

/-! ## What an operation counts -/

theorem countsFailure_create {ι : Type} (b : StandardBuilder ι) (input : ι)
    (request : Option Request) : (create b input request).perform.CountsFailure := by
  show (b.create input request).CountsFailure
  rw [← runAll_singleton]
  exact StandardBuilder.countsFailure_runAll input request [b]

theorem countsFailure_mutate (d : Draft) (request : Option Request) :
    (mutate d request).perform.CountsFailure :=
  (countsFailure_deployment d request).bind fun _ => countsFailure_pure _

theorem counted_singleton {o : Operation} {m m' : Metrics}
    (generations : ∀ pipeline, m'.generations.count pipeline =
      m.generations.count pipeline + if o.isRunOf pipeline then 1 else 0)
    (generationErrors : ∀ pipeline, m'.generationErrors.count pipeline =
      m.generationErrors.count pipeline + if o.isRunOf pipeline && o.fails then 1 else 0)
    (durations : m'.durations = m.durations + if o.isRun then 1 else 0)
    (resourcesGenerated : ∀ kind, m'.resourcesGenerated.count kind =
      m.resourcesGenerated.count kind + o.delivered.countP (·.kind = kind))
    (mutationFailures : m'.mutationFailures = m.mutationFailures + if o.fails then 1 else 0) :
    Counted m [o] m' where
  generations pipeline := by rw [generations, List.countP_singleton]
  generationErrors pipeline := by rw [generationErrors, List.countP_singleton]
  durations := by rw [durations, List.countP_singleton]
  resourcesGenerated kind := by rw [resourcesGenerated, List.flatMap_singleton]
  mutationFailures := by rw [mutationFailures, List.flatMap_singleton, countP_mutations]

theorem isRunOf_of_not_isRun {o : Operation} (h : ¬ o.isRun) (pipeline : String) :
    o.isRunOf pipeline = false := by
  cases o with
  | run => exact absurd rfl h
  | create => rfl
  | mutate => rfl

section

variable {o : Operation} {e : GenerationError} {rs : List Resource}

theorem fails_of_error (h : o.perform.outcome = .error e) : o.fails = true := by
  unfold fails
  rw [h]
  rfl

theorem fails_of_ok (h : o.perform.outcome = .ok rs) : o.fails = false := by
  unfold fails
  rw [h]
  rfl

theorem delivered_of_error (h : o.perform.outcome = .error e) : o.delivered = [] := by
  unfold delivered
  rw [h]
  exact ite_self _

theorem delivered_of_ok (hrun : o.isRun) (h : o.perform.outcome = .ok rs) : o.delivered = rs := by
  unfold delivered
  rw [if_pos hrun, h]
  rfl

end

/-- The counters after a step that counts its failure and nothing else. -/
theorem counters_of_countsFailure {o : Operation} (h : o.perform.CountsFailure) (m : Metrics) :
    (o.perform.run.run m).2 =
      { m with mutationFailures := m.mutationFailures + if o.fails then 1 else 0 } := by
  rw [h m]
  cases hout : o.perform.outcome with
  | error e =>
    rw [fails_of_error hout]
    rfl
  | ok rs =>
    rw [fails_of_ok hout]
    rfl

/-- Outside of pipelines only failures are counted. -/
theorem counted_of_not_isRun {o : Operation} (hrun : ¬ o.isRun) (h : o.perform.CountsFailure)
    (m : Metrics) : Counted m [o] (o.perform.run.run m).2 := by
  rw [counters_of_countsFailure h]
  apply counted_singleton
  case generations =>
    intro pipeline
    rw [isRunOf_of_not_isRun hrun]
    rfl
  case generationErrors =>
    intro pipeline
    rw [isRunOf_of_not_isRun hrun]
    rfl
  case durations =>
    rw [if_neg hrun]
    rfl
  case resourcesGenerated =>
    intro kind
    have hdelivered : o.delivered = [] := if_neg hrun
    rw [hdelivered]
    rfl
  case mutationFailures => rfl

theorem foldl_countResource (rs : List Resource) (m : Metrics) :
    rs.foldl (fun m r => m.countResource r.kind) m =
      { m with
        resourcesGenerated := (rs.map Resource.kind).foldl Tally.add m.resourcesGenerated } := by
  induction rs generalizing m with
  | nil => rfl
  | cons r rs ih =>
    rw [List.foldl_cons, ih]
    rfl

/-- The counters after a run of a pipeline, by what comes of it. -/
theorem counters_run {ι : Type} (pipeline : String) (table : List (StandardBuilder ι)) (input : ι)
    (request : Option Request) (m : Metrics) :
    ((run pipeline table input request).perform.run.run m).2 =
      countResult pipeline
        (if (run pipeline table input request).perform.outcome.isOk then
          m.countGeneration pipeline
        else (m.countGeneration pipeline).countMutationFailure).countDuration
        (run pipeline table input request).perform.outcome := by
  have hcounts := StandardBuilder.countsFailure_runAll input request table
    (m.countGeneration pipeline)
  have houtcome : (run pipeline table input request).perform.outcome =
      (runAll input request (table.map (·.toBuilder))).outcome :=
    StandardBuilder.outcome_runPipeline input request pipeline table
  rw [houtcome]
  show countResult pipeline
    ((runAll input request (table.map (·.toBuilder))).run.run
      (m.countGeneration pipeline)).2.countDuration
    ((runAll input request (table.map (·.toBuilder))).run.run (m.countGeneration pipeline)).1 = _
  rw [hcounts]

/-- A run of a pipeline counts itself, its failure, its duration and what it gives. -/
theorem counted_run {ι : Type} (pipeline : String) (table : List (StandardBuilder ι)) (input : ι)
    (request : Option Request) (m : Metrics) :
    Counted m [run pipeline table input request]
      ((run pipeline table input request).perform.run.run m).2 := by
  have hadd (t : Tally) (l : String) : (t.add pipeline).count l =
      t.count l + if (run pipeline table input request).isRunOf l then 1 else 0 := by
    unfold isRunOf
    simp only [decide_eq_true_eq]
    exact t.count_add pipeline l
  -- What comes of the run decides which of the counters go up.
  rw [counters_run]
  cases hout : (run pipeline table input request).perform.outcome with
  | error e =>
    have hfails := fails_of_error hout
    apply counted_singleton
    case generations => exact hadd _
    case generationErrors =>
      intro l
      rw [hfails, Bool.and_true]
      exact hadd _ l
    case durations => rfl
    case resourcesGenerated =>
      intro kind
      rw [delivered_of_error hout]
      rfl
    case mutationFailures =>
      rw [hfails]
      rfl
  | ok rs =>
    have hfails := fails_of_ok hout
    show Counted m _ (rs.foldl (fun m r => m.countResource r.kind)
      (m.countGeneration pipeline).countDuration)
    rw [foldl_countResource]
    apply counted_singleton
    case generations => exact hadd _
    case generationErrors =>
      intro l
      rw [hfails, Bool.and_false]
      rfl
    case durations => rfl
    case resourcesGenerated =>
      intro kind
      rw [delivered_of_ok rfl hout, Tally.count_foldl_add, List.count_eq_countP, List.countP_map]
      rfl
    case mutationFailures =>
      rw [hfails]
      rfl

/-- **One operation is counted rightly**, whatever was counted before. -/
theorem counted_perform (o : Operation) (m : Metrics) :
    Counted m [o] (o.perform.run.run m).2 := by
  cases o with
  | run pipeline table input request => exact counted_run pipeline table input request m
  | create b input request =>
    have hrun : ¬ (create b input request).isRun := Bool.false_ne_true
    exact counted_of_not_isRun hrun (countsFailure_create b input request) m
  | mutate d request =>
    have hrun : ¬ (mutate d request).isRun := Bool.false_ne_true
    exact counted_of_not_isRun hrun (countsFailure_mutate d request) m

theorem steady_perform (o : Operation) : o.perform.Steady := by
  cases o with
  | run pipeline table input request =>
    intro m
    -- A pipeline counts its run first, which the run does not see.
    rw [perform, StandardBuilder.outcome_runPipeline, result_runPipeline]
    exact (StandardBuilder.countsFailure_runAll input request table).steady _
  | create b input request => exact (countsFailure_create b input request).steady
  | mutate d request => exact (countsFailure_mutate d request).steady

/-! ## Histories -/

theorem run_performAll_cons (o : Operation) (history : List Operation) (m : Metrics) :
    (performAll (o :: history)).run m =
      ((o.perform.run.run m).1 :: ((performAll history).run (o.perform.run.run m).2).1,
        ((performAll history).run (o.perform.run.run m).2).2) := by
  unfold performAll
  rw [List.mapM_cons]
  rfl

theorem results_performAll (history : List Operation) (m : Metrics) :
    ((performAll history).run m).1 = history.map (·.perform.outcome) := by
  induction history generalizing m with
  | nil => rfl
  | cons o history ih =>
    rw [run_performAll_cons, ih, o.steady_perform m]
    rfl

/-- **A history is counted rightly**, whatever was counted before. -/
theorem counted_performAll (history : List Operation) (m : Metrics) :
    Counted m history ((performAll history).run m).2 := by
  -- Each operation starts from the counters that those before it leave.
  induction history generalizing m with
  | nil => exact Counted.refl m
  | cons o history ih =>
    rw [run_performAll_cons]
    exact (o.counted_perform m).trans (ih _)

/-- **Counters add up.** After any history of operations, from counters at zero, whatever fails in
it: the runs of each pipeline and the failed ones among them are counted, so there are at most as
many of these; there is a duration for each run; the resources of each kind are counted that
successful runs gave, and no others; and so are the calls of the mutator of deployments that failed
in answer to a request. Each operation fails or succeeds as it does by itself, and adds one such
call if it fails, and none if it succeeds. -/
theorem performAll_accounts (history : List Operation) :
    let m := ((performAll history).run {}).2
    ((performAll history).run {}).1 = history.map (·.perform.outcome) ∧
    (∀ pipeline, m.generations.count pipeline = history.countP (·.isRunOf pipeline)) ∧
    (∀ pipeline, m.generationErrors.count pipeline =
      history.countP fun o => o.isRunOf pipeline && o.fails) ∧
    (∀ pipeline, m.generationErrors.count pipeline ≤ m.generations.count pipeline) ∧
    m.durations = history.countP (·.isRun) ∧
    (∀ kind, m.resourcesGenerated.count kind =
      (history.flatMap (·.delivered)).countP (·.kind = kind)) ∧
    m.mutationFailures = (history.flatMap (·.mutations)).countP (·.fails) ∧
    ∀ (o : Operation) (m : Metrics), (o.perform.run.run m).2.mutationFailures =
      m.mutationFailures + if o.fails then 1 else 0 := by
  intro m
  have h : Counted {} history m := counted_performAll history {}
  have hgenerations (pipeline : String) :
      m.generations.count pipeline = history.countP (·.isRunOf pipeline) :=
    (h.generations pipeline).trans (Nat.zero_add _)
  have herrors (pipeline : String) : m.generationErrors.count pipeline =
      history.countP fun o => o.isRunOf pipeline && o.fails :=
    (h.generationErrors pipeline).trans (Nat.zero_add _)
  refine ⟨results_performAll history {}, hgenerations, herrors, ?_,
    h.durations.trans (Nat.zero_add _), ?_, h.mutationFailures.trans (Nat.zero_add _), ?_⟩
  · intro pipeline
    rw [hgenerations, herrors]
    apply List.countP_mono_left
    intro o _ ho
    exact (Bool.and_eq_true_iff.mp ho).1
  · intro kind
    exact (h.resourcesGenerated kind).trans (Nat.zero_add _)
  · intro o m
    rw [(o.counted_perform m).mutationFailures, List.flatMap_singleton, countP_mutations]

/-- A history with a forwarder of its own, a collection and a forwarder of it, a pipeline that makes
a deployment without containers, and such a deployment by itself. Only the last two fail. -/
theorem performAll_accounts_of_failures :
    let p : Forwarder :=
      { metadata := { name := some "sample" }, spec := { ocm := { clusterId := "abc123" } } }
    let c : Collection := { metadata := { name := some "shared" }, spec := {} }
    let request : Option Request := some ⟨"sample", none⟩
    let empty : StandardBuilder Unit :=
      ⟨⟨"deployment", none, fun _ => .map [], Mutator.deployment⟩, .deployment, rfl⟩
    let history := [ofForwarder p none request, ofCollection c request,
      ofForwarder p (some c) request, run "empty" [empty] () request, mutate (.map []) request]
    let m := ((performAll history).run {}).2
    m.generations.count Forwarder.pipeline = 2 ∧ m.generations.count Collection.pipeline = 1 ∧
      m.generationErrors.count Forwarder.pipeline = 0 ∧ m.generationErrors.count "empty" = 1 ∧
      m.durations = 4 ∧ m.resourcesGenerated.count "Deployment" = 2 ∧
      m.resourcesGenerated.count "Role" = 4 ∧ m.mutationFailures = 2 := by
  intro p c request empty history m
  obtain ⟨-, hgenerations, herrors, -, hdurations, hresources, hfailures, -⟩ :=
    performAll_accounts history
  refine ⟨(hgenerations _).trans ?_, (hgenerations _).trans ?_, (herrors _).trans ?_,
    (herrors _).trans ?_, hdurations.trans ?_, (hresources _).trans ?_, (hresources _).trans ?_,
    hfailures.trans ?_⟩
  all_goals decide +kernel

end Operation

end LogForwarder
