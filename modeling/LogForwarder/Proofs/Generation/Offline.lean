import LogForwarder.Proofs.Generation.Accounts
import LogForwarder.Proofs.Generation.ForwarderNames

/-!
# Generation from manifests

Manifests are read and checked before anything is built, and whatever can keep a resource from being
built is refused by the checks. So generation from manifests gives everything or nothing.

1. Reading and checking fail only because of what was given (`Forwarder.failsOnInput_ofManifests`).
2. Without a request builders only build: a run gives its drafts and counts itself
   (`Builder.run_runPipeline_offline`).
3. Checked workloads let the guards of all builders through, so `AllOrNothing` holds of forwarders
   and of collections (`offline_allOrNothing`).
-/

namespace LogForwarder

/-! ## Errors of what was given -/

/-- Whether something fails only because of what was given. -/
def FailsOnInput {α : Type} (result : Except GenerationError α) : Prop :=
  ∀ e, result = .error e → e.isInputError

section

variable {α β : Type}

theorem failsOnInput_ok (a : α) : FailsOnInput (.ok a) := by
  intro e h
  cases h

theorem FailsOnInput.bind {x : Except GenerationError α} {f : α → Except GenerationError β}
    (hx : FailsOnInput x) (hf : ∀ a, FailsOnInput (f a)) : FailsOnInput (x >>= f) := by
  cases x with
  | error e =>
    intro e' h
    cases h
    exact hx e rfl
  | ok a => exact hf a

end

theorem Manifest.failsOnInput_read (schema : Schema) (kind text : String) :
    FailsOnInput (read schema kind text) := by
  intro e h
  unfold read at h
  split at h
  · cases h
    rfl
  · split at h
    · cases h
    · cases h
      rfl

theorem Manifest.failsOnInput_parse (σ : Type) [WorkloadKind σ] (text : String) :
    FailsOnInput (parse σ text) := by
  have envelope : FailsOnInput (envelope (WorkloadKind.kind σ) text) := by
    unfold Manifest.envelope
    exact (failsOnInput_read Envelope.schema _ text).bind fun v => failsOnInput_ok _
  refine envelope.bind fun found => ?_
  dsimp only
  split_ifs
  · exact (failsOnInput_read _ _ _).bind fun v => failsOnInput_ok _
  · intro e h
    cases h
    rfl

theorem Validation.failsOnInput_orError (kind : String) (r : Checked) :
    FailsOnInput (orError kind r) := by
  cases r with
  | ok => exact failsOnInput_ok ()
  | error c =>
    intro e h
    cases h
    rfl

theorem Collection.failsOnInput_ofManifest (manifest : String) :
    FailsOnInput (ofManifest manifest) :=
  (Manifest.failsOnInput_parse CollectionSpec manifest).bind fun _ =>
    (Validation.failsOnInput_orError _ _).bind fun _ => failsOnInput_ok _

theorem Forwarder.failsOnInput_ofManifests (workload : String) (collection : Option String) :
    FailsOnInput (ofManifests workload collection) := by
  refine (Manifest.failsOnInput_parse ForwarderSpec workload).bind fun p =>
    (Validation.failsOnInput_orError _ _).bind fun _ => ?_
  cases collection with
  | none => exact failsOnInput_ok _
  | some manifest =>
    exact (Collection.failsOnInput_ofManifest manifest).bind fun _ => failsOnInput_ok _

/-! ## Runs without a request -/

/-- Whether one run of a pipeline that gave some resources is all that was counted between two
states of the counters. -/
structure RunCounted (pipeline : String) (rs : List Resource) (m m' : Metrics) : Prop where
  generations : ∀ label, m'.generations.count label =
    m.generations.count label + if pipeline = label then 1 else 0
  generationErrors : m'.generationErrors = m.generationErrors
  durations : m'.durations = m.durations + 1
  resourcesGenerated : ∀ kind, m'.resourcesGenerated.count kind =
    m.resourcesGenerated.count kind + rs.countP (·.kind = kind)
  mutationFailures : m'.mutationFailures = m.mutationFailures

namespace Builder

variable {ι : Type} {input : ι} {bs : List (Builder ι)}

/-- What builders build from an input. -/
def drafts (input : ι) (bs : List (Builder ι)) : List Resource :=
  bs.map fun b => .untyped (b.build input)

theorem runAll_offline (hmutate : ∀ b ∈ bs, ∀ d, b.mutate d none = pure (.untyped d))
    (hall : ∀ b ∈ bs, b.includes input) : runAll input none bs = pure (drafts input bs) := by
  induction bs with
  | nil => rfl
  | cons b bs ih =>
    obtain ⟨hb, hmutate⟩ := List.forall_mem_cons.mp hmutate
    obtain ⟨hincluded, hall⟩ := List.forall_mem_cons.mp hall
    have first : b.create input none = pure [.untyped (b.build input)] := by
      unfold create
      rw [if_pos hincluded, hb]
      rfl
    rw [runAll, first, ih hmutate hall]
    rfl

theorem runCounted_countResult (pipeline : String) (rs : List Resource) (m : Metrics) :
    RunCounted pipeline rs m
      (countResult pipeline (m.countGeneration pipeline).countDuration (.ok rs)) := by
  have folded := Operation.foldl_countResource rs (m.countGeneration pipeline).countDuration
  constructor
  case generations =>
    intro label
    rw [countResult, folded]
    exact Tally.count_add _ _ _
  case resourcesGenerated =>
    intro kind
    rw [countResult, folded]
    show Tally.count (List.foldl _ _ _) _ = _
    rw [Tally.count_foldl_add, List.count_eq_countP, List.countP_map]
    rfl
  all_goals
    rw [countResult, folded]
    rfl

/-- A run of builders that are all included gives what they build, and counts itself. -/
theorem run_runPipeline_offline (hmutate : ∀ b ∈ bs, ∀ d, b.mutate d none = pure (.untyped d))
    (hall : ∀ b ∈ bs, b.includes input) (pipeline : String) (m : Metrics) :
    ∃ m', (runPipeline pipeline bs input none).run.run m = (.ok (drafts input bs), m') ∧
      RunCounted pipeline (drafts input bs) m m' := by
  refine ⟨_, ?_, runCounted_countResult pipeline _ m⟩
  unfold runPipeline
  rw [runAll_offline hmutate hall]
  rfl

end Builder

/-! ## Everything or nothing -/

/-- Whether generation from manifests gives everything or nothing: all that `generate` gives of what
was read, or the error of reading it. -/
structure AllOrNothing {α : Type} (offline : Generation (List Resource))
    (read : Except GenerationError α) (generate : α → Generation (List Resource))
    (pipeline : String) (size : Nat) : Prop where
  /-- A failure is one of what was given. Nothing is done but to report it, so no builder runs, and
  nothing is counted. -/
  refuses : ∀ m e m', offline.run.run m = (.error e, m') →
    read = .error e ∧ e.isInputError ∧ offline = Generation.ofExcept (.error e) ∧ m' = m
  /-- A success is one of generation, with as many drafts as there are builders, and one run is
  counted. -/
  generates : ∀ m rs m', offline.run.run m = (.ok rs, m') →
    ∃ a, read = .ok a ∧ (generate a).run.run m = (.ok rs, m') ∧ (∀ r ∈ rs, r.isTyped = false) ∧
      rs.length = size ∧ RunCounted pipeline rs m m'

section

variable {α ι : Type} {read : Except GenerationError α} {generate : α → Generation (List Resource)}
  {pipeline : String} {size : Nat}

/-- What is read and then generated is all or nothing, if what was read includes every builder. -/
theorem allOrNothing_of_runs (hread : FailsOnInput read)
    (hruns : ∀ a, read = .ok a → ∀ m, ∃ rs m', (generate a).run.run m = (.ok rs, m') ∧
      (∀ r ∈ rs, r.isTyped = false) ∧ rs.length = size ∧ RunCounted pipeline rs m m') :
    AllOrNothing (Generation.ofExcept read >>= generate) read generate pipeline size := by
  cases hout : read with
  | error e =>
    rw [hout] at hread
    refine ⟨?_, ?_⟩
    · intro m e' m' h
      cases h
      exact ⟨rfl, hread e rfl, rfl, rfl⟩
    · intro m rs m' h
      cases h
  | ok a =>
    have same (m : Metrics) : (Generation.ofExcept (.ok a) >>= generate).run.run m =
        (generate a).run.run m := rfl
    refine ⟨?_, ?_⟩
    · intro m e m' h
      obtain ⟨rs, m₁, hrun, -⟩ := hruns a hout m
      rw [same, hrun] at h
      cases h
    · intro m rs m' h
      obtain ⟨rs₁, m₁, hrun, hfacts⟩ := hruns a hout m
      rw [same, hrun] at h
      cases h
      exact ⟨a, rfl, hrun, hfacts⟩

theorem isSome_of_mapM {ε β : Type} {f : α → Except ε β} {o : Option α} {o' : Option β}
    (h : o.mapM f = .ok o') : o'.isSome = o.isSome := by
  cases o with
  | none =>
    cases h
    rfl
  | some a =>
    obtain ⟨b, -, h⟩ := bind_eq_ok.mp h
    cases h
    rfl

theorem isTyped_of_mem_drafts {input : ι} {bs : List (Builder ι)} :
    ∀ r ∈ Builder.drafts input bs, r.isTyped = false := by
  intro r hr
  obtain ⟨b, -, rfl⟩ := List.mem_map.mp hr
  rfl

end

namespace Forwarder

/-- The builders that run for a checked forwarder are all included. -/
theorem run_generate_offline {p : Forwarder} {c : Option Collection} (hp : p.usesElasticsearch)
    (hc : ∀ d ∈ c, d.usesElasticsearch) (m : Metrics) :
    ∃ rs m', (generate p c none).run.run m = (.ok rs, m') ∧ (∀ r ∈ rs, r.isTyped = false) ∧
      rs.length = (if c.isSome then 1 else 6) ∧ RunCounted pipeline rs m m' := by
  cases c with
  | none =>
    have hmutate : ∀ b ∈ builders, ∀ d, b.mutate d none = pure (.untyped d) := by
      simp [builders, Mutator.passThrough, Mutator.deployment]
    have hall : ∀ b ∈ builders, b.includes p := by
      simp [builders, Builder.includes, hp]
    obtain ⟨m', hrun, hcounted⟩ := Builder.run_runPipeline_offline hmutate hall pipeline m
    exact ⟨_, m', hrun, isTyped_of_mem_drafts, rfl, hcounted⟩
  | some c =>
    have hserved : c.usesElasticsearch := hc c rfl
    have hmutate : ∀ b ∈ ManagedForwarder.builders, ∀ d, b.mutate d none = pure (.untyped d) := by
      simp [ManagedForwarder.builders, Mutator.deployment]
    have hall : ∀ b ∈ ManagedForwarder.builders, b.includes ⟨p, c⟩ := by
      intro b hb
      rw [List.mem_singleton.mp hb]
      exact hserved
    obtain ⟨m', hrun, hcounted⟩ := Builder.run_runPipeline_offline hmutate hall pipeline m
    exact ⟨_, m', hrun, isTyped_of_mem_drafts, rfl, hcounted⟩

/-- What is read from manifests is what they parse as. -/
theorem parse_of_ofManifests {workload : String} {collection : Option String}
    {p : Forwarder} {c : Option Collection} (h : ofManifests workload collection = .ok (p, c)) :
    Manifest.parse ForwarderSpec workload = .ok p ∧
      collection.mapM (Manifest.parse CollectionSpec) = .ok c := by
  obtain ⟨q, hparse, h⟩ := bind_eq_ok.mp h
  obtain ⟨⟨⟩, -, h⟩ := bind_eq_ok.mp h
  cases collection with
  | none =>
    cases h
    exact ⟨hparse, rfl⟩
  | some manifest =>
    obtain ⟨d, hread, h⟩ := bind_eq_ok.mp h
    cases h
    obtain ⟨d', hparse', hread⟩ := bind_eq_ok.mp hread
    obtain ⟨⟨⟩, -, hread⟩ := bind_eq_ok.mp hread
    cases hread
    exact ⟨hparse, bind_eq_ok.mpr ⟨d, hparse', rfl⟩⟩

/-- A forwarder that is refused is refused whatever is given as its collection. -/
theorem ofManifests_of_error {workload : String} {e : GenerationError}
    (h : (do let p ← Manifest.parse ForwarderSpec workload; validate p) = .error e)
    (collection : Option String) : ofManifests workload collection = .error e := by
  unfold ofManifests
  cases hparse : Manifest.parse ForwarderSpec workload with
  | error e' =>
    rw [hparse] at h
    cases h
    rfl
  | ok p =>
    rw [hparse] at h
    have hvalid : validate p = .error e := h
    show (do validate p; _) = _
    rw [hvalid]
    rfl

end Forwarder

theorem Collection.run_generate_offline {c : Collection} (hc : c.usesElasticsearch) (m : Metrics) :
    ∃ rs m', (generate c none).run.run m = (.ok rs, m') ∧ (∀ r ∈ rs, r.isTyped = false) ∧
      rs.length = 6 ∧ RunCounted pipeline rs m m' := by
  have hmutate : ∀ b ∈ builders, ∀ d, b.mutate d none = pure (.untyped d) := by
    simp [builders, Mutator.passThrough]
  have hall : ∀ b ∈ builders, b.includes c := by
    simp [builders, Builder.includes, hc]
  obtain ⟨m', hrun, hcounted⟩ := Builder.run_runPipeline_offline hmutate hall pipeline m
  exact ⟨_, m', hrun, isTyped_of_mem_drafts, rfl, hcounted⟩

theorem Collection.parse_of_ofManifest {manifest : String} {c : Collection}
    (h : ofManifest manifest = .ok c) : Manifest.parse CollectionSpec manifest = .ok c := by
  obtain ⟨d, hparse, h⟩ := bind_eq_ok.mp h
  obtain ⟨⟨⟩, -, h⟩ := bind_eq_ok.mp h
  cases h
  exact hparse

/-- **Everything or nothing.** Generation from manifests fails only because of what was given, and
then does nothing. Else it gives what generation gives of what the manifests parse as, without a
request: six drafts for a forwarder of its own and for a collection, and one for a forwarder of a
collection. A manifest of a forwarder that is refused is refused with the same error whatever is
given as the collection. -/
theorem offline_allOrNothing (workload : String) (collection : Option String) (manifest : String) :
    AllOrNothing (Forwarder.generateOffline workload collection)
        (Forwarder.ofManifests workload collection) (fun w => Forwarder.generate w.1 w.2 none)
        Forwarder.pipeline (if collection.isSome then 1 else 6) ∧
      (∀ w, Forwarder.ofManifests workload collection = .ok w →
        Manifest.parse ForwarderSpec workload = .ok w.1 ∧
          collection.mapM (Manifest.parse CollectionSpec) = .ok w.2) ∧
      (∀ e, (do let p ← Manifest.parse ForwarderSpec workload; Forwarder.validate p) = .error e →
        Forwarder.generateOffline workload collection = Generation.ofExcept (.error e)) ∧
      AllOrNothing (Collection.generateOffline manifest) (Collection.ofManifest manifest)
        (fun c => Collection.generate c none) Collection.pipeline 6 ∧
      ∀ c, Collection.ofManifest manifest = .ok c →
        Manifest.parse CollectionSpec manifest = .ok c := by
  refine ⟨?_, fun _ => Forwarder.parse_of_ofManifests, ?_, ?_, fun _ =>
    Collection.parse_of_ofManifest⟩
  · refine allOrNothing_of_runs (Forwarder.failsOnInput_ofManifests _ _) ?_
    rintro ⟨p, c⟩ hw m
    obtain ⟨hforwarder, hcollection⟩ := Forwarder.checked_of_ofManifests hw
    have hserved : ∀ d ∈ c, d.usesElasticsearch := fun d hd =>
      (Collection.of_checkCollection (hcollection d hd)).2.2
    have hsame : c.isSome = collection.isSome :=
      isSome_of_mapM (Forwarder.parse_of_ofManifests hw).2
    rw [← hsame]
    exact Forwarder.run_generate_offline (Forwarder.accepted_of_checkForwarder hforwarder).served
      hserved m
  · intro e h
    unfold Forwarder.generateOffline
    rw [Forwarder.ofManifests_of_error h]
    rfl
  · refine allOrNothing_of_runs (Collection.failsOnInput_ofManifest _) ?_
    intro c hc
    obtain ⟨-, -, hserved⟩ := Collection.of_checkCollection (Collection.checked_of_ofManifest hc)
    exact Collection.run_generate_offline hserved

/-- A forwarder that has a name and a cluster, and nothing else, gets its six drafts, and one run is
counted. -/
theorem offline_sample :
    ∃ rs m, (Forwarder.generateOffline Forwarder.sampleManifest none).run.run {} = (.ok rs, m) ∧
      (∀ r ∈ rs, r.isTyped = false) ∧ rs.length = 6 ∧ RunCounted Forwarder.pipeline rs {} m := by
  have hserved : Forwarder.sample.usesElasticsearch := rfl
  obtain ⟨rs, m, hrun, -⟩ := Forwarder.run_generate_offline (c := none) hserved (by simp) {}
  have hoffline : (Forwarder.generateOffline Forwarder.sampleManifest none).run.run {} =
      (.ok rs, m) := by
    unfold Forwarder.generateOffline
    rw [Forwarder.ofManifests_sample_none]
    exact hrun
  obtain ⟨w, -, -, htyped, hsize, hcounted⟩ :=
    (offline_allOrNothing Forwarder.sampleManifest none "").1.generates {} rs m hoffline
  exact ⟨rs, m, hoffline, htyped, hsize, hcounted⟩

end LogForwarder
