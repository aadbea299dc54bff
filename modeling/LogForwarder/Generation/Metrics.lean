import LogForwarder.Error

/-!
# Metrics of generation

Counters of what generation did. They only ever grow, and a failed run keeps what it counted.
-/

namespace LogForwarder

/-- A counter for each of some labels. -/
abbrev Tally := List (String × Nat)

namespace Tally

/-- The count of a label. -/
def count (t : Tally) (label : String) : Nat := (t.lookup label).getD 0

/-- The tally with one more of a label. -/
def add : Tally → String → Tally
  | [], label => [(label, 1)]
  | (l, n) :: t, label => if l = label then (l, n + 1) :: t else (l, n) :: add t label

end Tally

/-- The counters of generation. -/
structure Metrics where
  /-- The runs of each pipeline. -/
  generations : Tally := []
  /-- The failed runs of each pipeline. -/
  generationErrors : Tally := []
  /-- The resources of each kind that came out of successful runs. -/
  resourcesGenerated : Tally := []
  mutationFailures : Nat := 0
  /-- How often the duration of a run was observed. -/
  durations : Nat := 0
  deriving DecidableEq, Repr

namespace Metrics

/-- One more run of a pipeline. -/
def countGeneration (m : Metrics) (pipeline : String) : Metrics :=
  { m with generations := m.generations.add pipeline }

/-- One more failed run of a pipeline. -/
def countGenerationError (m : Metrics) (pipeline : String) : Metrics :=
  { m with generationErrors := m.generationErrors.add pipeline }

/-- One more resource of a kind. -/
def countResource (m : Metrics) (kind : String) : Metrics :=
  { m with resourcesGenerated := m.resourcesGenerated.add kind }

/-- One more resource that could not be brought into its final form. -/
def countMutationFailure (m : Metrics) : Metrics :=
  { m with mutationFailures := m.mutationFailures + 1 }

/-- One more duration. -/
def countDuration (m : Metrics) : Metrics := { m with durations := m.durations + 1 }

end Metrics

/-- A step of generation: it counts, and it may fail. -/
abbrev Generation := ExceptT GenerationError (StateM Metrics)

namespace Generation

/-- Counts something. -/
def count (f : Metrics → Metrics) : Generation Unit := ExceptT.mk (modify f *> pure (.ok ()))

/-- A step that counts nothing. -/
def ofExcept {α : Type} (r : Except GenerationError α) : Generation α := ExceptT.mk (pure r)

/-- What a step gives, whatever was counted before. -/
def outcome {α : Type} (g : Generation α) : Except GenerationError α := (g.run.run {}).1

end Generation

end LogForwarder
