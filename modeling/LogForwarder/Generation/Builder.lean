import LogForwarder.Generation.Mutator
import LogForwarder.Text.Quoted

/-!
# Builders and pipelines

A builder makes one resource, unless its guard leaves it out. A pipeline runs the builders of a
table in their order, stops at the first that fails, and counts what came of it.
-/

namespace LogForwarder

/-- A builder of one resource from an input. -/
structure Builder (ι : Type) where
  name : String
  /-- Whether the resource is there at all; a resource without a guard always is. -/
  guard : Option (ι → Bool) := none
  build : ι → Draft
  mutate : Mutator

namespace Builder

variable {ι : Type}

/-- Whether the guard of a builder lets its resource through. -/
def includes (b : Builder ι) (input : ι) : Bool := b.guard.elim true (· input)

/-- How a builder shows itself. -/
def summary (b : Builder ι) : String :=
  "ResourceBuilder \x7b name: " ++ Text.quoted b.name ++ ", guarded: " ++
    (if b.guard.isSome then "true" else "false") ++ ", .. \x7d"

/-- The resource of one builder, if it is included. -/
def create (b : Builder ι) (input : ι) (request : Option Request) :
    Generation (List Resource) :=
  if b.includes input then do return [← b.mutate (b.build input) request]
  else pure []

/-- The resources of the builders of a table, in their order. -/
def runAll (input : ι) (request : Option Request) :
    List (Builder ι) → Generation (List Resource)
  | [] => pure []
  | b :: bs => do
    let first ← b.create input request
    let rest ← runAll input request bs
    return first ++ rest

/-- What is counted of a run that came to its end. -/
def countResult (pipeline : String) (m : Metrics) : Except GenerationError (List Resource) → Metrics
  | .ok resources => resources.foldl (fun m r => m.countResource r.kind) m
  | .error _ => m.countGenerationError pipeline

/-- The resources of the builders of a table, as one run of a pipeline. -/
def runPipeline (pipeline : String) (bs : List (Builder ι)) (input : ι)
    (request : Option Request) : Generation (List Resource) :=
  ExceptT.mk do
    modify (·.countGeneration pipeline)
    let result ← (runAll input request bs).run
    modify Metrics.countDuration
    modify fun m => countResult pipeline m result
    return result

end Builder

end LogForwarder
