import LogForwarder.Generation.Builder
import Mathlib.Tactic.SplitIfs

/-!
# What pipelines give

A step of generation may count, but what it gives does not depend on what was counted before.

1. `Generation.Gives` says what a step gives; a step gives one thing at most.
2. A pipeline whose builders all give a resource gives those of the builders that are included, in
   the order of its table (`Builder.runPipeline_gives`).
-/

namespace LogForwarder

namespace Generation

variable {α β : Type}

/-- Whether a step succeeds with a result, whatever was counted before. -/
def Gives (g : Generation α) (a : α) : Prop := ∀ m : Metrics, (g.run.run m).1 = .ok a

theorem gives_pure (a : α) : Gives (pure a) a := fun _ => rfl

theorem passThrough_gives (d : Draft) (request : Option Request) :
    (Mutator.passThrough d request).Gives (.untyped d) :=
  gives_pure _

theorem Gives.bind {g : Generation α} {a : α} {f : α → Generation β} {b : β} (hg : g.Gives a)
    (hf : (f a).Gives b) : (g >>= f).Gives b := by
  intro m
  have hrun : (g.run.run m).1 = .ok a := hg m
  show (ExceptT.bindCont f (g.run.run m).1 (g.run.run m).2).1 = .ok b
  rw [hrun]
  exact hf _

theorem Gives.outcome_eq {g : Generation α} {a : α} (h : g.Gives a) : g.outcome = .ok a := h {}

end Generation

namespace Builder

open Generation

variable {ι : Type} {input : ι} {request : Option Request}

/-- The resources of the builders that are included, given the resource of each of a table. -/
def included (input : ι) (made : List (Builder ι × Resource)) : List Resource :=
  made.flatMap fun b => if b.1.includes input then [b.2] else []

theorem create_gives {b : Builder ι} {r : Resource}
    (h : (b.mutate (b.build input) request).Gives r) :
    (b.create input request).Gives (if b.includes input then [r] else []) := by
  unfold create
  split_ifs
  · exact h.bind (gives_pure [r])
  · exact gives_pure []

theorem runAll_gives : ∀ {made : List (Builder ι × Resource)},
    (∀ b ∈ made, (b.1.mutate (b.1.build input) request).Gives b.2) →
      (runAll input request (made.map Prod.fst)).Gives (included input made)
  | [], _ => gives_pure []
  | b :: made, h => by
    obtain ⟨hb, hmade⟩ := List.forall_mem_cons.mp h
    exact (create_gives hb).bind ((runAll_gives hmade).bind (gives_pure _))

/-- A run of a pipeline gives what its builders give. -/
theorem runPipeline_gives {pipeline : String} {builders : List (Builder ι)}
    {made : List (Builder ι × Resource)} (hbuilders : made.map Prod.fst = builders)
    (h : ∀ b ∈ made, (b.1.mutate (b.1.build input) request).Gives b.2) :
    (runPipeline pipeline builders input request).Gives (included input made) := by
  rw [← hbuilders]
  intro m
  exact runAll_gives h (m.countGeneration pipeline)

end Builder

end LogForwarder
