import LogForwarder.Generation.Collection
import LogForwarder.Proofs.Cluster.Access
import LogForwarder.Proofs.Generation.ForwarderPod

/-!
# The resources of forwarders and collections

Generation always gives resources, and always these: `Forwarder.resources` for a forwarder of its
own, `ManagedForwarder.resources` for one of a collection, and `Collection.resources` for the
collection itself. What ships to a backend that is not served gets no deployment, and no access to
the credentials of a backend.
-/

namespace LogForwarder

open Generation

namespace Forwarder

/-- The objects that give a forwarder of its own access to its secrets. -/
def access (p : Forwarder) : List Draft :=
  if p.usesElasticsearch then
    [p.serviceAccount, p.ocmRole, p.elasticRole, p.ocmRoleBinding, p.elasticRoleBinding]
  else [p.serviceAccount, p.ocmRole, p.ocmRoleBinding]

theorem kind_ne_of_mem_access (p : Forwarder) :
    ∀ d ∈ p.access, (Resource.untyped d).kind ≠ "Deployment" := by
  unfold access serviceAccount ocmRole elasticRole ocmRoleBinding elasticRoleBinding
  split_ifs <;> simp [Resource.kind, Resource.identity]

/-- The resources of a forwarder of its own. -/
def resources (p : Forwarder) (request : Option Request) : List Resource :=
  p.access.map .untyped ++ if p.usesElasticsearch then [p.pod.resource request] else []

theorem runPipeline_builders_gives (p : Forwarder) (request : Option Request) :
    (Builder.runPipeline pipeline builders p request).Gives (p.resources request) := by
  let made : List (Builder Forwarder × Resource) :=
    builders.zip
      [ .untyped p.serviceAccount, .untyped p.ocmRole, .untyped p.elasticRole,
        .untyped p.ocmRoleBinding, .untyped p.elasticRoleBinding, p.pod.resource request ]
  have hmade : ∀ b ∈ made, (b.1.mutate (b.1.build p) request).Gives b.2 := by
    simp only [made, builders, List.zip_cons_cons, List.zip_nil_left, List.forall_mem_cons]
    exact ⟨passThrough_gives _ _, passThrough_gives _ _, passThrough_gives _ _,
      passThrough_gives _ _, passThrough_gives _ _, p.pod.deployment_gives request, nofun⟩
  have hincluded : Builder.included p made = p.resources request := by
    unfold resources access
    cases h : p.usesElasticsearch <;>
      simp [made, builders, Builder.included, Builder.includes, h]
  rw [← hincluded]
  exact Builder.runPipeline_gives rfl hmade

end Forwarder

namespace ManagedForwarder

/-- The resources of a forwarder of a collection. -/
def resources (m : ManagedForwarder) (request : Option Request) : List Resource :=
  if m.usesElasticsearch then [m.pod.resource request] else []

theorem runPipeline_builders_gives (m : ManagedForwarder) (request : Option Request) :
    (Builder.runPipeline Forwarder.pipeline builders m request).Gives (m.resources request) := by
  let made : List (Builder ManagedForwarder × Resource) := builders.zip [m.pod.resource request]
  have hmade : ∀ b ∈ made, (b.1.mutate (b.1.build m) request).Gives b.2 := by
    simp only [made, builders, List.zip_cons_cons, List.zip_nil_left, List.forall_mem_cons]
    exact ⟨m.pod.deployment_gives request, nofun⟩
  have hincluded : Builder.included m made = m.resources request := by
    unfold resources
    cases h : m.usesElasticsearch <;>
      simp [made, builders, Builder.included, Builder.includes, h]
  rw [← hincluded]
  exact Builder.runPipeline_gives rfl hmade

end ManagedForwarder

namespace Collection

/-- The objects that give the forwarders of a collection access to their secrets. -/
def access (c : Collection) : List Draft :=
  if c.usesElasticsearch then
    [c.serviceAccount, c.ocmRole, c.elasticRole, c.ocmRoleBinding, c.elasticRoleBinding]
  else [c.serviceAccount, c.ocmRole, c.ocmRoleBinding]

/-- The resources of a collection. -/
def resources (c : Collection) : List Resource :=
  .untyped c.namespaceObject :: c.access.map .untyped

/-- **Generation for a collection succeeds**, with or without a request. -/
theorem generate_gives (c : Collection) (request : Option Request) :
    (generate c request).Gives c.resources := by
  let made : List (Builder Collection × Resource) :=
    builders.map fun b => (b, .untyped (b.build c))
  have hmade : ∀ b ∈ made, (b.1.mutate (b.1.build c) request).Gives b.2 := by
    simp only [made, builders, List.map_cons, List.map_nil, List.forall_mem_cons]
    exact ⟨passThrough_gives _ _, passThrough_gives _ _, passThrough_gives _ _,
      passThrough_gives _ _, passThrough_gives _ _, passThrough_gives _ _, nofun⟩
  have hincluded : Builder.included c made = c.resources := by
    unfold resources access
    cases h : c.usesElasticsearch <;>
      simp [made, builders, Builder.included, Builder.includes, h]
  rw [← hincluded]
  exact Builder.runPipeline_gives rfl hmade

end Collection

namespace Forwarder

/-- The resources of a forwarder, which belongs to a collection or stands alone. -/
def resourcesIn (p : Forwarder) (c : Option Collection) (request : Option Request) :
    List Resource :=
  match c with
  | some c => ManagedForwarder.resources ⟨p, c⟩ request
  | none => p.resources request

theorem resourcesIn_none {p : Forwarder} (hp : p.usesElasticsearch) (request : Option Request) :
    p.resourcesIn none request = p.access.map .untyped ++ [p.pod.resource request] := by
  unfold resourcesIn resources
  rw [if_pos hp]

/-- A forwarder of a collection whose backend is served gets a deployment and nothing else. -/
theorem resourcesIn_served {c : Collection} (hc : c.usesElasticsearch) (p : Forwarder)
    (request : Option Request) :
    p.resourcesIn (some c) request = [(ManagedForwarder.pod ⟨p, c⟩).resource request] :=
  if_pos hc

/-- **Generation for a forwarder succeeds**, with or without a collection and a request. -/
theorem generate_gives (p : Forwarder) (c : Option Collection) (request : Option Request) :
    (generate p c request).Gives (p.resourcesIn c request) := by
  cases c with
  | none => exact p.runPipeline_builders_gives request
  | some c => exact ManagedForwarder.runPipeline_builders_gives ⟨p, c⟩ request

theorem generate_some_gives {c : Collection} (hc : c.usesElasticsearch) (p : Forwarder)
    (request : Option Request) :
    (generate p (some c) request).Gives [(ManagedForwarder.pod ⟨p, c⟩).resource request] := by
  rw [← resourcesIn_served hc]
  exact p.generate_gives (some c) request

end Forwarder

end LogForwarder
