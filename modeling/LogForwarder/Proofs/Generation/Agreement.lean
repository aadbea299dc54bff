import LogForwarder.Proofs.Generation.Resources

/-!
# Generation with and without a request

Both succeed for every forwarder, checked or not, and they give the same resources but for the form
of the deployment (`Forwarder.Agrees`). What a request is about makes no difference.
-/

namespace LogForwarder.Forwarder

/-- How a resource of a forwarder that is generated with a request stands to the one that is
generated without. -/
structure Agrees (p : Forwarder) (offline online : Resource) : Prop where
  identity : online.identity = offline.identity
  same : offline.kind ≠ "Deployment" → online = offline
  /-- The deployment is stored as it was built, but for the texts of two values. -/
  stored : offline.kind = "Deployment" → ∃ (d : Draft) (t : Deployment),
    offline = .untyped d ∧ online = .typed t ∧
    d.entryValues "OCM_POLL_INTERVAL_MINUTES" = [.int p.spec.ocm.pollIntervalMinutes.toNat] ∧
    d.entryValues "DEBUG" = [.bool p.spec.debug] ∧
    t.value =
      (d.withEntry "OCM_POLL_INTERVAL_MINUTES"
        (.str (toString p.spec.ocm.pollIntervalMinutes.toNat))).withEntry "DEBUG"
          (.str (toString p.spec.debug))

variable (p : Forwarder)

theorem agrees_of_kind_ne {r : Resource} (h : r.kind ≠ "Deployment") : p.Agrees r r where
  identity := rfl
  same _ := rfl
  stored hkind := absurd hkind h

theorem agrees_resource {pod : ForwarderPod} (request : Request)
    (hminutes : pod.environment.pollIntervalMinutes = p.spec.ocm.pollIntervalMinutes)
    (hdebug : pod.environment.debug = p.spec.debug) :
    p.Agrees (pod.resource none) (pod.resource (some request)) where
  identity := by rw [pod.identity_resource, pod.identity_resource]
  same hkind := absurd (pod.resource_kind none) hkind
  stored _ := by
    rw [← hminutes, ← hdebug]
    exact ⟨pod.deployment, ⟨pod.stored⟩, rfl, rfl, rfl, rfl, rfl⟩

theorem forall₂_agrees_resources (request : Request) :
    List.Forall₂ p.Agrees (p.resources none) (p.resources (some request)) := by
  have haccess : List.Forall₂ p.Agrees (p.access.map .untyped) (p.access.map .untyped) :=
    List.forall₂_same.mpr fun r hr => by
      obtain ⟨d, hd, rfl⟩ := List.mem_map.mp hr
      exact p.agrees_of_kind_ne (p.kind_ne_of_mem_access d hd)
  unfold resources
  split_ifs
  · exact List.rel_append haccess (.cons (p.agrees_resource request rfl rfl) .nil)
  · exact List.rel_append haccess .nil

theorem forall₂_agrees_managed (c : Collection) (request : Request) :
    List.Forall₂ p.Agrees (ManagedForwarder.resources ⟨p, c⟩ none)
      (ManagedForwarder.resources ⟨p, c⟩ (some request)) := by
  unfold ManagedForwarder.resources
  split_ifs
  · exact .cons (p.agrees_resource request rfl rfl) .nil
  · exact .nil

theorem resourcesIn_some (c : Option Collection) (r s : Request) :
    p.resourcesIn c (some r) = p.resourcesIn c (some s) := by
  cases c <;> rfl

/-- **Generation agrees with itself.** For every forwarder and every collection, generation without
a request and generation with any request succeed; the second gives the same whatever the request,
and agrees with the first position by position. -/
theorem generate_agrees (c : Option Collection) :
    ∃ offline online, (p.generate c none).Gives offline ∧
      (∀ request : Request, (p.generate c (some request)).Gives online) ∧
      List.Forall₂ p.Agrees offline online := by
  let request : Request := ⟨p.name, none⟩
  refine ⟨p.resourcesIn c none, p.resourcesIn c (some request), p.generate_gives c none,
    fun r => ?_, ?_⟩
  · rw [p.resourcesIn_some c request r]
    exact p.generate_gives c (some r)
  · cases c with
    | none => exact p.forall₂_agrees_resources request
    | some c => exact p.forall₂_agrees_managed c request

end LogForwarder.Forwarder
