import LogForwarder.Proofs.Generation.ForwarderNames

/-!
# Forwarders and the collections that they refer to

A forwarder that refers to a collection should get a deployment under the account of the collection,
and nothing else. Generation goes by the collection that it is handed, though, and never looks at
the reference.

1. `RunUnder` says that resources are deployments under the account of a name and nothing else.
2. What is generated is the same whatever collection a forwarder refers to
   (`Forwarder.generate_referringTo`).
3. So a forwarder runs under the collection that it refers to exactly if a collection of this name
   is handed over with it (`Forwarder.runUnder_reference_iff`). Without a collection it gets an
   account and roles of its own, and with another one it runs under the account of that one.
-/

namespace LogForwarder

/-- Whether resources are deployments whose pods run under the account of a name, and nothing
else. -/
def RunUnder (account : String) (rs : List Resource) : Prop :=
  ∀ r ∈ rs, r.kind = "Deployment" ∧ (Draft.podAccount r.value).name = account

theorem ForwarderPod.runUnder_resource_iff {p : ForwarderPod} {request : Option Request}
    {account : String} : RunUnder account [p.resource request] ↔ p.serviceAccount = account := by
  unfold RunUnder
  rw [List.forall_mem_singleton, podAccount_resource]
  exact and_iff_right (p.resource_kind request)

namespace Forwarder

variable {p : Forwarder} {request : Option Request} {account : String}

/-! ## References -/

/-- The forwarder with another reference, or with none. -/
def referringTo (p : Forwarder) (reference : Option CollectionReference) : Forwarder :=
  { p with spec := { p.spec with collection := reference } }

/-- **References have no effect.** What is generated depends on the collection that is handed over,
and not on the one that the forwarder refers to. -/
theorem generate_referringTo (p : Forwarder) (reference : Option CollectionReference)
    (c : Option Collection) (request : Option Request) :
    generate (p.referringTo reference) c request = generate p c request := by
  cases c <;> rfl

/-! ## What a forwarder gets -/

theorem kinds_resourcesIn_none (hp : p.usesElasticsearch) (request : Option Request) :
    (p.resourcesIn none request).map Resource.kind =
      ["ServiceAccount", "Role", "Role", "RoleBinding", "RoleBinding", "Deployment"] := by
  have haccess : (p.access.map Resource.untyped).map Resource.kind =
      ["ServiceAccount", "Role", "Role", "RoleBinding", "RoleBinding"] := by
    unfold access
    rw [if_pos hp]
    rfl
  rw [resourcesIn_none hp, List.map_append, haccess, List.map_singleton, p.pod.resource_kind]
  rfl

/-- A forwarder of its own never runs under a collection, since it gets an account of its own. -/
theorem not_runUnder_resourcesIn_none (hp : p.usesElasticsearch) :
    ¬RunUnder account (p.resourcesIn none request) := by
  intro h
  have hkinds : ∀ k ∈ (p.resourcesIn none request).map Resource.kind, k = "Deployment" := by
    intro k hk
    obtain ⟨r, hr, rfl⟩ := List.mem_map.mp hk
    exact (h r hr).1
  rw [kinds_resourcesIn_none hp] at hkinds
  exact absurd (hkinds "ServiceAccount" List.mem_cons_self) (by decide)

theorem runUnder_resourcesIn_some_iff {c : Collection} (hc : c.usesElasticsearch) :
    RunUnder account (p.resourcesIn (some c) request) ↔ c.name = account := by
  rw [resourcesIn_served hc]
  exact ForwarderPod.runUnder_resource_iff

/-- What forwarders get runs under the account of the collection that is handed over. -/
theorem runUnder_resourcesIn_iff {c : Option Collection} (hp : p.usesElasticsearch)
    (hc : ∀ d ∈ c, d.usesElasticsearch) :
    RunUnder account (p.resourcesIn c request) ↔ ∃ d ∈ c, d.name = account := by
  cases c with
  | none =>
    constructor
    · intro h
      exact absurd h (not_runUnder_resourcesIn_none hp)
    · rintro ⟨d, hd, -⟩
      cases hd
  | some c =>
    rw [runUnder_resourcesIn_some_iff (hc c rfl)]
    constructor
    · intro h
      exact ⟨c, rfl, h⟩
    · rintro ⟨d, hd, hname⟩
      cases hd
      exact hname

/-! ## Manifests -/

/-- **Forwarders that refer to a collection.** Whatever manifests are accepted, a forwarder that
refers to a collection gets deployments under the account of the name that it refers to, and nothing
else, exactly if a collection of this name is handed over with it. Without a collection it gets all
that a forwarder of its own gets, and with one of another name it runs under the account of that
one. -/
theorem runUnder_reference_iff {workload : String} {collection : Option String}
    {rs : List Resource} (h : (generateOffline workload collection).outcome = .ok rs) :
    ∃ p c, ofManifests workload collection = .ok (p, c) ∧
      (∀ r ∈ p.spec.collection, RunUnder r.name rs ↔ ∃ d ∈ c, d.name = r.name) ∧
      (∀ d ∈ c, RunUnder d.name rs) ∧
      (c = none → rs.map Resource.kind =
        ["ServiceAccount", "Role", "Role", "RoleBinding", "RoleBinding", "Deployment"]) := by
  rw [outcome_generateOffline] at h
  obtain ⟨⟨p, c⟩, hw, rfl⟩ := map_eq_ok.mp h
  obtain ⟨hforwarder, hcollection⟩ := checked_of_ofManifests hw
  have hp : p.usesElasticsearch := (accepted_of_checkForwarder hforwarder).served
  have hc : ∀ d ∈ c, d.usesElasticsearch := by
    intro d hd
    obtain ⟨-, -, hserved⟩ := Collection.of_checkCollection (hcollection d hd)
    exact hserved
  refine ⟨p, c, hw, ?_, ?_, ?_⟩
  · -- The name that is referred to is a name like any other.
    intro r _
    exact runUnder_resourcesIn_iff hp hc
  · intro d hd
    exact (runUnder_resourcesIn_iff hp hc).mpr ⟨d, hd, rfl⟩
  · rintro rfl
    exact kinds_resourcesIn_none hp none

def referringManifest : String :=
  "apiVersion: apps.dustinscott.io/v1alpha1\nkind: OCMLogForwarder\nmetadata:\n  name: sample\n" ++
  "spec:\n  collection:\n    name: shared\n  ocm:\n    clusterId: abc123\n"

def referring : Forwarder := sample.referringTo (some { name := "shared" })

def otherManifest : String := Collection.manifestNamed "other".toList

def otherCollection : Collection := Collection.named "other".toList

theorem parse_referringManifest :
    Manifest.parse ForwarderSpec referringManifest = .ok referring := by
  decide +kernel

theorem validate_referring : validate referring = .ok () :=
  Validation.orError_eq_ok_iff.mpr (by decide)

theorem ofManifest_otherManifest : Collection.ofManifest otherManifest = .ok otherCollection := by
  have hparse : Manifest.parse CollectionSpec otherManifest = .ok otherCollection := by
    decide +kernel
  have hvalid : Collection.validate otherCollection = .ok () :=
    Validation.orError_eq_ok_iff.mpr (by decide)
  unfold Collection.ofManifest
  exact bind_eq_ok.mpr ⟨_, hparse, bind_eq_ok.mpr ⟨(), hvalid, rfl⟩⟩

/-- Without its collection, the forwarder gets an account of its own. With a collection of another
name, it runs under the account of that one. -/
theorem not_runUnder_shared :
    (∃ rs, (generateOffline referringManifest none).outcome = .ok rs ∧
      ¬RunUnder "shared" rs ∧ "ServiceAccount" ∈ rs.map Resource.kind) ∧
    ∃ rs, (generateOffline referringManifest (some otherManifest)).outcome = .ok rs ∧
      ¬RunUnder "shared" rs ∧ RunUnder "other" rs := by
  obtain ⟨halone, hmanaged⟩ := ofManifests_of_parse parse_referringManifest validate_referring
  constructor
  · have hout : (generateOffline referringManifest none).outcome =
        .ok (referring.resourcesIn none none) := by
      rw [outcome_generateOffline, halone]
      rfl
    obtain ⟨p, c, hw, hreference, -, hkinds⟩ := runUnder_reference_iff hout
    obtain ⟨rfl, rfl⟩ := Prod.mk.inj (Except.ok.inj (halone.symm.trans hw))
    refine ⟨_, hout, ?_, ?_⟩
    · intro h
      obtain ⟨d, hd, -⟩ := (hreference _ rfl).mp h
      cases hd
    · rw [hkinds rfl]
      exact List.mem_cons_self
  · have hw := hmanaged ofManifest_otherManifest
    have hout : (generateOffline referringManifest (some otherManifest)).outcome =
        .ok (referring.resourcesIn (some otherCollection) none) := by
      rw [outcome_generateOffline, hw]
      rfl
    obtain ⟨p, c, hw', hreference, hgiven, -⟩ := runUnder_reference_iff hout
    obtain ⟨rfl, rfl⟩ := Prod.mk.inj (Except.ok.inj (hw.symm.trans hw'))
    refine ⟨_, hout, ?_, hgiven otherCollection rfl⟩
    intro h
    obtain ⟨d, hd, hname⟩ := (hreference _ rfl).mp h
    cases hd
    exact absurd hname (by decide)

end Forwarder

end LogForwarder
