import LogForwarder.Proofs.Generation.Offline
import LogForwarder.Proofs.Yaml.Values

/-!
# Resources as they are printed

The resources of manifests are printed as a stream of documents. Their templates have no key twice
and nest no deeper than a document may, and their integers are small, so whatever texts go in, the
stream reads back as the objects that were built.

1. What templates make is plain (`Draft.isPlain_of_mem_accessObjects`,
   `ForwarderPod.isPlain_deployment`), and so is all that is generated without a request.
2. So the stream of what is generated from manifests spells the objects themselves, and what the
   manifest gave stands in the deployment with its type (`offline_readBack`).
-/

namespace LogForwarder

open Yaml

/-! ## Templates -/

namespace Draft

/-- Whether a document can spell an object. -/
def IsPlain (d : Draft) : Prop := Yaml.isPlain Datum.depthLimit d = true

theorem isPlain_ofNamespace (name : String) : IsPlain (ofNamespace name) := rfl

theorem isPlain_of_mem_accessObjects {name objectNamespace : String}
    {grants : List (String × String)} :
    ∀ d ∈ accessObjects name objectNamespace grants, IsPlain d := by
  intro d hd
  rcases mem_accessObjects.mp hd with rfl | ⟨g, -, rfl⟩ | ⟨g, -, rfl⟩ <;> rfl

end Draft

theorem Yaml.fits64_toNat (n : UInt32) : fits64 n.toNat = true := by
  have := n.toNat_lt
  exact fits64_iff.mpr ⟨by omega, by omega⟩

/-- Only the interval is a number that was given. -/
theorem ForwarderPod.isPlain_deployment (p : ForwarderPod) : Draft.IsPlain p.deployment := by
  have minutes : fits64 p.environment.pollIntervalMinutes.toNat = true := fits64_toNat _
  have small : fits64 0 = true ∧ fits64 1 = true ∧ fits64 100 = true := by decide
  simp [Draft.IsPlain, Datum.depthLimit, deployment, spec, container, labels, affinity, resources,
    securityContext, Environment.entries, Environment.valueEntry, Environment.podNamespaceEntry,
    nameLabel, isPlain, arePlainItems, arePlainMembers, Members.keys, minutes, small]

/-! ## Resources -/

theorem Resource.values?_yamlStream {rs : List Resource} (h : ∀ r ∈ rs, Draft.IsPlain r.value) :
    values? (yamlStream rs) = some (rs.map value) :=
  values?_writeStream (List.forall_mem_map.mpr h)

theorem Collection.isPlain_resources (c : Collection) :
    ∀ r ∈ c.resources, Draft.IsPlain r.value := by
  unfold resources
  rw [List.forall_mem_cons, c.access_eq]
  exact ⟨Draft.isPlain_ofNamespace _, List.forall_mem_map.mpr Draft.isPlain_of_mem_accessObjects⟩

namespace Forwarder

variable (p : Forwarder) (c : Option Collection)

theorem isPlain_of_mem_deployments : ∀ d ∈ p.deployments c none, Draft.IsPlain d := by
  intro d hd
  unfold deployments at hd
  split_ifs at hd
  · rw [List.mem_singleton.mp hd]
    exact (p.podIn c).isPlain_deployment
  · cases hd

theorem isPlain_resourcesIn : ∀ r ∈ p.resourcesIn c none, Draft.IsPlain r.value := by
  suffices h : ∀ d ∈ (p.resourcesIn c none).map Resource.value, Draft.IsPlain d from
    List.forall_mem_map.mp h
  rw [map_value_resourcesIn, List.forall_mem_append]
  refine ⟨?_, p.isPlain_of_mem_deployments c⟩
  cases c with
  | none =>
    rw [Option.elim_none, p.access_eq]
    exact Draft.isPlain_of_mem_accessObjects
  | some c => exact nofun

/-- Whether an object shows what a forwarder was given: texts as these very texts, the interval as
an integer, and the flag as a flag. -/
structure ShownIn (p : Forwarder) (backend : BackendSpec) (d : Draft) : Prop where
  name : d.textAt? ["metadata", "name"] = some p.name
  clusterId : d.entryValues "OCM_CLUSTER_ID" = [.str p.spec.ocm.clusterId]
  url : d.entryValues "BACKEND_ES_URL" = [.str backend.elasticSearch.url]
  index : d.entryValues "BACKEND_ES_INDEX" = [.str backend.elasticSearch.index]
  pollIntervalMinutes :
    d.entryValues "OCM_POLL_INTERVAL_MINUTES" = [.int p.spec.ocm.pollIntervalMinutes.toNat]
  debug : d.entryValues "DEBUG" = [.bool p.spec.debug]

theorem shownIn_deployment : p.ShownIn (p.decidingBackend c) (p.podIn c).deployment := by
  cases c <;> exact ⟨rfl, rfl, rfl, rfl, rfl, rfl⟩

end Forwarder

/-! ## Streams -/

/-- **What is printed is what was built.** The stream of the resources that are generated from
manifests spells the values of these resources, one document each and in their order, whatever texts
the manifests give. The one deployment of a forwarder shows them with their types. -/
theorem offline_readBack (workload : String) (collection : Option String) (manifest : String) :
    (∀ rs, (Forwarder.generateOffline workload collection).outcome = .ok rs →
        values? (Resource.yamlStream rs) = some (rs.map Resource.value) ∧
        ∃ p c d, Forwarder.ofManifests workload collection = .ok (p, c) ∧
          (rs.map Resource.value).filter (fun d => Draft.kind d = "Deployment") = [d] ∧
          p.ShownIn (p.decidingBackend c) d) ∧
      ∀ rs, (Collection.generateOffline manifest).outcome = .ok rs →
        values? (Resource.yamlStream rs) = some (rs.map Resource.value) := by
  constructor
  · intro rs h
    rw [Forwarder.outcome_generateOffline] at h
    obtain ⟨⟨p, c⟩, hw, rfl⟩ := map_eq_ok.mp h
    obtain ⟨hforwarder, hcollection⟩ := Forwarder.checked_of_ofManifests hw
    have hserved : (p.decidingBackend c).isElasticsearch := by
      cases c with
      | none => exact (Forwarder.accepted_of_checkForwarder hforwarder).served
      | some c => exact (Collection.of_checkCollection (hcollection c rfl)).2.2
    refine ⟨Resource.values?_yamlStream (p.isPlain_resourcesIn c), p, c, (p.podIn c).deployment,
      hw, ?_, p.shownIn_deployment c⟩
    rw [p.filter_resourcesIn, Forwarder.deployments, if_pos hserved]
    rfl
  · intro rs h
    rw [Collection.outcome_generateOffline] at h
    obtain ⟨c, -, rfl⟩ := map_eq_ok.mp h
    exact Resource.values?_yamlStream c.isPlain_resources

namespace Forwarder

/-- A manifest whose texts look like a number, an entry with a comment, and the start of a
document. -/
def lookalikeManifest : String :=
  "apiVersion: apps.dustinscott.io/v1alpha1\nkind: OCMLogForwarder\nmetadata:\n  name: sample\n" ++
  "spec:\n  debug: true\n  ocm:\n    clusterId: 0x10\n  backend:\n    elasticSearch:\n" ++
  "      url: 'a: b #c'\n      index: \"---\"\n"

/-- The forwarder of this manifest. -/
def lookalike : Forwarder where
  metadata := { name := some "sample" }
  spec :=
    { ocm := { clusterId := "0x10" }
      backend := { elasticSearch := { url := "a: b #c", index := "---" } }
      debug := true }

theorem readBack_of_lookalikes :
    ∃ rs d, (generateOffline lookalikeManifest none).outcome = .ok rs ∧
      values? (Resource.yamlStream rs) = some (rs.map Resource.value) ∧
      (rs.map Resource.value).filter (fun d => Draft.kind d = "Deployment") = [d] ∧
      lookalike.ShownIn lookalike.spec.backend d := by
  have hparse : Manifest.parse ForwarderSpec lookalikeManifest = .ok lookalike := by
    decide +kernel
  have hvalid : validate lookalike = .ok () := Validation.orError_eq_ok_iff.mpr (by decide)
  have hw := (ofManifests_of_parse hparse hvalid).1
  have hout : (generateOffline lookalikeManifest none).outcome =
      .ok (lookalike.resourcesIn none none) := by
    rw [outcome_generateOffline, hw]
    rfl
  obtain ⟨hread, p, c, d, hp, hd, hshown⟩ := (offline_readBack lookalikeManifest none "").1 _ hout
  obtain ⟨rfl, rfl⟩ := Prod.mk.inj (Except.ok.inj (hw.symm.trans hp))
  exact ⟨_, d, hout, hread, hd, hshown⟩

end Forwarder

end LogForwarder
