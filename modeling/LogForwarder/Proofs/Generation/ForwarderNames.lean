import LogForwarder.Proofs.Generation.CollectionNames
import LogForwarder.Proofs.Generation.PodSelection
import LogForwarder.Proofs.Generation.SecretAccess

/-!
# Identifiers of what a forwarder generates

The checks of a forwarder and its collection cover everything that the templates put into an
identifier. The name of a forwarder is a label as well, so it has at most 63 bytes, and the suffixes
of its roles and bindings fit behind it, unlike those of a collection.

1. `Draft.WellIdentified` says that the cluster takes every identifier in an object.
2. Access objects have well-formed identifiers if the names that go into them are valid
   (`Draft.wellIdentified_of_mem_accessObjects`), and so has the deployment of a pod
   (`ForwarderPod.wellIdentified_resource`).
3. The names of accepted workloads are valid, so all that is generated from them has well-formed
   identifiers (`Forwarder.wellIdentified_resourcesIn`).
-/

namespace LogForwarder

open Identifier

/-! ## Identifiers of objects -/

/-- Where the images of forwarders come from. -/
def imageRepository : String := "ghcr.io/scottd018/ocm-log-forwarder"

theorem image_eq (version : String) : image version = imageRepository ++ ":" ++ version := rfl

namespace Draft

/-- Whether the cluster takes what a deployment is run by: its account, its labels and its image. -/
structure WellRun (d : Draft) : Prop where
  account : checkName (podAccount d).name = .ok ()
  label : ∃ label, checkLabel label = .ok () ∧ LabelledAs d label
  image : ∃ container tag, containers d = [container] ∧
    container.textAt? ["image"] = some (imageRepository ++ ":" ++ tag) ∧ checkImageTag tag = .ok ()

/-- Whether the cluster takes every identifier in an object. -/
structure WellIdentified (d : Draft) : Prop extends WellNamed d where
  subjectNamespaces : ∀ o ∈ Draft.subjects d, checkNamespace o.objectNamespace = .ok ()
  labels : ∀ l ∈ labelsAt d ["metadata", "labels"], checkLabel l.2 = .ok ()
  run : kind d = "Deployment" → WellRun d

section

variable {name objectNamespace : String} {grants : List (String × String)}

theorem wellIdentified_of_mem_accessObjects (hname : checkName name = .ok ())
    (hnamespace : checkNamespace objectNamespace = .ok ())
    (hgrants : ∀ g ∈ grants, checkName g.1 = .ok () ∧ checkName g.2 = .ok ()) :
    ∀ d ∈ accessObjects name objectNamespace grants, WellIdentified d := by
  intro d hd
  have hkind : kind d ≠ "Deployment" := fun h =>
    List.filter_eq_nil_iff.mp filter_deployment_accessObjects d hd (decide_eq_true h)
  have hrun : kind d = "Deployment" → WellRun d := fun h => absurd h hkind
  rcases mem_accessObjects.mp hd with rfl | ⟨g, hg, rfl⟩ | ⟨g, hg, rfl⟩
  · exact ⟨(wellNamed_serviceAccount_iff hnamespace).mpr hname, nofun, nofun, hrun⟩
  · obtain ⟨hrole, hsecret⟩ := hgrants g hg
    exact ⟨(wellNamed_secretReaderRole_iff hnamespace hsecret).mpr hrole, nofun, nofun, hrun⟩
  · refine ⟨(wellNamed_roleBinding_iff hnamespace hname).mpr (hgrants g hg).1, ?_, nofun, hrun⟩
    intro o ho
    rw [subjects_roleBinding] at ho
    rw [List.mem_singleton.mp ho]
    exact hnamespace

end

end Draft

namespace ForwarderPod

/-- Whether the cluster takes the identifiers that a pod is run by. -/
structure Valid (p : ForwarderPod) : Prop where
  label : checkLabel p.name = .ok ()
  name : checkName p.name = .ok ()
  objectNamespace : checkNamespace p.objectNamespace = .ok ()
  serviceAccount : checkName p.serviceAccount = .ok ()
  version : checkImageTag p.version = .ok ()

theorem identity_value (p : ForwarderPod) (request : Option Request) :
    Draft.identity (p.resource request).value = ⟨p.objectNamespace, p.name, "Deployment"⟩ := by
  cases request <;> rfl

theorem wellNamed_resource {p : ForwarderPod} (h : p.Valid) (request : Option Request) :
    Draft.WellNamed (p.resource request).value where
  name := by
    have hname : Draft.name (p.resource request).value = p.name :=
      congrArg Identity.name (p.identity_value request)
    rw [hname]
    exact h.name
  objectNamespace := by
    intro s hs
    have hnamespace : Draft.objectNamespace? (p.resource request).value =
        some p.objectNamespace := by cases request <;> rfl
    rw [hnamespace] at hs
    cases hs
    exact h.objectNamespace
  roleRef := by cases request <;> exact nofun
  subjects := by cases request <;> exact nofun
  resourceNames := by cases request <;> exact nofun

theorem wellRun_resource {p : ForwarderPod} (h : p.Valid) (request : Option Request) :
    Draft.WellRun (p.resource request).value where
  account := by
    rw [podAccount_resource]
    exact h.serviceAccount
  label := ⟨p.name, h.label, p.labelledAs_resource request⟩
  image := by
    have himage : ∃ container, Draft.containers (p.resource request).value = [container] ∧
        container.textAt? ["image"] = some (image p.version) := by
      cases request <;> exact ⟨_, rfl, rfl⟩
    obtain ⟨container, hcontainers, htext⟩ := himage
    rw [image_eq] at htext
    exact ⟨container, p.version, hcontainers, htext, h.version⟩

theorem wellIdentified_resource {p : ForwarderPod} (h : p.Valid) (request : Option Request) :
    Draft.WellIdentified (p.resource request).value where
  toWellNamed := wellNamed_resource h request
  subjectNamespaces := by cases request <;> exact nofun
  labels := by
    intro l hl
    rw [(p.labelledAs_resource request).own] at hl
    rw [List.mem_singleton.mp hl]
    exact h.label
  run _ := wellRun_resource h request

end ForwarderPod

/-! ## Accepted forwarders -/

namespace Forwarder

/-- What the checks of a forwarder leave to rely on. -/
structure Accepted (p : Forwarder) : Prop where
  label : checkLabel p.name = .ok ()
  name : checkName p.name = .ok ()
  homeNamespace : checkNamespace p.homeNamespace = .ok ()
  version : checkImageTag p.spec.forwarderVersion = .ok ()
  ocmSecret : checkName p.spec.ocm.secretRef = .ok ()
  elasticSecret : checkName p.spec.backend.elasticSearch.secretName = .ok ()
  served : p.usesElasticsearch

/-- A member that is left out is valid if its default is. -/
theorem check_getD {check : String → Except Complaint Unit} {o : Option String} {default : String}
    (hdefault : check default = .ok ()) (h : ∀ s ∈ o, check s = .ok ()) :
    check (o.getD default) = .ok () := by
  cases o with
  | none => exact hdefault
  | some s => exact h s rfl

theorem accepted_of_checkForwarder {p : Forwarder} (h : Validation.checkForwarder p = .ok ()) :
    p.Accepted := by
  obtain ⟨hlabel, hname, hnamespace, -, hversion, -, -, hsecret, hbackend⟩ :=
    Validation.checkForwarder_eq_ok_iff.mp h
  obtain ⟨hserved, -, -, helastic⟩ := Validation.checkBackend_eq_ok_iff.mp hbackend
  exact
    { label := hlabel
      name := hname
      homeNamespace := check_getD (by decide) hnamespace
      version := hversion
      ocmSecret := hsecret
      elasticSecret := check_getD (by decide) helastic
      served := hserved }

section

variable {p : Forwarder} (h : p.Accepted)

include h

/-- A name that is a label leaves room for a short suffix. -/
theorem checkName_append_of_accepted {suffix : String} (hsize : suffix.utf8ByteSize ≤ 190)
    (hform : isNameFrom true .plain suffix.toList) : checkName (p.name ++ suffix) = .ok () := by
  have hname : p.name.utf8ByteSize ≤ 63 := (check_eq_ok_iff.mp h.label).2.1
  refine (checkName_append_eq_ok_iff h.name hform).mpr ?_
  rw [String.utf8ByteSize_append]
  omega

theorem valid_pod_of_accepted : p.pod.Valid where
  label := h.label
  name := h.name
  objectNamespace := h.homeNamespace
  serviceAccount := h.name
  version := h.version

theorem wellIdentified_access : ∀ d ∈ p.access, Draft.WellIdentified d := by
  rw [p.access_eq]
  refine Draft.wellIdentified_of_mem_accessObjects h.name h.homeNamespace ?_
  unfold secretGrants
  rw [if_pos h.served]
  simp only [List.forall_mem_cons]
  exact ⟨⟨checkName_append_of_accepted h (by decide) (by decide), h.ocmSecret⟩,
    ⟨checkName_append_of_accepted h (by decide) (by decide), h.elasticSecret⟩, nofun⟩

theorem valid_managedPod_of_accepted {c : Collection}
    (hc : Validation.checkCollection c = .ok ()) : (ManagedForwarder.pod ⟨p, c⟩).Valid := by
  obtain ⟨hname, hnamespace, -⟩ := Collection.of_checkCollection hc
  exact
    { label := h.label
      name := h.name
      objectNamespace := hnamespace
      serviceAccount := hname
      version := h.version }

/-- All that is generated for accepted workloads has well-formed identifiers, and a deployment is
among it. -/
theorem wellIdentified_resourcesIn {c : Option Collection}
    (hc : ∀ d ∈ c, Validation.checkCollection d = .ok ()) (request : Option Request) :
    (∀ r ∈ p.resourcesIn c request, Draft.WellIdentified r.value) ∧
      ∃ r ∈ p.resourcesIn c request, r.kind = "Deployment" := by
  cases c with
  | none =>
    rw [resourcesIn_none h.served, List.forall_mem_append, List.forall_mem_singleton]
    refine ⟨⟨?_, ForwarderPod.wellIdentified_resource (valid_pod_of_accepted h) request⟩,
      _, List.mem_append_right _ (List.mem_singleton_self _), p.pod.resource_kind request⟩
    intro r hr
    obtain ⟨d, hd, rfl⟩ := List.mem_map.mp hr
    exact wellIdentified_access h d hd
  | some c =>
    have hchecked := hc c rfl
    rw [resourcesIn_served (Collection.of_checkCollection hchecked).2.2, List.forall_mem_singleton]
    exact ⟨ForwarderPod.wellIdentified_resource (valid_managedPod_of_accepted h hchecked) request,
      _, List.mem_singleton_self _, ForwarderPod.resource_kind _ request⟩

end

/-! ## Manifests -/

/-- Generation from manifests gives what the workloads that they spell give. -/
theorem outcome_generateOffline (workload : String) (collection : Option String) :
    (generateOffline workload collection).outcome =
      (ofManifests workload collection).map fun w => w.1.resourcesIn w.2 none := by
  unfold generateOffline
  cases ofManifests workload collection with
  | error e => rfl
  | ok w => exact (w.1.generate_gives w.2 none).outcome_eq

/-- A forwarder that passes its checks is read from its manifest, with a collection or without. -/
theorem ofManifests_of_parse {workload : String} {p : Forwarder}
    (hparse : Manifest.parse ForwarderSpec workload = .ok p) (hvalid : validate p = .ok ()) :
    ofManifests workload none = .ok (p, none) ∧
      ∀ {manifest c}, Collection.ofManifest manifest = .ok c →
        ofManifests workload (some manifest) = .ok (p, some c) := by
  unfold ofManifests
  constructor
  · exact bind_eq_ok.mpr ⟨p, hparse, bind_eq_ok.mpr ⟨(), hvalid, rfl⟩⟩
  · intro manifest c hc
    exact bind_eq_ok.mpr ⟨p, hparse, bind_eq_ok.mpr ⟨(), hvalid, bind_eq_ok.mpr ⟨c, hc, rfl⟩⟩⟩

/-- Workloads that are read from manifests have passed their checks. -/
theorem checked_of_ofManifests {workload : String} {collection : Option String}
    {p : Forwarder} {c : Option Collection} (h : ofManifests workload collection = .ok (p, c)) :
    Validation.checkForwarder p = .ok () ∧ ∀ d ∈ c, Validation.checkCollection d = .ok () := by
  obtain ⟨q, _, h⟩ := bind_eq_ok.mp h
  obtain ⟨⟨⟩, hvalid, h⟩ := bind_eq_ok.mp h
  have hchecked := Validation.orError_eq_ok_iff.mp hvalid
  cases collection with
  | none =>
    obtain ⟨rfl, rfl⟩ := Prod.mk.inj (pure_eq_ok.mp h)
    refine ⟨hchecked, ?_⟩
    intro d hd
    cases hd
  | some manifest =>
    obtain ⟨d, hread, h⟩ := bind_eq_ok.mp h
    obtain ⟨rfl, rfl⟩ := Prod.mk.inj (pure_eq_ok.mp h)
    refine ⟨hchecked, ?_⟩
    intro e he
    cases he
    exact Collection.checked_of_ofManifest hread

/-- **Identifiers of accepted forwarders.** Whatever manifests of a forwarder and of its collection
are accepted, the cluster takes every identifier in the objects that are generated, and a deployment
is among these. -/
theorem wellIdentified_of_generateOffline {workload : String} {collection : Option String}
    {rs : List Resource} (h : (generateOffline workload collection).outcome = .ok rs) :
    (∀ r ∈ rs, Draft.WellIdentified r.value) ∧ ∃ r ∈ rs, r.kind = "Deployment" := by
  rw [outcome_generateOffline] at h
  obtain ⟨⟨p, c⟩, hw, rfl⟩ := map_eq_ok.mp h
  obtain ⟨hforwarder, hcollection⟩ := checked_of_ofManifests hw
  exact wellIdentified_resourcesIn (accepted_of_checkForwarder hforwarder) hcollection none

/-- The manifest of a forwarder that has a name and a cluster, and nothing else. -/
def sampleManifest : String :=
  "apiVersion: apps.dustinscott.io/v1alpha1\nkind: OCMLogForwarder\nmetadata:\n  name: sample\n" ++
  "spec:\n  ocm:\n    clusterId: abc123\n"

/-- The forwarder that has a name and a cluster, and nothing else. -/
def sample : Forwarder where
  metadata := { name := some "sample" }
  spec := { ocm := { clusterId := "abc123" } }

theorem parse_sampleManifest : Manifest.parse ForwarderSpec sampleManifest = .ok sample := by
  decide +kernel

theorem validate_sample : validate sample = .ok () := Validation.orError_eq_ok_iff.mpr (by decide)

theorem ofManifests_sample_none : ofManifests sampleManifest none = .ok (sample, none) :=
  (ofManifests_of_parse parse_sampleManifest validate_sample).1

theorem ofManifests_sample {manifest : String} {c : Collection}
    (h : Collection.ofManifest manifest = .ok c) :
    ofManifests sampleManifest (some manifest) = .ok (sample, some c) :=
  (ofManifests_of_parse parse_sampleManifest validate_sample).2 h

/-- A collection with a name that is too long for its own roles still has well-identified
forwarders. -/
theorem wellIdentified_of_length_246 :
    ∃ rs, (generateOffline sampleManifest
        (some (Collection.manifestNamed (List.replicate 246 'a')))).outcome = .ok rs ∧
      (∀ r ∈ rs, Draft.WellIdentified r.value) ∧ ∃ r ∈ rs, r.kind = "Deployment" := by
  have hw := ofManifests_sample (Collection.ofManifest_of_length_246 rfl)
  have hout : (generateOffline sampleManifest
      (some (Collection.manifestNamed (List.replicate 246 'a')))).outcome =
        .ok (sample.resourcesIn (some (Collection.named (List.replicate 246 'a'))) none) := by
    rw [outcome_generateOffline, hw]
    rfl
  exact ⟨_, hout, wellIdentified_of_generateOffline hout⟩

end Forwarder

end LogForwarder
