import LogForwarder.Proofs.Generation.Resources
import LogForwarder.Proofs.Workload.Defaults
import LogForwarder.Workload.Validation

/-!
# Defaults make no difference

1. A workload is checked, and generated from, as it is when everything that it falls back on is
   named (`Forwarder.actsAs_of_completed_eq`, `Collection.actsAs_of_completed_eq`).
2. So an object and the same object with any of its defaults written out are accepted and refused
   alike, and the same resources come out of them (`writeOutAll_makes_no_difference`).
-/

namespace LogForwarder

open Generation

namespace Validation

/-- A field that passes its check when it is left out may be left out. -/
theorem optional_getD {name : String} {check : String → Except Complaint Unit} {default : String}
    (hdefault : check default = .ok ()) (o : Option String) :
    optional name check (some (o.getD default)) = optional name check o := by
  cases o with
  | none => simp [optional, field, hdefault]
  | some _ => rfl

theorem checkBackend_completed (b : BackendSpec) : checkBackend b.completed = checkBackend b := by
  have hsecret : Identifier.checkName elasticSecret = .ok () := by decide
  simp only [checkBackend, BackendSpec.completed, ElasticSearchSpec.completed,
    ElasticSearchSpec.secretName, optional_getD hsecret]

end Validation

/-! ## Forwarders -/

namespace Forwarder

/-- Whether a forwarder gets the same verdict as another, and the same resources are generated for
both in every mode, whatever the requests are about. -/
structure ActsAs (q p : Forwarder) : Prop where
  validate : q.validate = p.validate
  generate : ∀ (c : Option Collection) (r s : Option Request), r.isSome = s.isSome →
    ∃ rs, (p.generate c r).Gives rs ∧ (q.generate c s).Gives rs

theorem validate_completed (p : Forwarder) : p.completed.validate = p.validate := by
  have hnamespace : Identifier.checkNamespace defaultNamespace = .ok () := by decide
  have hcheck : Validation.checkForwarder p.completed = Validation.checkForwarder p := by
    simp only [Validation.checkForwarder, completed, ObjectMeta.completed, ForwarderSpec.completed,
      Validation.optional_getD hnamespace, Validation.checkBackend_completed, Workload.name]
  unfold validate
  rw [hcheck]

/-- Whatever reads the namespace or the secret of a forwarder falls back on the same. -/
theorem resourcesIn_completed (p : Forwarder) (c : Option Collection) (request : Option Request) :
    p.completed.resourcesIn c request = p.resourcesIn c request := by
  cases c <;> rfl

theorem resourcesIn_congr (p : Forwarder) (c : Option Collection) {r s : Option Request}
    (h : r.isSome = s.isSome) : p.resourcesIn c r = p.resourcesIn c s := by
  cases c <;> cases r <;> cases s <;> first | rfl | cases h

theorem actsAs_of_completed_eq {q p : Forwarder} (h : q.completed = p.completed) : q.ActsAs p where
  validate := by rw [← validate_completed q, h, validate_completed]
  generate c r s hrequests := by
    have hsame : q.resourcesIn c s = p.resourcesIn c r := by
      rw [← resourcesIn_completed q, h, resourcesIn_completed, resourcesIn_congr p c hrequests]
    exact ⟨_, p.generate_gives c r, hsame ▸ q.generate_gives c s⟩

end Forwarder

/-! ## Collections -/

namespace Collection

/-- Whether a collection gets the same verdict as another, and the same resources are generated for
both, and for every forwarder of them, whatever the requests are about. -/
structure ActsAs (d c : Collection) : Prop where
  validate : d.validate = c.validate
  generate : ∀ r s : Option Request, ∃ rs, (c.generate r).Gives rs ∧ (d.generate s).Gives rs
  forwarders : ∀ (p : Forwarder) (r s : Option Request), r.isSome = s.isSome →
    ∃ rs, (p.generate (some c) r).Gives rs ∧ (p.generate (some d) s).Gives rs

theorem validate_completed (c : Collection) : c.completed.validate = c.validate := by
  have hcheck : Validation.checkCollection c.completed = Validation.checkCollection c := by
    simp only [Validation.checkCollection, completed, CollectionSpec.completed,
      Validation.checkBackend_completed, Workload.name]
  unfold validate
  rw [hcheck]

theorem actsAs_of_completed_eq {d c : Collection} (h : d.completed = c.completed) : d.ActsAs c where
  validate := by rw [← validate_completed d, h, validate_completed]
  generate r s := by
    -- The resources of a collection look at no secret of its backend.
    have hcompleted : ∀ c : Collection, c.completed.resources = c.resources := fun _ => rfl
    have hsame : d.resources = c.resources := by rw [← hcompleted d, h, hcompleted]
    exact ⟨_, c.generate_gives r, hsame ▸ d.generate_gives s⟩
  forwarders p r s hrequests := by
    have hcompleted : ∀ c : Collection,
        p.resourcesIn (some c.completed) s = p.resourcesIn (some c) s := fun _ => rfl
    have hsame : p.resourcesIn (some d) s = p.resourcesIn (some c) r := by
      rw [← hcompleted d, h, hcompleted, p.resourcesIn_congr (some c) hrequests]
    exact ⟨_, p.generate_gives (some c) r, hsame ▸ p.generate_gives (some d) s⟩

end Collection

/-! ## Objects -/

/-- **Writing out defaults makes no difference.** Objects of both kinds that load, and whose
structures are given as maps, load with any of their defaults written out, as workloads that get
the same verdict and the same resources. -/
theorem writeOutAll_makes_no_difference :
    (∀ (v : Value) (p : Forwarder) (ds : List Default), Workload.LoadsAs v p →
        v.HasMapsAt Forwarder.blocks → ds ⊆ Forwarder.defaults →
          ∃ w q, v.writeOutAll? ds = some w ∧ Workload.LoadsAs w q ∧ Forwarder.ActsAs q p) ∧
      ∀ (v : Value) (c : Collection) (ds : List Default), Workload.LoadsAs v c →
        v.HasMapsAt Collection.blocks → ds ⊆ Collection.defaults →
          ∃ w d, v.writeOutAll? ds = some w ∧ Workload.LoadsAs w d ∧ Collection.ActsAs d c := by
  constructor
  · intro v p ds h hmaps hds
    obtain ⟨w, q, hw, hq, hsame⟩ := h.writeOutAll
      (fun d hd => Forwarder.keptBy_completed d (hds hd))
      (fun d hd => Forwarder.defaults_standIn d (hds hd)) hmaps
    exact ⟨w, q, hw, hq, Forwarder.actsAs_of_completed_eq hsame⟩
  · intro v c ds h hmaps hds
    obtain ⟨w, d, hw, hd, hsame⟩ := h.writeOutAll
      (fun d hd => Collection.keptBy_completed d (hds hd))
      (fun d hd => Collection.defaults_standIn d (hds hd)) hmaps
    exact ⟨w, d, hw, hd, Collection.actsAs_of_completed_eq hsame⟩

/-- A forwarder that says hardly more than it must, and gives the secret of its backend as
`null`. -/
def sparseForwarder : Value :=
  .map
    [ ("apiVersion", .str apiVersion), ("kind", .str "OCMLogForwarder"),
      ("metadata", .map [("name", .str "sample")]),
      ("spec", .map
        [ ("backend", .map [("elasticSearch", .map [("secretRef", .null)])]),
          ("ocm", .map [("clusterId", .str "abc123")]) ]) ]

/-- A collection that says no more than it must. -/
def sparseCollection : Value :=
  .map
    [ ("apiVersion", .str apiVersion), ("kind", .str "OCMLogForwarderConfig"),
      ("spec", .map []) ]

/-- All defaults are written out, the one that is `null` and those of a missing backend too. -/
theorem writeOutAll_of_sparse :
    (∃ (p : Forwarder) (w : Value) (q : Forwarder), Workload.LoadsAs sparseForwarder p ∧
        sparseForwarder.writeOutAll? Forwarder.defaults = some w ∧
        w.textAt? ["metadata", "namespace"] = some "default" ∧
        w.textAt? ["spec", "backend", "elasticSearch", "secretRef"] = some "elastic-auth" ∧
        Workload.LoadsAs w q ∧ Forwarder.ActsAs q p) ∧
      ∃ (c : Collection) (w : Value) (d : Collection), Workload.LoadsAs sparseCollection c ∧
        sparseCollection.writeOutAll? Collection.defaults = some w ∧
        w.textAt? ["spec", "backend", "type"] = some "elasticsearch" ∧
        Workload.LoadsAs w d ∧ Collection.ActsAs d c := by
  constructor
  · let p : Forwarder :=
      { metadata := { name := some "sample" }, spec := { ocm := { clusterId := "abc123" } } }
    have hloads : Workload.LoadsAs sparseForwarder p := ⟨_, rfl, rfl⟩
    have hmaps : sparseForwarder.HasMapsAt Forwarder.blocks := by
      simp [Value.HasMapsAt, Forwarder.blocks, sparseForwarder]
    obtain ⟨w, q, hw, hq, hacts⟩ := writeOutAll_makes_no_difference.1 sparseForwarder p
      Forwarder.defaults hloads hmaps (List.Subset.refl _)
    refine ⟨p, w, q, hloads, hw, ?_, ?_, hq, hacts⟩ <;> cases hw <;> rfl
  · let c : Collection := { metadata := {}, spec := {} }
    have hloads : Workload.LoadsAs sparseCollection c := ⟨_, rfl, rfl⟩
    have hmaps : sparseCollection.HasMapsAt Collection.blocks := by
      simp [Value.HasMapsAt, Collection.blocks, sparseCollection]
    obtain ⟨w, d, hw, hd, hacts⟩ := writeOutAll_makes_no_difference.2 sparseCollection c
      Collection.defaults hloads hmaps (List.Subset.refl _)
    refine ⟨c, w, d, hloads, hw, ?_, hd, hacts⟩
    cases hw
    rfl

end LogForwarder
