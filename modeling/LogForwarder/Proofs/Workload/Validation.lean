import LogForwarder.Proofs.Except
import LogForwarder.Workload.Validation

/-!
# What validation accepts

A workload is accepted exactly if every one of its checks passes: `checkForwarder_eq_ok_iff` and
`checkCollection_eq_ok_iff` list them. Which fault is reported when there are several is not said
here.
-/

namespace LogForwarder

open Identifier

namespace Validation

/-! ## Fields -/

theorem field_eq_ok_iff {name : String} {r : Except Complaint Unit} :
    field name r = .ok () ↔ r = .ok () := by
  cases r <;> simp [field]

theorem optional_eq_ok_iff {name : String} {check : String → Except Complaint Unit}
    {o : Option String} : optional name check o = .ok () ↔ ∀ s ∈ o, check s = .ok () := by
  cases o with
  | none => simp [optional]
  | some s => simp [optional, field_eq_ok_iff]

theorem orError_eq_ok_iff {kind : String} {r : Checked} : orError kind r = .ok () ↔ r = .ok () := by
  cases r <;> simp [orError]

theorem checkBackendType_eq_ok_iff {t : BackendType} :
    checkBackendType t = .ok () ↔ t.isElasticsearch := by
  cases t <;> simp [checkBackendType, BackendType.isElasticsearch]

/-! ## Workloads -/

theorem checkBackend_eq_ok_iff {b : BackendSpec} :
    checkBackend b = .ok () ↔
      b.isElasticsearch ∧ checkNotBlank b.elasticSearch.url = .ok () ∧
      checkIndex b.elasticSearch.index = .ok () ∧
      ∀ s ∈ b.elasticSearch.secretRef, checkName s = .ok () := by
  unfold checkBackend
  simp only [then_eq_ok_iff, field_eq_ok_iff, optional_eq_ok_iff, checkBackendType_eq_ok_iff]
  rfl

theorem checkForwarder_eq_ok_iff {p : Forwarder} :
    checkForwarder p = .ok () ↔
      checkLabel p.name = .ok () ∧ checkName p.name = .ok () ∧
      (∀ s ∈ p.metadata.objectNamespace, checkNamespace s = .ok ()) ∧
      (∀ s ∈ p.spec.collection.map (·.name), checkName s = .ok ()) ∧
      checkImageTag p.spec.forwarderVersion = .ok () ∧
      checkNotBlank p.spec.ocm.clusterId = .ok () ∧
      checkPollInterval p.spec.ocm.pollIntervalMinutes = .ok () ∧
      checkName p.spec.ocm.secretRef = .ok () ∧ checkBackend p.spec.backend = .ok () := by
  unfold checkForwarder
  simp only [then_eq_ok_iff, field_eq_ok_iff, optional_eq_ok_iff]

theorem checkCollection_eq_ok_iff {c : Collection} :
    checkCollection c = .ok () ↔
      checkName c.name = .ok () ∧ checkNamespace c.spec.forwarderNamespace = .ok () ∧
      checkBackend c.spec.backend = .ok () := by
  unfold checkCollection
  simp only [then_eq_ok_iff, field_eq_ok_iff]

end Validation

end LogForwarder
