import LogForwarder.Error
import LogForwarder.Text.Blank
import LogForwarder.Workload.Kind

/-!
# Validation of workloads

Checks every field that goes into the name of an object, a label or a reference, in a fixed order;
the first field with a fault is reported. Generation trusts what it is given.
-/

namespace LogForwarder

/-- A field of a workload, and what is wrong with it. -/
structure FieldComplaint where
  field : String
  complaint : Complaint
  deriving DecidableEq, Repr

/-- What checking fields gives. -/
abbrev Checked := Except FieldComplaint Unit

namespace Validation

/-- Names the field that a check is about. -/
def field (name : String) : Except Complaint Unit → Checked
  | .ok () => .ok ()
  | .error complaint => .error ⟨name, complaint⟩

/-- Checks a field that may be left out. -/
def optional (name : String) (check : String → Except Complaint Unit) : Option String → Checked
  | none => .ok ()
  | some s => field name (check s)

/-- Checks that a text has more than blanks. -/
def checkNotBlank (s : String) : Except Complaint Unit :=
  if Text.isBlankText s then .error .empty else .ok ()

/-- Checks the count of minutes between two polls. -/
def checkPollInterval (minutes : UInt32) : Except Complaint Unit :=
  let n := minutes.toNat
  if OcmSpec.minPollInterval ≤ n ∧ n ≤ OcmSpec.maxPollInterval then .ok ()
  else .error (.outOfBounds OcmSpec.minPollInterval OcmSpec.maxPollInterval n)

/-- Checks that a backend is of a type that is served. -/
def checkBackendType : BackendType → Except Complaint Unit
  | .elasticsearch => .ok ()
  | .unsupported name => .error (.unsupportedBackend name)

/-- Checks the name of an index. -/
def checkIndex (s : String) : Except Complaint Unit :=
  if s = "" then .error .empty
  else if ElasticSearchSpec.maxIndexLength < s.length then
    .error (.tooManyChars ElasticSearchSpec.maxIndexLength s.length)
  else .ok ()

/-- Checks a backend. -/
def checkBackend (b : BackendSpec) : Checked := do
  field "spec.backend.type" (checkBackendType b.backendType)
  field "spec.backend.elasticSearch.url" (checkNotBlank b.elasticSearch.url)
  field "spec.backend.elasticSearch.index" (checkIndex b.elasticSearch.index)
  optional "spec.backend.elasticSearch.secretRef" Identifier.checkName b.elasticSearch.secretRef

/-- Checks a forwarder. Its name is a label as well. -/
def checkForwarder (p : Forwarder) : Checked := do
  field "metadata.name" (Identifier.checkLabel p.name)
  field "metadata.name" (Identifier.checkName p.name)
  optional "metadata.namespace" Identifier.checkNamespace p.metadata.objectNamespace
  optional "spec.collection.name" Identifier.checkName (p.spec.collection.map (·.name))
  field "spec.forwarderVersion" (Identifier.checkImageTag p.spec.forwarderVersion)
  field "spec.ocm.clusterId" (checkNotBlank p.spec.ocm.clusterId)
  field "spec.ocm.pollInternalMinutes" (checkPollInterval p.spec.ocm.pollIntervalMinutes)
  field "spec.ocm.secretRef" (Identifier.checkName p.spec.ocm.secretRef)
  checkBackend p.spec.backend

/-- Checks a collection. -/
def checkCollection (c : Collection) : Checked := do
  field "metadata.name" (Identifier.checkName c.name)
  field "spec.forwarderNamespace" (Identifier.checkNamespace c.spec.forwarderNamespace)
  checkBackend c.spec.backend

/-- The error about the fields of a workload. -/
def orError (kind : String) : Checked → Except GenerationError Unit
  | .ok () => .ok ()
  | .error c => .error (.invalid kind c.field c.complaint)

end Validation

/-- Refuses a forwarder that no resources can be generated from. -/
def Forwarder.validate (p : Forwarder) : Except GenerationError Unit :=
  Validation.orError (WorkloadKind.kind ForwarderSpec) (Validation.checkForwarder p)

/-- Refuses a collection that no resources can be generated from. -/
def Collection.validate (c : Collection) : Except GenerationError Unit :=
  Validation.orError (WorkloadKind.kind CollectionSpec) (Validation.checkCollection c)

end LogForwarder
