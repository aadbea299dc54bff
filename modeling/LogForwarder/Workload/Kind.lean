import LogForwarder.Cluster.ObjectMeta
import LogForwarder.Workload.CollectionSpec
import LogForwarder.Workload.ForwarderSpec
import LogForwarder.Workload.Status

/-!
# Workloads

The two kinds of objects that resources are generated from. `WorkloadKind` is what tells the kinds
apart; everything else about a workload is the same for both.
-/

namespace LogForwarder

/-- The group that both kinds belong to. -/
def apiGroup : String := "apps.dustinscott.io"

/-- The versions in which the kinds are served, the oldest first. -/
def servedVersions : List String := ["v1alpha1"]

/-- The newest version served. -/
def latestVersion : String := "v1alpha1"

/-- The group and the version of both kinds. -/
def apiVersion : String := apiGroup ++ "/" ++ latestVersion

/-- Whether the objects of a kind belong to a namespace. -/
inductive Scope where
  | namespaced
  | cluster
  deriving DecidableEq, Repr

/-- The name of a scope. -/
def Scope.text : Scope → String
  | namespaced => "Namespaced"
  | cluster => "Cluster"

/-- A column that the cluster shows of an object. -/
structure PrinterColumn where
  name : String
  type : String
  jsonPath : String
  deriving DecidableEq, Repr

/-- A type of specifications, and what the kind of objects that they specify is. -/
class WorkloadKind (σ : Type) where
  kind : String
  /-- The title of the record that an object of the kind is. -/
  title : String
  singular : String
  shortName : String
  scope : Scope
  columns : List PrinterColumn
  schema : Schema
  ofValue : Value → σ
  toValue : σ → Value

instance : WorkloadKind ForwarderSpec where
  kind := "OCMLogForwarder"
  title := "OcmLogForwarder"
  singular := "ocmlogforwarder"
  shortName := "olf"
  scope := .namespaced
  columns :=
    [⟨"Version", "string", ".spec.forwarderVersion"⟩, ⟨"Created", "boolean", ".status.created"⟩]
  schema := ForwarderSpec.schema
  ofValue := ForwarderSpec.ofValue
  toValue := ForwarderSpec.toValue

instance : WorkloadKind CollectionSpec where
  kind := "OCMLogForwarderConfig"
  title := "OcmLogForwarderConfig"
  singular := "ocmlogforwarderconfig"
  shortName := "olfc"
  scope := .cluster
  columns :=
    [ ⟨"Namespace", "string", ".spec.forwarderNamespace"⟩,
      ⟨"Created", "boolean", ".status.created"⟩ ]
  schema := CollectionSpec.schema
  ofValue := CollectionSpec.ofValue
  toValue := CollectionSpec.toValue

/-- An object of one of the kinds. -/
structure Workload (σ : Type) where
  metadata : ObjectMeta
  spec : σ
  status : Option WorkloadStatus := none
  deriving DecidableEq, Repr

/-- A forwarder of service logs. -/
abbrev Forwarder := Workload ForwarderSpec

/-- A collection of forwarders, which share a namespace, a service account and a backend. -/
abbrev Collection := Workload CollectionSpec

namespace Workload

variable {σ : Type} [WorkloadKind σ]

/-- The name of a workload, empty when it has none. -/
def name (r : Workload σ) : String := r.metadata.name.getD ""

/-- The schema of an object of the kind, but for its kind and version. -/
def schema (σ : Type) [WorkloadKind σ] : Schema :=
  .record ⟨WorkloadKind.title σ, true, none⟩
    [ (⟨"metadata", .required, {}⟩, ObjectMeta.schema),
      (⟨"spec", .required, {}⟩, WorkloadKind.schema σ),
      (⟨"status", .omittable, {}⟩, WorkloadStatus.schema) ]

/-- The object that a canonical value spells. -/
def ofValue (v : Value) : Workload σ where
  metadata := .ofValue (v.member "metadata")
  spec := WorkloadKind.ofValue (v.member "spec")
  status := (v.member "status").asOption WorkloadStatus.ofValue

/-- The object as a value, with its kind and version. -/
def toValue (r : Workload σ) : Value :=
  .map <|
    [ ("apiVersion", .str apiVersion), ("kind", .str (WorkloadKind.kind σ)),
      ("metadata", r.metadata.toValue), ("spec", WorkloadKind.toValue r.spec) ] ++
    Value.ofMember "status" WorkloadStatus.toValue r.status

end Workload

namespace Forwarder

/-- The namespace of a forwarder whose manifest names none. -/
def defaultNamespace : String := "default"

/-- The namespace of a forwarder. -/
def homeNamespace (p : Forwarder) : String := p.metadata.objectNamespace.getD defaultNamespace

end Forwarder

end LogForwarder
