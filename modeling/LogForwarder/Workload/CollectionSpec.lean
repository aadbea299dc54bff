import LogForwarder.Workload.Backend

/-!
# Specifications of collections

What a manifest says of a collection of forwarders: the namespace that they share and the backend
that they ship to.
-/

namespace LogForwarder

/-- The flavour of managed OpenShift that the forwarders run against. -/
inductive Provider where
  | rosa
  deriving DecidableEq, Repr

namespace Provider

/-- The name of a provider. -/
def text : Provider → String
  | rosa => "rosa"

/-- There is one provider, so every text names it. -/
def ofText (_ : String) : Provider := rosa

end Provider

/-- The namespace of the forwarders of a collection, where a manifest names none. -/
def defaultForwarderNamespace : String := "ocm-log-forwarder"

/-- The specification of a collection. -/
structure CollectionSpec where
  provider : Provider := .rosa
  forwarderNamespace : String := defaultForwarderNamespace
  backend : BackendSpec := {}
  deriving DecidableEq, Repr

namespace CollectionSpec

/-- How a specification may be given. -/
def schema : Schema :=
  .record ⟨"OcmLogForwarderConfigSpec", true, none⟩
    [ (⟨"provider", .whenAbsent (.str Provider.rosa.text),
        { description := "Managed OpenShift flavour the forwarders run against" }⟩,
        .choice [Provider.rosa.text]),
      (⟨"forwarderNamespace", .whenAbsent (.str defaultForwarderNamespace),
        { description := "Namespace holding the forwarders and their shared RBAC" }⟩, .text),
      (⟨"backend", .whenAbsent ({} : BackendSpec).toValue,
        { description := "Backend used by every forwarder in the collection" }⟩,
        BackendSpec.schema) ]

/-- The canonical value of a specification. -/
def toValue (s : CollectionSpec) : Value :=
  .map
    [ ("provider", .str s.provider.text), ("forwarderNamespace", .str s.forwarderNamespace),
      ("backend", s.backend.toValue) ]

/-- What a canonical value says. -/
def ofValue (v : Value) : CollectionSpec where
  provider := .ofText (v.member "provider").asText
  forwarderNamespace := (v.member "forwarderNamespace").asText
  backend := .ofValue (v.member "backend")

end CollectionSpec

end LogForwarder
