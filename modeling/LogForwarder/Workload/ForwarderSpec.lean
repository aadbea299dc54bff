import LogForwarder.Workload.Backend

/-!
# Specifications of forwarders

What a manifest says of one forwarder: the cluster whose service logs it polls, the backend it
ships them to, and the collection it belongs to, if any.
-/

namespace LogForwarder

/-- A reference to the collection that a forwarder belongs to. -/
structure CollectionReference where
  name : String
  objectNamespace : Option String := none
  deriving DecidableEq, Repr

namespace CollectionReference

/-- How a reference may be given. -/
def schema : Schema :=
  .record ⟨"CollectionReference", true, "Reference to the collection a forwarder belongs to"⟩
    [ (⟨"name", .required, {}⟩, .text),
      (⟨"namespace", .omittable, {}⟩, .text) ]

/-- The canonical value of a reference. -/
def toValue (c : CollectionReference) : Value :=
  .map <| ("name", .str c.name) :: Value.ofMember "namespace" .str c.objectNamespace

/-- What a canonical value says. -/
def ofValue (v : Value) : CollectionReference where
  name := (v.member "name").asText
  objectNamespace := (v.member "namespace").asOption Value.asText

end CollectionReference

/-- The secret with the token for the cluster manager, where a manifest names none. -/
def ocmSecret : String := "ocm-token"

/-- The count of minutes between two polls, where a manifest gives none. -/
def defaultPollInterval : UInt32 := 5

/-- How a forwarder polls the cluster manager. -/
structure OcmSpec where
  clusterId : String
  pollIntervalMinutes : UInt32 := defaultPollInterval
  secretRef : String := ocmSecret
  deriving DecidableEq, Repr

namespace OcmSpec

/-- The least count of minutes between two polls. -/
def minPollInterval : Nat := 1

/-- The greatest count of minutes between two polls, one day. -/
def maxPollInterval : Nat := 1440

/-- How these settings may be given. -/
def schema : Schema :=
  .record ⟨"OcmSpec", true, none⟩
    [ (⟨"clusterId", .required,
        { description := "Cluster ID in OpenShift Cluster Manager" }⟩, .text),
      (⟨"pollInternalMinutes", .whenAbsent (.int defaultPollInterval.toNat),
        { description :=
            "How often to poll for new service logs.\nThe wire name is kept as shipped by the " ++
            "first API version.",
          bounds := some (1, 1440) }⟩, .integer .unsigned32),
      (⟨"secretRef", .whenAbsent (.str ocmSecret),
        { description := "Secret holding the OCM API token, in the forwarder's namespace" }⟩,
        .text) ]

/-- The canonical value of these settings. -/
def toValue (o : OcmSpec) : Value :=
  .map
    [ ("clusterId", .str o.clusterId), ("pollInternalMinutes", .int o.pollIntervalMinutes.toNat),
      ("secretRef", .str o.secretRef) ]

/-- What a canonical value says. -/
def ofValue (v : Value) : OcmSpec where
  clusterId := (v.member "clusterId").asText
  pollIntervalMinutes := UInt32.ofNat (v.member "pollInternalMinutes").asInt.toNat
  secretRef := (v.member "secretRef").asText

end OcmSpec

/-- The image tag of a forwarder, where a manifest names none. -/
def defaultForwarderVersion : String := "latest"

/-- The specification of a forwarder. -/
structure ForwarderSpec where
  collection : Option CollectionReference := none
  forwarderVersion : String := defaultForwarderVersion
  ocm : OcmSpec
  backend : BackendSpec := {}
  debug : Bool := false
  deriving DecidableEq, Repr

namespace ForwarderSpec

/-- How a specification may be given. -/
def schema : Schema :=
  .record ⟨"OcmLogForwarderSpec", true, none⟩
    [ (⟨"collection", .omittable,
        { description :=
            "Optional reference to the OCMLogForwarderConfig collection owning this " ++
            "forwarder.\nWhen set, the collection supplies the backend, namespace and service " ++
            "account." }⟩, CollectionReference.schema),
      (⟨"forwarderVersion", .whenAbsent (.str defaultForwarderVersion),
        { description := "Forwarder image tag" }⟩, .text),
      (⟨"ocm", .required,
        { description := "OpenShift Cluster Manager connection settings" }⟩, OcmSpec.schema),
      (⟨"backend", .whenAbsent ({} : BackendSpec).toValue,
        { description := "Destination for the forwarded service logs" }⟩, BackendSpec.schema),
      (⟨"debug", .whenAbsent (.bool false),
        { description := "Enable debug logging in the forwarder" }⟩, .flag) ]

/-- The canonical value of a specification. -/
def toValue (s : ForwarderSpec) : Value :=
  .map <|
    Value.ofMember "collection" CollectionReference.toValue s.collection ++
    [ ("forwarderVersion", .str s.forwarderVersion), ("ocm", s.ocm.toValue),
      ("backend", s.backend.toValue), ("debug", .bool s.debug) ]

/-- What a canonical value says. -/
def ofValue (v : Value) : ForwarderSpec where
  collection := (v.member "collection").asOption CollectionReference.ofValue
  forwarderVersion := (v.member "forwarderVersion").asText
  ocm := .ofValue (v.member "ocm")
  backend := .ofValue (v.member "backend")
  debug := (v.member "debug").asFlag

/-- Whether a forwarder is managed by a collection. -/
def isCollectionScoped (s : ForwarderSpec) : Bool := s.collection.isSome

end ForwarderSpec

end LogForwarder
