import LogForwarder.Value.Record

/-!
# Status of a workload

What the control plane writes about a workload. Generation never reads it.
-/

namespace LogForwarder

/-- The outcome of one phase of reconciliation. -/
structure PhaseCondition where
  phase : String
  state : String
  message : String := ""
  lastModified : Option String := none
  deriving DecidableEq, Repr

namespace PhaseCondition

/-- How a condition may be given. -/
def schema : Schema :=
  .record ⟨"PhaseCondition", true, "Outcome of one reconciliation phase"⟩
    [ (⟨"phase", .required, {}⟩, .text),
      (⟨"state", .required, {}⟩, .text),
      (⟨"message", .whenAbsent (.str ""), {}⟩, .text),
      (⟨"lastModified", .nullable, {}⟩, .text) ]

/-- The canonical value of a condition. -/
def toValue (c : PhaseCondition) : Value :=
  .map
    [ ("phase", .str c.phase), ("state", .str c.state), ("message", .str c.message),
      ("lastModified", Value.ofOption .str c.lastModified) ]

/-- What a canonical value says. -/
def ofValue (v : Value) : PhaseCondition where
  phase := (v.member "phase").asText
  state := (v.member "state").asText
  message := (v.member "message").asText
  lastModified := (v.member "lastModified").asOption Value.asText

end PhaseCondition

/-- An object that a workload owns. -/
structure ChildResource where
  group : String
  version : String
  kind : String
  name : String
  objectNamespace : String := ""
  condition : String := ""
  message : String := ""
  deriving DecidableEq, Repr

namespace ChildResource

/-- How an owned object may be given. -/
def schema : Schema :=
  .record ⟨"ChildResource", true, "A child resource owned by the workload"⟩
    [ (⟨"group", .required, {}⟩, .text),
      (⟨"version", .required, {}⟩, .text),
      (⟨"kind", .required, {}⟩, .text),
      (⟨"name", .required, {}⟩, .text),
      (⟨"namespace", .whenAbsent (.str ""), {}⟩, .text),
      (⟨"condition", .whenAbsent (.str ""), {}⟩, .text),
      (⟨"message", .whenAbsent (.str ""), {}⟩, .text) ]

/-- The canonical value of an owned object. -/
def toValue (c : ChildResource) : Value :=
  .map
    [ ("group", .str c.group), ("version", .str c.version), ("kind", .str c.kind),
      ("name", .str c.name), ("namespace", .str c.objectNamespace),
      ("condition", .str c.condition), ("message", .str c.message) ]

/-- What a canonical value says. -/
def ofValue (v : Value) : ChildResource where
  group := (v.member "group").asText
  version := (v.member "version").asText
  kind := (v.member "kind").asText
  name := (v.member "name").asText
  objectNamespace := (v.member "namespace").asText
  condition := (v.member "condition").asText
  message := (v.member "message").asText

end ChildResource

/-- The status of a workload. -/
structure WorkloadStatus where
  created : Bool := false
  dependenciesSatisfied : Bool := false
  conditions : List PhaseCondition := []
  resources : List ChildResource := []
  deriving DecidableEq, Repr

namespace WorkloadStatus

/-- How a status may be given. -/
def schema : Schema :=
  .record ⟨"WorkloadStatus", true, none⟩
    [ (⟨"created", .whenAbsent (.bool false), {}⟩, .flag),
      (⟨"dependenciesSatisfied", .whenAbsent (.bool false), {}⟩, .flag),
      (⟨"conditions", .whenAbsent (.list []), {}⟩, .list PhaseCondition.schema),
      (⟨"resources", .whenAbsent (.list []), {}⟩, .list ChildResource.schema) ]

/-- The canonical value of a status. -/
def toValue (s : WorkloadStatus) : Value :=
  .map
    [ ("created", .bool s.created), ("dependenciesSatisfied", .bool s.dependenciesSatisfied),
      ("conditions", Value.ofList PhaseCondition.toValue s.conditions),
      ("resources", Value.ofList ChildResource.toValue s.resources) ]

/-- What a canonical value says. -/
def ofValue (v : Value) : WorkloadStatus where
  created := (v.member "created").asFlag
  dependenciesSatisfied := (v.member "dependenciesSatisfied").asFlag
  conditions := (v.member "conditions").asList PhaseCondition.ofValue
  resources := (v.member "resources").asList ChildResource.ofValue

end WorkloadStatus

end LogForwarder
