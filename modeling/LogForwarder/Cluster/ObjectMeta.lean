import LogForwarder.Value.Record

/-!
# Metadata of objects

The part of an object that names it.
-/

namespace LogForwarder

/-- What an object says about itself, whatever its kind. -/
structure ObjectMeta where
  annotations : Option (List (String × String)) := none
  finalizers : Option (List String) := none
  generateName : Option String := none
  generation : Option Int := none
  labels : Option (List (String × String)) := none
  name : Option String := none
  objectNamespace : Option String := none
  resourceVersion : Option String := none
  uid : Option String := none
  deriving DecidableEq, Repr

namespace ObjectMeta

/-- The name, or else the stem from which the cluster is asked to make one. -/
def anyName (m : ObjectMeta) : String := m.name.getD (m.generateName.getD "")

/-- How metadata may be given. -/
def schema : Schema :=
  .record ⟨"ObjectMeta", false, none⟩
    [ (⟨"annotations", .omittable, {}⟩, .dict .text),
      (⟨"finalizers", .omittable, {}⟩, .list .text),
      (⟨"generateName", .omittable, {}⟩, .text),
      (⟨"generation", .omittable, {}⟩, .integer .signed64),
      (⟨"labels", .omittable, {}⟩, .dict .text),
      (⟨"name", .omittable, {}⟩, .text),
      (⟨"namespace", .omittable, {}⟩, .text),
      (⟨"resourceVersion", .omittable, {}⟩, .text),
      (⟨"uid", .omittable, {}⟩, .text) ]

/-- What a canonical value says. -/
def ofValue (v : Value) : ObjectMeta where
  annotations := (v.member "annotations").asOption (·.asDict Value.asText)
  finalizers := (v.member "finalizers").asOption (·.asList Value.asText)
  generateName := (v.member "generateName").asOption Value.asText
  generation := (v.member "generation").asOption Value.asInt
  labels := (v.member "labels").asOption (·.asDict Value.asText)
  name := (v.member "name").asOption Value.asText
  objectNamespace := (v.member "namespace").asOption Value.asText
  resourceVersion := (v.member "resourceVersion").asOption Value.asText
  uid := (v.member "uid").asOption Value.asText

/-- The canonical value of metadata. -/
def toValue (m : ObjectMeta) : Value :=
  .map <|
    Value.ofMember "annotations" (Value.ofDict .str) m.annotations ++
    Value.ofMember "finalizers" (Value.ofList .str) m.finalizers ++
    Value.ofMember "generateName" .str m.generateName ++
    Value.ofMember "generation" .int m.generation ++
    Value.ofMember "labels" (Value.ofDict .str) m.labels ++
    Value.ofMember "name" .str m.name ++
    Value.ofMember "namespace" .str m.objectNamespace ++
    Value.ofMember "resourceVersion" .str m.resourceVersion ++
    Value.ofMember "uid" .str m.uid

end ObjectMeta

end LogForwarder
