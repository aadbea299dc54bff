import LogForwarder.Error
import LogForwarder.Workload.Kind
import LogForwarder.Workload.Manifest

/-!
# Objects of the cluster

Objects of any kind, as the control plane hands them over. They have metadata, and a kind and a
version if both are given as texts; the rest is read once the kind is known.
-/

namespace LogForwarder

/-- An object of any kind. -/
structure ApiObject where
  envelope : Option Envelope
  metadata : ObjectMeta
  /-- The members other than those above. -/
  content : Members
  deriving DecidableEq, Repr

namespace ApiObject

/-- The kind and the version among the members of an object. -/
def envelope? (members : Members) : Option Envelope :=
  match Members.get? members "apiVersion", Members.get? members "kind" with
  | some (.str apiVersion), some (.str kind) => some ⟨apiVersion, kind⟩
  | _, _ => none

/-- The metadata among the members of an object, where they are well formed or missing. -/
def metadata? (members : Members) : Option ObjectMeta :=
  match Members.get? members "metadata" with
  | none => some {}
  | some v => (ObjectMeta.schema.ofValue v).toOption.map .ofValue

/-- The object that a value is. -/
def ofValue? : Value → Option ApiObject
  | .map members => do
    let metadata ← metadata? members
    let content := members.filter fun m => m.1 ∉ ["apiVersion", "kind", "metadata"]
    return ⟨envelope? members, metadata, content⟩
  | _ => none

/-- The kind of an object, empty when it has none. -/
def kind (o : ApiObject) : String := o.envelope.elim "" (·.kind)

/-- What names the object. -/
def identity (o : ApiObject) : Identity :=
  ⟨o.metadata.objectNamespace.getD "", o.metadata.anyName, o.kind⟩

/-- The members of an object, its kind and version aside. -/
def toValue (o : ApiObject) : Value := .map (Members.put o.content "metadata" o.metadata.toValue)

/-- The workload that an object is. -/
def parse (σ : Type) [WorkloadKind σ] (o : ApiObject) : Except GenerationError (Workload σ) :=
  let expected := WorkloadKind.kind σ
  if o.kind = expected then
    match (Workload.schema σ).ofValue o.toValue with
    | .ok v => .ok (.ofValue v)
    | .error m => .error (.unfit expected o.identity m)
  else .error (.otherKind expected o.kind)

/-- The forwarder and the collection, if any, that two objects are. -/
def parseInputs (workload : ApiObject) (collection : Option ApiObject) :
    Except GenerationError (Forwarder × Option Collection) := do
  let forwarder ← workload.parse ForwarderSpec
  match collection with
  | none => return (forwarder, none)
  | some o => return (forwarder, some (← o.parse CollectionSpec))

end ApiObject

end LogForwarder
