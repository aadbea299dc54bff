import LogForwarder.Error
import LogForwarder.Workload.Kind
import LogForwarder.Schema.OfNode
import LogForwarder.Yaml.Datum
import LogForwarder.Yaml.Node.OfTokens

/-!
# Manifests

YAML documents that spell workloads. The kind and the version are read first, and a document
of another kind is refused whatever else it holds.
-/

namespace LogForwarder

/-- The version and the kind that an object says it is of. -/
structure Envelope where
  apiVersion : String
  kind : String
  deriving DecidableEq, Repr

namespace Envelope

/-- What every manifest has to begin with. -/
def schema : Schema :=
  .record ⟨"TypeMeta", true, none⟩
    [(⟨"apiVersion", .required, {}⟩, .text), (⟨"kind", .required, {}⟩, .text)]

/-- The version and the kind in a canonical value. -/
def ofValue (v : Value) : Envelope where
  apiVersion := (v.member "apiVersion").asText
  kind := (v.member "kind").asText

/-- How messages name the kind of an object. -/
def text (e : Envelope) : String := e.apiVersion ++ "/" ++ e.kind

/-- The version without the group before it. -/
def version (e : Envelope) : String :=
  String.ofList (e.apiVersion.toList.reverse.takeWhile (· ≠ '/')).reverse

/-- The envelope of a kind. -/
def ofKind (σ : Type) [WorkloadKind σ] : Envelope := ⟨LogForwarder.apiVersion, WorkloadKind.kind σ⟩

end Envelope

namespace Manifest

/-- What a text holds by a schema. Only a document that has data at all is refused with a
detail. -/
def read (schema : Schema) (kind text : String) : Except GenerationError Value :=
  match Yaml.Document.read? text with
  | none => .error (.unreadable kind none)
  | some document =>
    match schema.ofDocument document with
    | .ok v => .ok v
    | .error m =>
      .error (.unreadable kind ((Yaml.Datum.ofDocument? document).map fun _ => m.message))

/-- The version and the kind of a manifest. -/
def envelope (kind text : String) : Except GenerationError Envelope :=
  (read Envelope.schema kind text).map .ofValue

/-- The version of a manifest of any kind. -/
def version (text : String) : Except GenerationError String :=
  (envelope "manifest" text).map Envelope.version

/-- The workload that a manifest spells. -/
def parse (σ : Type) [WorkloadKind σ] (text : String) : Except GenerationError (Workload σ) := do
  let found ← envelope (WorkloadKind.kind σ) text
  let expected := Envelope.ofKind σ
  if found = expected then
    return .ofValue (← read (Workload.schema σ) (WorkloadKind.kind σ) text)
  else throw (.otherKind expected.text found.text)

end Manifest

end LogForwarder
