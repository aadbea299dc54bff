import LogForwarder.Workload.Kind

/-!
# Requests

The request that generation answers. There is none when resources are generated offline, and then
they come out as they were built.
-/

namespace LogForwarder

/-- The object that a request is about. -/
structure Request where
  name : String
  objectNamespace : Option String := none
  deriving DecidableEq, Repr

namespace Request

/-- The request about a workload. -/
def ofResource {σ : Type} (r : Workload σ) : Request :=
  ⟨r.metadata.anyName, r.metadata.objectNamespace⟩

/-- How a request shows itself. -/
def display (c : Request) : String :=
  match c.objectNamespace with
  | some objectNamespace => objectNamespace ++ "/" ++ c.name
  | none => c.name

end Request

end LogForwarder
