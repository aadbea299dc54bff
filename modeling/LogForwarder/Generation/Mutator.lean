import LogForwarder.Generation.Environment
import LogForwarder.Generation.Metrics
import LogForwarder.Generation.Request
import LogForwarder.Generation.Resource

/-!
# Mutators

What is done to a built resource before it is given out. Without a request it comes out as built.
With one, a deployment has its environment coerced to texts and is brought into the form that the
cluster stores; a failure to do so is counted.
-/

namespace LogForwarder

/-- What is done to a built resource. -/
abbrev Mutator := Draft → Option Request → Generation Resource

namespace Mutator

/-- Gives a resource out as it was built. -/
def passThrough : Mutator := fun d _ => pure (.untyped d)

/-! ## Deployments -/

/-- Where the containers of a deployment stand. -/
def containersPath : List String := ["spec", "template", "spec", "containers"]

/-- An entry of the environment of a container. -/
def coerceEntry (object : Identity) (container : String) : Value → Except GenerationError Value
  | .map members => .ok (.map (Environment.coerceEntry members))
  | _ => .error (.noEnvironment container object)

/-- A container with its environment coerced. -/
def coerceContainer (object : Identity) (container : Value) : Except GenerationError Value :=
  match container with
  | .map members =>
    let name := (container.textAt? ["name"]).getD ""
    match Members.get? members "env" with
    | some (.list entries) => do
      let entries ← entries.mapM (coerceEntry object name)
      return .map (Members.put members "env" (.list entries))
    | _ => throw (.noEnvironment name object)
  | _ => .error (.noContainers object)

/-- A deployment with the environments of its containers coerced. -/
def coerceContainers (object : Identity) (d : Draft) : Except GenerationError Draft :=
  match d.itemsAt? containersPath with
  | some containers => do
    let containers ← containers.mapM (coerceContainer object)
    return (Draft.store d containersPath (.list containers)).1
  | none => .error (.noContainers object)

/-- A deployment in the form that the cluster stores. -/
def convert (d : Draft) : Except GenerationError Deployment := do
  let object := Draft.identity d
  match Deployment.ofValue (← coerceContainers object d) with
  | .ok deployment => return deployment
  | .error m => throw (.unfit "Deployment" object m)

/-- Brings a deployment into the form that the cluster stores, if there is a request. -/
def deployment : Mutator := fun d request =>
  match request with
  | none => pure (.untyped d)
  | some _ =>
    match convert d with
    | .ok deployment => pure (.typed deployment)
    | .error e => do
      Generation.count Metrics.countMutationFailure
      throw e

end Mutator

end LogForwarder
