import LogForwarder.Generation.Forwarder
import LogForwarder.Proofs.Generation.Pipeline
import LogForwarder.Proofs.Number.Numeral
import LogForwarder.Proofs.Schema.ReadBack

/-!
# Deployments of forwarders that are stored

The deployment of a forwarder is built as a canonical value, but for the numbers and flags of its
environment. So it is stored as it was built, with the texts of the two entries that are not texts
(`ForwarderPod.stored`), and storing it cannot fail (`ForwarderPod.convert_deployment`).
-/

namespace LogForwarder

/-! ## Entries of environments -/

namespace Draft

/-- The containers of a deployment. -/
def containers (d : Draft) : List Value := (d.itemsAt? Mutator.containersPath).getD []

/-- The entries in the environment of a container. -/
def environmentOf (container : Value) : List Value := (container.itemsAt? ["env"]).getD []

/-- The values of the entries of a name in the environments of the containers. -/
def entryValues (d : Draft) (name : String) : List Value :=
  (containers d).flatMap fun container =>
    (environmentOf container).filterMap fun entry =>
      if entry.textAt? ["name"] = some name then entry.get? ["value"] else none

/-- A deployment with another value for the entries of a name, and the same in every other
respect. -/
def withEntry (d : Draft) (name : String) (v : Value) : Draft :=
  let replaceIn (container : Value) : Value :=
    (store container ["env"] (.list ((environmentOf container).map fun entry =>
      if entry.textAt? ["name"] = some name then (store entry ["value"] v).1 else entry))).1
  (store d Mutator.containersPath (.list ((containers d).map replaceIn))).1

end Draft

/-! ## The stored form -/

namespace ForwarderPod

variable (p : ForwarderPod)

/-- The deployment as it is stored: as it is built, but for the texts of a number and a flag. -/
def stored : Draft :=
  (p.deployment.withEntry "OCM_POLL_INTERVAL_MINUTES"
    (.str (toString p.environment.pollIntervalMinutes.toNat))).withEntry "DEBUG"
      (.str (toString p.environment.debug))

theorem coerce_debug (b : Bool) : Environment.coerce (.bool b) = .str (toString b) := by
  cases b <;> rfl

theorem coerce_minutes (n : Nat) : Environment.coerce (.int n) = .str (toString n) :=
  congrArg Value.str (Numeral.decimal_eq_toString n)

/-- The environment is there to be coerced, and only two entries change. -/
theorem coerceContainers_deployment :
    Mutator.coerceContainers (Draft.identity p.deployment) p.deployment = .ok p.stored := by
  unfold stored
  rw [← coerce_debug, ← coerce_minutes]
  rfl

theorem isWellFormed_schema : Deployment.schema.isWellFormed := by decide +kernel

/-- Every member that is built is one that the cluster knows, and all that it needs are built. -/
theorem isCanonical_stored : Deployment.schema.isCanonical p.stored := by
  rfl

/-- **Storing cannot fail.** The deployment of a forwarder is stored whatever the forwarder is. -/
theorem convert_deployment : Mutator.convert p.deployment = .ok ⟨p.stored⟩ := by
  have hread : Deployment.ofValue p.stored = .ok ⟨p.stored⟩ := by
    unfold Deployment.ofValue
    rw [Schema.ofValue_of_isCanonical isWellFormed_schema p.isCanonical_stored]
    rfl
  exact bind_eq_ok.mpr ⟨p.stored, p.coerceContainers_deployment, by rw [hread]; rfl⟩

/-! ## The resource -/

/-- The deployment as it comes out of generation. -/
def resource : Option Request → Resource
  | none => .untyped p.deployment
  | some _ => .typed ⟨p.stored⟩

theorem deployment_gives (request : Option Request) :
    (Mutator.deployment p.deployment request).Gives (p.resource request) := by
  cases request with
  | none => exact Generation.gives_pure _
  | some _ =>
    unfold Mutator.deployment
    rw [convert_deployment]
    exact Generation.gives_pure _

/-- The deployment is called the same in both forms. -/
theorem identity_resource (request : Option Request) :
    (p.resource request).identity = ⟨p.objectNamespace, p.name, "Deployment"⟩ := by
  cases request <;> rfl

theorem resource_kind (request : Option Request) : (p.resource request).kind = "Deployment" :=
  congrArg Identity.kind (p.identity_resource request)

end ForwarderPod

end LogForwarder
