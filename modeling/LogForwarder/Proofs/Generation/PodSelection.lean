import LogForwarder.Proofs.Generation.ForwarderPod
import LogForwarder.Value.Record

/-!
# How the pods of a deployment are found

A deployment finds its pods by a label selector, and keeps them apart by another. The labels and
the selectors of a forwarder all say its name (`ForwarderPod.labelledAs_resource`), so the selector
of its deployment tells the name of the forwarder and nothing else.
-/

namespace LogForwarder

namespace Draft

/-- The labels in the map at a path of keys. -/
def labelsAt (d : Draft) (path : List String) : List (String × String) :=
  ((d.get? path).getD .null).asDict Value.asText

/-- The label selector by which a deployment finds its pods. -/
def selector? (d : Draft) : Option Value := d.get? ["spec", "selector"]

/-- The labels that a label selector names, each with a value that it may have. -/
def selectedLabels (selector : Value) : List (String × String) :=
  (selector.member "matchLabels").asDict Value.asText ++
    ((selector.member "matchExpressions").asList id).flatMap fun expression =>
      ((expression.member "values").asList Value.asText).map fun value =>
        ((expression.member "key").asText, value)

/-- The label selectors of the pods that the pods of a deployment are kept apart from. -/
def avoidedPods (d : Draft) : List Value :=
  let terms := d.itemsAt?
    ["spec", "template", "spec", "affinity", "podAntiAffinity",
      "preferredDuringSchedulingIgnoredDuringExecution"]
  (terms.getD []).map fun term =>
    (term.get? ["podAffinityTerm", "labelSelector"]).getD .null

/-- Whether a deployment and its pods have one label, by which the pods are found and kept apart. -/
structure LabelledAs (d : Draft) (label : String) : Prop where
  own : labelsAt d ["metadata", "labels"] = [(nameLabel, label)]
  pods : labelsAt d ["spec", "template", "metadata", "labels"] = [(nameLabel, label)]
  selected : (selector? d).map selectedLabels = some [(nameLabel, label)]
  avoided : (avoidedPods d).map selectedLabels = [[(nameLabel, label)]]

end Draft

namespace ForwarderPod

variable (p : ForwarderPod) (request : Option Request)

theorem labelledAs_resource : Draft.LabelledAs (p.resource request).value p.name := by
  cases request <;> exact ⟨rfl, rfl, rfl, rfl⟩

theorem selector?_resource : Draft.selector? (p.resource request).value =
    some (.map [("matchLabels", labels p.name)]) := by
  cases request <;> rfl

/-- Two deployments find the same pods exactly if they are called the same. -/
theorem selector?_resource_eq_iff {p q : ForwarderPod} {r s : Option Request} :
    Draft.selector? (p.resource r).value = Draft.selector? (q.resource s).value ↔
      p.name = q.name := by
  rw [selector?_resource, selector?_resource]
  simp [labels]

end ForwarderPod

end LogForwarder
