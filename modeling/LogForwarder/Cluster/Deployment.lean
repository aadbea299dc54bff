import LogForwarder.Cluster.Identity
import LogForwarder.Cluster.ObjectMeta
import LogForwarder.Schema.OfValue

/-!
# Deployments

What the cluster takes for a deployment, as far as forwarders use it. A `Deployment` is a value in
the canonical form of `Deployment.schema`.
-/

namespace LogForwarder

namespace Deployment

/-! ## Members -/

/-- A record of the cluster. -/
def object (title : String) (members : List (MemberInfo × Schema)) : Schema :=
  .record ⟨title, false, none⟩ members

/-- A member that may be left out. -/
def optional (name : String) (schema : Schema) : MemberInfo × Schema :=
  (⟨name, .omittable, {}⟩, schema)

/-- A member that is empty when it is left out. -/
def defaulted (name : String) (default : Value) (schema : Schema) : MemberInfo × Schema :=
  (⟨name, .whenAbsentOrNull default, {}⟩, schema)

/-- A text that is empty when it is left out. -/
def needed (name : String) : MemberInfo × Schema := defaulted name (.str "") .text

/-- A member that can be one text only. -/
def fixed (name value : String) : MemberInfo × Schema :=
  (⟨name, .whenAbsent (.str value), {}⟩, .constant value)

/-! ## The records -/

/-- Which objects are meant, by their labels. -/
def labelSelector : Schema :=
  object "LabelSelector"
    [ optional "matchExpressions" (.list (object "LabelSelectorRequirement"
        [needed "key", needed "operator", optional "values" (.list .text)])),
      optional "matchLabels" (.dict .text) ]

/-- Which pods are to be kept together or apart, and over what. -/
def podAffinityTerm : Schema :=
  object "PodAffinityTerm" [optional "labelSelector" labelSelector, needed "topologyKey"]

/-- Where a pod is placed. -/
def affinity : Schema :=
  object "Affinity"
    [ optional "podAntiAffinity" (object "PodAntiAffinity"
        [ optional "preferredDuringSchedulingIgnoredDuringExecution" (.list
            (object "WeightedPodAffinityTerm"
              [ defaulted "podAffinityTerm" (.map [("topologyKey", .str "")]) podAffinityTerm,
                defaulted "weight" (.int 0) (.integer .signed32) ])) ]) ]

/-- Where the cluster takes the value of an entry from. -/
def environmentSource : Schema :=
  object "EnvVarSource"
    [ optional "fieldRef" (object "ObjectFieldSelector"
        [optional "apiVersion" .text, needed "fieldPath"]),
      optional "secretKeyRef" (object "SecretKeySelector"
        [needed "key", needed "name", optional "optional" .flag]) ]

/-- An entry of the environment of a container. -/
def environmentEntry : Schema :=
  object "EnvVar"
    [needed "name", optional "value" .text, optional "valueFrom" environmentSource]

/-- What a container may use. -/
def resourceRequirements : Schema :=
  object "ResourceRequirements"
    [optional "limits" (.dict .quantity), optional "requests" (.dict .quantity)]

/-- What a container may do. -/
def securityContext : Schema :=
  object "SecurityContext"
    [ optional "allowPrivilegeEscalation" .flag,
      optional "capabilities" (object "Capabilities"
        [optional "add" (.list .text), optional "drop" (.list .text)]),
      optional "readOnlyRootFilesystem" .flag,
      optional "runAsGroup" (.integer .signed64),
      optional "runAsNonRoot" .flag,
      optional "runAsUser" (.integer .signed64),
      optional "seccompProfile" (object "SeccompProfile"
        [optional "localhostProfile" .text, needed "type"]) ]

/-- A container of a pod. -/
def container : Schema :=
  object "Container"
    [ optional "args" (.list .text),
      optional "command" (.list .text),
      optional "env" (.list environmentEntry),
      optional "image" .text,
      optional "imagePullPolicy" .text,
      needed "name",
      optional "resources" resourceRequirements,
      optional "securityContext" securityContext ]

/-- What a pod runs. -/
def podSpec : Schema :=
  object "PodSpec"
    [ optional "affinity" affinity,
      defaulted "containers" (.list []) (.list container),
      optional "initContainers" (.list container),
      optional "nodeSelector" (.dict .text),
      optional "serviceAccountName" .text ]

/-- What the pods of a deployment are made from. -/
def podTemplate : Schema :=
  object "PodTemplateSpec" [optional "metadata" ObjectMeta.schema, optional "spec" podSpec]

/-- What a deployment is to be. -/
def spec : Schema :=
  object "DeploymentSpec"
    [ optional "paused" .flag,
      optional "replicas" (.integer .signed32),
      defaulted "selector" (.map []) labelSelector,
      defaulted "template" (.map []) podTemplate ]

/-- What a deployment is. -/
def status : Schema := object "DeploymentStatus" [optional "replicas" (.integer .signed32)]

/-- A deployment. -/
def schema : Schema :=
  object "Deployment"
    [ fixed "apiVersion" "apps/v1",
      fixed "kind" "Deployment",
      defaulted "metadata" (.map []) ObjectMeta.schema,
      optional "spec" spec,
      optional "status" status ]

end Deployment

/-- A deployment, in canonical form. -/
structure Deployment where
  value : Value
  deriving DecidableEq, Repr

namespace Deployment

/-- The deployment that a value spells. -/
def ofValue (v : Value) : Except Mismatch Deployment := (schema.ofValue v).map .mk

/-- The metadata of a deployment. -/
def metadata (d : Deployment) : ObjectMeta := .ofValue (d.value.member "metadata")

/-- What names a deployment. -/
def identity (d : Deployment) : Identity :=
  ⟨d.metadata.objectNamespace.getD "", d.metadata.anyName, "Deployment"⟩

end Deployment

end LogForwarder
