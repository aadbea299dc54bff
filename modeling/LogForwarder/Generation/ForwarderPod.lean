import LogForwarder.Cluster.Draft
import LogForwarder.Generation.Environment

/-!
# Pods of forwarders

The deployment that runs a forwarder. A forwarder of its own and one of a collection differ only in
what goes in, so the environment of the container has the same entries in the same order for both.
Whatever values are given go in unchecked.
-/

namespace LogForwarder

/-- The label that carries the name of a forwarder. -/
def nameLabel : String := "app.kubernetes.io/name"

/-- The name of the container of a forwarder. -/
def containerName : String := "forwarder"

/-- The image of a forwarder of some version. -/
def image (version : String) : String := "ghcr.io/scottd018/ocm-log-forwarder:" ++ version

/-- What a forwarder runs with. -/
structure ForwarderPod where
  name : String
  objectNamespace : String
  serviceAccount : String
  version : String
  environment : Environment
  deriving DecidableEq, Repr

namespace ForwarderPod

/-- The labels of a forwarder. -/
def labels (name : String) : Value := .map [(nameLabel, .str name)]

/-- Keeps the pods of a forwarder apart where there is a choice of hosts. -/
def affinity (name : String) : Value :=
  .map
    [ ("podAntiAffinity", .map
      [ ("preferredDuringSchedulingIgnoredDuringExecution", .list
        [ .map
          [ ("podAffinityTerm", .map
              [ ("labelSelector", .map
                  [ ("matchExpressions", .list
                    [ .map
                      [ ("key", .str nameLabel),
                        ("operator", .str "In"),
                        ("values", .list [.str name]) ] ]) ]),
                ("topologyKey", .str "kubernetes.io/hostname") ]),
            ("weight", .int 100) ] ]) ]) ]

/-- What the container may use. -/
def resources : Value :=
  .map
    [ ("limits", .map [("cpu", .str "50m"), ("memory", .str "64Mi")]),
      ("requests", .map [("cpu", .str "25m"), ("memory", .str "32Mi")]) ]

/-- What the container may do. -/
def securityContext : Value :=
  .map
    [ ("allowPrivilegeEscalation", .bool false),
      ("capabilities", .map [("drop", .list [.str "ALL"])]),
      ("readOnlyRootFilesystem", .bool true),
      ("runAsGroup", .int 0),
      ("runAsNonRoot", .bool true),
      ("seccompProfile", .map [("type", .str "RuntimeDefault")]) ]

/-- The container. -/
def container (p : ForwarderPod) : Value :=
  .map
    [ ("env", .list p.environment.entries),
      ("image", .str (image p.version)),
      ("imagePullPolicy", .str "Always"),
      ("name", .str containerName),
      ("resources", resources),
      ("securityContext", securityContext) ]

/-- The specification of the pod. -/
def spec (p : ForwarderPod) : Value :=
  .map
    [ ("affinity", affinity p.name),
      ("containers", .list [p.container]),
      ("nodeSelector", .map [("kubernetes.io/os", .str "linux")]),
      ("serviceAccountName", .str p.serviceAccount) ]

/-- The deployment. -/
def deployment (p : ForwarderPod) : Draft :=
  .map
    [ ("apiVersion", .str "apps/v1"),
      ("kind", .str "Deployment"),
      ("metadata", .map
        [ ("labels", labels p.name),
          ("name", .str p.name),
          ("namespace", .str p.objectNamespace) ]),
      ("spec", .map
        [ ("replicas", .int 1),
          ("selector", .map [("matchLabels", labels p.name)]),
          ("template", .map
            [ ("metadata", .map [("labels", labels p.name)]),
              ("spec", p.spec) ]) ]) ]

end ForwarderPod

end LogForwarder
