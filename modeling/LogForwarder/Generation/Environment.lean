import LogForwarder.Number.Text
import LogForwarder.Value

/-!
# Environments of containers

What the container of a forwarder finds in its environment. An entry has a value, or takes the
namespace of the pod from the cluster.

A container takes texts only, so before a deployment is stored `Environment.coerceEntry` turns
integers and flags that stand directly in an entry into texts. Nothing deeper is touched.
-/

namespace LogForwarder

/-- What the container of a forwarder finds in its environment. -/
structure Environment where
  clusterId : String
  pollIntervalMinutes : UInt32
  ocmSecretName : String
  backendType : String
  elasticUrl : String
  elasticAuthType : String
  elasticIndex : String
  elasticSecretName : String
  debug : Bool
  deriving DecidableEq, Repr

namespace Environment

/-! ## The entries -/

/-- The names of the entries, in their order. -/
def names : List String :=
  [ "OCM_CLUSTER_ID",
    "OCM_POLL_INTERVAL_MINUTES",
    "OCM_SECRET_NAME",
    "OCM_SECRET_NAMESPACE",
    "BACKEND_TYPE",
    "BACKEND_ES_URL",
    "BACKEND_ES_AUTH_TYPE",
    "BACKEND_ES_INDEX",
    "BACKEND_ES_SECRET_NAME",
    "BACKEND_ES_SECRET_NAMESPACE",
    "DEBUG" ]

/-- An entry with a value. -/
def valueEntry (name : String) (v : Value) : Value := .map [("name", .str name), ("value", v)]

/-- An entry that the cluster fills with the namespace of the pod. -/
def podNamespaceEntry (name : String) : Value :=
  .map
    [ ("name", .str name),
      ("valueFrom", .map
        [("fieldRef", .map [("fieldPath", .str "metadata.namespace")])]) ]

/-- The entries. Numbers and flags are not yet texts. -/
def entries (e : Environment) : List Value :=
  [ valueEntry "OCM_CLUSTER_ID" (.str e.clusterId),
    valueEntry "OCM_POLL_INTERVAL_MINUTES" (.int e.pollIntervalMinutes.toNat),
    valueEntry "OCM_SECRET_NAME" (.str e.ocmSecretName),
    podNamespaceEntry "OCM_SECRET_NAMESPACE",
    valueEntry "BACKEND_TYPE" (.str e.backendType),
    valueEntry "BACKEND_ES_URL" (.str e.elasticUrl),
    valueEntry "BACKEND_ES_AUTH_TYPE" (.str e.elasticAuthType),
    valueEntry "BACKEND_ES_INDEX" (.str e.elasticIndex),
    valueEntry "BACKEND_ES_SECRET_NAME" (.str e.elasticSecretName),
    podNamespaceEntry "BACKEND_ES_SECRET_NAMESPACE",
    valueEntry "DEBUG" (.bool e.debug) ]

/-! ## Coercion -/

/-- An integer or a flag as a text; any other value as it is. -/
def coerce : Value → Value
  | .int n => .str (Numeral.decimal n)
  | .bool b => .str (if b then "true" else "false")
  | v => v

/-- The members of an entry with their values coerced. -/
def coerceEntry (members : Members) : Members := members.map fun m => (m.1, coerce m.2)

end Environment

end LogForwarder
