import LogForwarder.Cluster.Draft

/-!
# Access to secrets

The objects that let a pod read the secrets it needs: a namespace, a service account in it, roles
that may read one secret each, and their bindings. Whatever values are given go in unchecked.
-/

namespace LogForwarder

/-- The name of the role that may read the token for the cluster manager, and of its binding. -/
def ocmRbacName (name : String) : String := name ++ "-ocm"

/-- The name of the role that may read the credentials of the backend, and of its binding. -/
def elasticRbacName (name : String) : String := name ++ "-elastic"

namespace Draft

/-- The metadata of an object in a namespace. -/
def metadataIn (name objectNamespace : String) : Value :=
  .map [("name", .str name), ("namespace", .str objectNamespace)]

/-- The group of roles and bindings. -/
def rbacGroup : String := "rbac.authorization.k8s.io"

/-- The group and the version of roles and bindings. -/
def rbacApiVersion : String := rbacGroup ++ "/v1"

/-- A namespace. -/
def ofNamespace (name : String) : Draft :=
  .map
    [ ("apiVersion", .str "v1"),
      ("kind", .str "Namespace"),
      ("metadata", .map [("name", .str name)]) ]

/-- A service account, whose token is there in its pods. -/
def serviceAccount (name objectNamespace : String) : Draft :=
  .map
    [ ("apiVersion", .str "v1"),
      ("automountServiceAccountToken", .bool true),
      ("kind", .str "ServiceAccount"),
      ("metadata", metadataIn name objectNamespace) ]

/-- A role that may read one secret. -/
def secretReaderRole (name objectNamespace secret : String) : Draft :=
  .map
    [ ("apiVersion", .str rbacApiVersion),
      ("kind", .str "Role"),
      ("metadata", metadataIn name objectNamespace),
      ("rules", .list
        [ .map
          [ ("apiGroups", .list [.str ""]),
            ("resourceNames", .list [.str secret]),
            ("resources", .list [.str "secrets"]),
            ("verbs", .list [.str "get", .str "watch", .str "list"]) ] ]) ]

/-- The binding of the role of the same name to a service account of the same namespace. -/
def roleBinding (name objectNamespace serviceAccount : String) : Draft :=
  .map
    [ ("apiVersion", .str rbacApiVersion),
      ("kind", .str "RoleBinding"),
      ("metadata", metadataIn name objectNamespace),
      ("roleRef", .map
        [("apiGroup", .str rbacGroup), ("kind", .str "Role"), ("name", .str name)]),
      ("subjects", .list
        [ .map
          [ ("kind", .str "ServiceAccount"),
            ("name", .str serviceAccount),
            ("namespace", .str objectNamespace) ] ]) ]

end Draft

end LogForwarder
