/-!
# Identities of objects

The namespace, name and kind by which messages name an object of the cluster.
-/

namespace LogForwarder

/-- What names an object of the cluster. Parts that an object does not have are empty. -/
structure Identity where
  objectNamespace : String
  name : String
  kind : String
  deriving DecidableEq, Repr

/-- How messages name an object. -/
def Identity.display (o : Identity) : String :=
  "[" ++ o.objectNamespace ++ "/" ++ o.name ++ "] of kind [" ++ o.kind ++ "]"

end LogForwarder
