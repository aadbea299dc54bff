import LogForwarder.Cluster.Deployment
import LogForwarder.Cluster.Draft
import LogForwarder.Yaml.Writer

/-!
# Generated resources

What generation gives: objects as they were built, or brought into the form that the cluster
stores.
-/

namespace LogForwarder

/-- A generated resource. -/
inductive Resource where
  | typed (deployment : Deployment)
  | untyped (draft : Draft)
  deriving DecidableEq, Repr

namespace Resource

/-- What names a resource. -/
def identity : Resource → Identity
  | typed deployment => deployment.identity
  | untyped draft => Draft.identity draft

/-- The kind of a resource. -/
def kind (r : Resource) : String := r.identity.kind

/-- The name of a resource. -/
def name (r : Resource) : String := r.identity.name

/-- The resource as a value, with its members in the order in which they are printed. -/
def value : Resource → Value
  | typed deployment => deployment.value
  | untyped draft => draft

/-- Whether a resource was brought into the form that the cluster stores. -/
def isTyped : Resource → Bool
  | typed _ => true
  | untyped _ => false

/-- The text of several resources, one document each. -/
def yamlStream (rs : List Resource) : String := Yaml.writeStream (rs.map value)

end Resource

end LogForwarder
