import LogForwarder.Cluster.Access
import LogForwarder.Generation.Builder
import LogForwarder.Workload.Kind

/-!
# Generation for collections

A collection gets the namespace of its forwarders, their service account, and the roles that may
read their secrets, which have fixed names.
-/

namespace LogForwarder.Collection

/-! ## The objects of a collection -/

/-- Whether the forwarders ship to the backend that is served. -/
def usesElasticsearch (c : Collection) : Bool := c.spec.backend.isElasticsearch

/-- The namespace of the forwarders. -/
def namespaceObject (c : Collection) : Draft := Draft.ofNamespace c.spec.forwarderNamespace

/-- The service account of the forwarders. -/
def serviceAccount (c : Collection) : Draft :=
  Draft.serviceAccount c.name c.spec.forwarderNamespace

/-- The role that may read the token for the cluster manager. -/
def ocmRole (c : Collection) : Draft :=
  Draft.secretReaderRole (ocmRbacName c.name) c.spec.forwarderNamespace ocmSecret

/-- The role that may read the credentials of the backend. -/
def elasticRole (c : Collection) : Draft :=
  Draft.secretReaderRole (elasticRbacName c.name) c.spec.forwarderNamespace elasticSecret

/-- The binding of the role that may read the token. -/
def ocmRoleBinding (c : Collection) : Draft :=
  Draft.roleBinding (ocmRbacName c.name) c.spec.forwarderNamespace c.name

/-- The binding of the role that may read the credentials. -/
def elasticRoleBinding (c : Collection) : Draft :=
  Draft.roleBinding (elasticRbacName c.name) c.spec.forwarderNamespace c.name

/-! ## Generation -/

/-- The builders for a collection. -/
def builders : List (Builder Collection) :=
  [ ⟨"namespace", none, namespaceObject, Mutator.passThrough⟩,
    ⟨"service-account", none, serviceAccount, Mutator.passThrough⟩,
    ⟨"role-ocm", none, ocmRole, Mutator.passThrough⟩,
    ⟨"role-elastic", some usesElasticsearch, elasticRole, Mutator.passThrough⟩,
    ⟨"role-binding-ocm", none, ocmRoleBinding, Mutator.passThrough⟩,
    ⟨"role-binding-elastic", some usesElasticsearch, elasticRoleBinding, Mutator.passThrough⟩ ]

/-- The name of the pipeline. -/
def pipeline : String := "forwarder-config"

/-- The resources of a collection. -/
def generate (c : Collection) (request : Option Request) : Generation (List Resource) :=
  Builder.runPipeline pipeline builders c request

end LogForwarder.Collection
