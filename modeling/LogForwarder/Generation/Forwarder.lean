import LogForwarder.Cluster.Access
import LogForwarder.Generation.Builder
import LogForwarder.Generation.ForwarderPod
import LogForwarder.Workload.Kind

/-!
# Generation for forwarders

A forwarder of its own gets a service account, the roles that may read its secrets, and a
deployment, all in its own namespace. A forwarder of a collection gets a deployment only, in the
namespace and under the service account of the collection, which also decides on the backend.
-/

namespace LogForwarder

namespace Forwarder

/-- The environment of the container of a forwarder, given the backend that decides. -/
def environment (p : Forwarder) (backend : BackendSpec)
    (ocmSecretName elasticSecretName : String) : Environment where
  clusterId := p.spec.ocm.clusterId
  pollIntervalMinutes := p.spec.ocm.pollIntervalMinutes
  ocmSecretName := ocmSecretName
  backendType := backend.backendType.text
  elasticUrl := backend.elasticSearch.url
  elasticAuthType := backend.elasticSearch.authType.text
  elasticIndex := backend.elasticSearch.index
  elasticSecretName := elasticSecretName
  debug := p.spec.debug

/-! ## The objects of a forwarder of its own -/

/-- Whether the forwarder ships to the backend that is served. -/
def usesElasticsearch (p : Forwarder) : Bool := p.spec.backend.isElasticsearch

/-- The service account of the forwarder. -/
def serviceAccount (p : Forwarder) : Draft := Draft.serviceAccount p.name p.homeNamespace

/-- The role that may read the token that the forwarder names. -/
def ocmRole (p : Forwarder) : Draft :=
  Draft.secretReaderRole (ocmRbacName p.name) p.homeNamespace p.spec.ocm.secretRef

/-- The role that may read the credentials that the forwarder names. -/
def elasticRole (p : Forwarder) : Draft :=
  Draft.secretReaderRole (elasticRbacName p.name) p.homeNamespace
    p.spec.backend.elasticSearch.secretName

/-- The binding of the role that may read the token. -/
def ocmRoleBinding (p : Forwarder) : Draft :=
  Draft.roleBinding (ocmRbacName p.name) p.homeNamespace p.name

/-- The binding of the role that may read the credentials. -/
def elasticRoleBinding (p : Forwarder) : Draft :=
  Draft.roleBinding (elasticRbacName p.name) p.homeNamespace p.name

/-- What the forwarder runs with: the secrets are those that it names. -/
def pod (p : Forwarder) : ForwarderPod where
  name := p.name
  objectNamespace := p.homeNamespace
  serviceAccount := p.name
  version := p.spec.forwarderVersion
  environment := p.environment p.spec.backend p.spec.ocm.secretRef
    p.spec.backend.elasticSearch.secretName

/-- The deployment of the forwarder. -/
def deployment (p : Forwarder) : Draft := p.pod.deployment

/-- The builders for a forwarder of its own. -/
def builders : List (Builder Forwarder) :=
  [ ⟨"service-account", none, serviceAccount, Mutator.passThrough⟩,
    ⟨"role-ocm", none, ocmRole, Mutator.passThrough⟩,
    ⟨"role-elastic", some usesElasticsearch, elasticRole, Mutator.passThrough⟩,
    ⟨"role-binding-ocm", none, ocmRoleBinding, Mutator.passThrough⟩,
    ⟨"role-binding-elastic", some usesElasticsearch, elasticRoleBinding, Mutator.passThrough⟩,
    ⟨"deployment", some usesElasticsearch, deployment, Mutator.deployment⟩ ]

end Forwarder

/-! ## The deployment of a forwarder of a collection -/

/-- A forwarder together with the collection that manages it. -/
structure ManagedForwarder where
  forwarder : Forwarder
  collection : Collection
  deriving DecidableEq, Repr

namespace ManagedForwarder

/-- Whether the collection ships to the backend that is served. -/
def usesElasticsearch (m : ManagedForwarder) : Bool := m.collection.spec.backend.isElasticsearch

/-- What the forwarder runs with: the secrets are those that the roles of the collection may
read. -/
def pod (m : ManagedForwarder) : ForwarderPod where
  name := m.forwarder.name
  objectNamespace := m.collection.spec.forwarderNamespace
  serviceAccount := m.collection.name
  version := m.forwarder.spec.forwarderVersion
  environment := m.forwarder.environment m.collection.spec.backend ocmSecret elasticSecret

/-- The deployment of the forwarder. -/
def deployment (m : ManagedForwarder) : Draft := m.pod.deployment

/-- The builders for a forwarder of a collection. -/
def builders : List (Builder ManagedForwarder) :=
  [⟨"deployment", some usesElasticsearch, deployment, Mutator.deployment⟩]

end ManagedForwarder

namespace Forwarder

/-! ## Generation -/

/-- The name of the pipeline. -/
def pipeline : String := "forwarder"

/-- The resources of a forwarder, which belongs to a collection or stands alone. -/
def generate (p : Forwarder) (collection : Option Collection) (request : Option Request) :
    Generation (List Resource) :=
  match collection with
  | some c => Builder.runPipeline pipeline ManagedForwarder.builders ⟨p, c⟩ request
  | none => Builder.runPipeline pipeline builders p request

end Forwarder

end LogForwarder
