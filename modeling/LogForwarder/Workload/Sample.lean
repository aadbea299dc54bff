import LogForwarder.Workload.Kind

/-!
# Sample manifests

A manifest of each kind to start from, with all members or with the required ones only.
-/

namespace LogForwarder.Sample

/-- The version that a text asks for: nothing and `latest` ask for the newest. -/
def resolve (version : String) : String :=
  if version = "" ∨ version = "latest" then latestVersion else version

/-- A manifest of a forwarder with all members. -/
def forwarder : String :=
  "apiVersion: apps.dustinscott.io/v1alpha1\n" ++
  "kind: OCMLogForwarder\n" ++
  "metadata:\n" ++
  "  name: ocmlogforwarder-sample\n" ++
  "  namespace: default\n" ++
  "spec:\n" ++
  "  #collection:\n" ++
  "    #name: \"ocmlogforwarderconfig-sample\"\n" ++
  "    #namespace: \"\"\n" ++
  "  forwarderVersion: \"latest\"\n" ++
  "  ocm:\n" ++
  "    clusterId: \"22tgckqk9c2ff3jd8ve62p0i2st14vrq\"\n" ++
  "    pollInternalMinutes: 5\n" ++
  "    secretRef: \"ocm-token\"\n" ++
  "  backend:\n" ++
  "    type: \"elasticsearch\"\n" ++
  "    elasticSearch:\n" ++
  "      url: \"https://elasticsearch-es-http.elastic-system.svc.cluster.local:9200\"\n" ++
  "      authType: \"basic\"\n" ++
  "      index: \"ocm_service_logs\"\n" ++
  "      secretRef: \"elastic-auth\"\n" ++
  "  debug: false\n"

/-- A manifest of a forwarder with the required members only. -/
def requiredForwarder : String :=
  "apiVersion: apps.dustinscott.io/v1alpha1\n" ++
  "kind: OCMLogForwarder\n" ++
  "metadata:\n" ++
  "  name: ocmlogforwarder-sample\n" ++
  "  namespace: default\n" ++
  "spec:\n" ++
  "  #collection:\n" ++
  "    #name: \"ocmlogforwarderconfig-sample\"\n" ++
  "    #namespace: \"\"\n" ++
  "  ocm:\n" ++
  "    clusterId: \"22tgckqk9c2ff3jd8ve62p0i2st14vrq\"\n"

/-- A manifest of a collection with its usual members. -/
def collection : String :=
  "apiVersion: apps.dustinscott.io/v1alpha1\n" ++
  "kind: OCMLogForwarderConfig\n" ++
  "metadata:\n" ++
  "  name: ocmlogforwarderconfig-sample\n" ++
  "spec:\n" ++
  "  provider: \"rosa\"\n" ++
  "  forwarderNamespace: \"ocm-log-forwarder\"\n" ++
  "  backend:\n" ++
  "    type: \"elasticsearch\"\n" ++
  "    elasticSearch:\n" ++
  "      url: \"https://elasticsearch-es-http.elastic-system.svc.cluster.local:9200\"\n" ++
  "      authType: \"basic\"\n" ++
  "      index: \"ocm_service_logs\"\n"

/-- A manifest of a collection, which has no required members. -/
def requiredCollection : String :=
  "apiVersion: apps.dustinscott.io/v1alpha1\n" ++
  "kind: OCMLogForwarderConfig\n" ++
  "metadata:\n" ++
  "  name: ocmlogforwarderconfig-sample\n" ++
  "spec: \x7b\x7d\n"

/-- The kinds that there are samples of. -/
inductive Kind where
  | forwarder
  | collection
  deriving DecidableEq, Repr

/-- The name of a kind in manifests. -/
def Kind.name : Kind → String
  | .forwarder => WorkloadKind.kind ForwarderSpec
  | .collection => WorkloadKind.kind CollectionSpec

/-- The sample of a kind in a version, if that version is served. -/
def manifest? (kind : Kind) (version : String) (requiredOnly : Bool) : Option String :=
  if resolve version = "v1alpha1" then
    match kind, requiredOnly with
    | .forwarder, false => some forwarder
    | .forwarder, true => some requiredForwarder
    | .collection, false => some collection
    | .collection, true => some requiredCollection
  else none

end LogForwarder.Sample
