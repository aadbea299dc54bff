import LogForwarder.Value.Record

/-!
# Backends

Where a forwarder ships service logs. Only one type of backend is served, but a manifest may name
any: validation refuses the others, so that it can say which one was named.
-/

namespace LogForwarder

/-- The type of a backend. -/
inductive BackendType where
  | elasticsearch
  /-- A type that is not served, by the name that the manifest gives it. -/
  | unsupported (name : String)
  deriving DecidableEq, Repr

namespace BackendType

/-- The name of a type. -/
def text : BackendType → String
  | elasticsearch => "elasticsearch"
  | unsupported name => name

/-- The type of a name. -/
def ofText (s : String) : BackendType :=
  if s = "elasticsearch" then elasticsearch else unsupported s

/-- Whether a type is the one that is served. -/
def isElasticsearch : BackendType → Bool
  | elasticsearch => true
  | unsupported _ => false

@[simp] theorem text_ofText (s : String) : (ofText s).text = s := by
  by_cases h : s = "elasticsearch" <;> simp [ofText, text, h]

end BackendType

/-- How a forwarder proves to its backend who it is. -/
inductive AuthType where
  /-- With the user name and the password of the credentials secret. -/
  | basic
  deriving DecidableEq, Repr

namespace AuthType

/-- The name of an authentication type. -/
def text : AuthType → String
  | basic => "basic"

/-- There is one authentication type, so every text names it. -/
def ofText (_ : String) : AuthType := basic

end AuthType

/-- The secret with the credentials of the backend, where a manifest names none. -/
def elasticSecret : String := "elastic-auth"

/-- The settings of an ElasticSearch backend. -/
structure ElasticSearchSpec where
  url : String := "https://elasticsearch-es-http.elastic-system.svc.cluster.local:9200"
  authType : AuthType := .basic
  index : String := "ocm_service_logs"
  secretRef : Option String := none
  deriving DecidableEq, Repr

namespace ElasticSearchSpec

/-- The greatest count of characters in the name of an index. -/
def maxIndexLength : Nat := 128

/-- The secret with the credentials. -/
def secretName (e : ElasticSearchSpec) : String := e.secretRef.getD elasticSecret

/-- The canonical value of these settings. -/
def toValue (e : ElasticSearchSpec) : Value :=
  .map <|
    [("url", .str e.url), ("authType", .str e.authType.text), ("index", .str e.index)] ++
    Value.ofMember "secretRef" .str e.secretRef

/-- What a canonical value says. -/
def ofValue (v : Value) : ElasticSearchSpec where
  url := (v.member "url").asText
  authType := .ofText (v.member "authType").asText
  index := (v.member "index").asText
  secretRef := (v.member "secretRef").asOption Value.asText

/-- How these settings may be given. -/
def schema : Schema :=
  .record ⟨"ElasticSearchSpec", true, none⟩
    [ (⟨"url", .whenAbsent (.str ({} : ElasticSearchSpec).url),
        { description := "ElasticSearch endpoint, including scheme and port" }⟩, .text),
      (⟨"authType", .whenAbsent (.str AuthType.basic.text), {}⟩, .choice [AuthType.basic.text]),
      (⟨"index", .whenAbsent (.str ({} : ElasticSearchSpec).index),
        { description := "Index receiving the service logs", maxLength := some 128 }⟩,
        .text),
      (⟨"secretRef", .omittable,
        { description :=
            "Secret holding the ElasticSearch credentials. Defaults to `elastic-auth`." }⟩,
        .text) ]

end ElasticSearchSpec

/-- A backend. -/
structure BackendSpec where
  backendType : BackendType := .elasticsearch
  elasticSearch : ElasticSearchSpec := {}
  deriving DecidableEq, Repr

namespace BackendSpec

/-- Whether a backend is of the type that is served. -/
def isElasticsearch (b : BackendSpec) : Bool := b.backendType.isElasticsearch

/-- The canonical value of a backend. -/
def toValue (b : BackendSpec) : Value :=
  .map [("type", .str b.backendType.text), ("elasticSearch", b.elasticSearch.toValue)]

/-- What a canonical value says. -/
def ofValue (v : Value) : BackendSpec where
  backendType := .ofText (v.member "type").asText
  elasticSearch := .ofValue (v.member "elasticSearch")

/-- How a backend may be given. -/
def schema : Schema :=
  .record ⟨"BackendSpec", true, none⟩
    [ (⟨"type", .whenAbsent (.str BackendType.elasticsearch.text),
        { description := "Backend type", listed := [BackendType.elasticsearch.text] }⟩, .text),
      (⟨"elasticSearch", .whenAbsent ({} : ElasticSearchSpec).toValue,
        { description := "ElasticSearch settings, only read when `type` is `elasticsearch`" }⟩,
        ElasticSearchSpec.schema) ]

end BackendSpec

end LogForwarder
