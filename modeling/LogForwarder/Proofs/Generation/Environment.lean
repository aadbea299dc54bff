import LogForwarder.Proofs.Generation.Mutation
import LogForwarder.Proofs.Generation.SecretAccess

/-!
# Environments of forwarders

What the container of a forwarder finds in its environment, whichever way its deployment is
generated.

1. `Forwarder.Finds` says what a forwarder and its collection settle for each name: a value of the
   one or the other, or a field of the pod.
2. A deployment comes out with one container, which has the entries of its pod: as they are built
   without a request, and coerced with one (`ForwarderPod.environments_resource`).
3. So there is one entry for each name, in the order of the names, and it carries what is settled
   for this name and nothing else (`Forwarder.generate_environment`).
-/

namespace LogForwarder

/-! ## Entries -/

namespace Environment

/-- What an entry carries beside its name. -/
inductive Content where
  | value (v : Value)
  /-- The content of a field of the pod. -/
  | field (path : String)

/-- The members that carry it. -/
def Content.members : Content → Members
  | value v => [("value", v)]
  | field path => [("valueFrom", .map [("fieldRef", .map [("fieldPath", .str path)])])]

/-- Whether an entry has a name and this content, and nothing else. -/
def Carries (entry : Value) (name : String) (content : Content) : Prop :=
  entry = .map (("name", .str name) :: content.members)

/-- An entry as it comes out of generation, with or without a request. -/
def generatedEntry (online : Bool) (entry : Value) : Value :=
  if online then entry.mapMembers coerce else entry

/-- What an entry of a number or a flag carries: a text only if there is a request. -/
def given (online : Bool) (v : Value) (text : String) : Value := if online then .str text else v

variable (online : Bool) (name : String)

theorem carries_text (s : String) :
    Carries (generatedEntry online (valueEntry name (.str s))) name (.value (.str s)) := by
  cases online <;> rfl

theorem carries_podNamespace :
    Carries (generatedEntry online (podNamespaceEntry name)) name (.field "metadata.namespace") := by
  cases online <;> rfl

theorem carries_given {v : Value} {text : String} (h : coerce v = .str text) :
    Carries (generatedEntry online (valueEntry name v)) name (.value (given online v text)) := by
  cases online with
  | false => rfl
  | true =>
    show Value.map [("name", .str name), ("value", coerce v)] = _
    rw [h]
    rfl

end Environment

/-- **A deployment has the environment of its pod**, in one container. -/
theorem ForwarderPod.environments_resource (p : ForwarderPod) (request : Option Request) :
    (Draft.containers (p.resource request).value).map Draft.environmentOf =
      [p.environment.entries.map (Environment.generatedEntry request.isSome)] := by
  cases request with
  | none => rfl
  | some _ =>
    have hstored : p.stored = Draft.coerced p.deployment :=
      (Draft.coerceContainers_eq_ok_iff.mp p.coerceContainers_deployment).2
    show (Draft.containers p.stored).map Draft.environmentOf = _
    rw [hstored]
    rfl

namespace Forwarder

open Environment (Content Carries given)

/-! ## What is settled for a name -/

/-- The secret with the credentials of the backend. A collection has a fixed one. -/
def elasticSecretName (p : Forwarder) : Option Collection → String
  | none => p.spec.backend.elasticSearch.secretRef.getD elasticSecret
  | some _ => elasticSecret

/-- What a forwarder, the backend that decides and the secrets that may be read settle for the names
of an environment. -/
inductive Finds (p : Forwarder) (c : Option Collection) (online : Bool) : String → Content → Prop
  | clusterId : Finds p c online "OCM_CLUSTER_ID" (.value (.str p.spec.ocm.clusterId))
  | pollInterval : Finds p c online "OCM_POLL_INTERVAL_MINUTES"
      (.value (given online (.int p.spec.ocm.pollIntervalMinutes.toNat)
        (toString p.spec.ocm.pollIntervalMinutes.toNat)))
  | ocmSecret : Finds p c online "OCM_SECRET_NAME" (.value (.str (p.ocmSecretName c)))
  | ocmSecretNamespace : Finds p c online "OCM_SECRET_NAMESPACE" (.field "metadata.namespace")
  | backendType : Finds p c online "BACKEND_TYPE"
      (.value (.str (p.decidingBackend c).backendType.text))
  | url : Finds p c online "BACKEND_ES_URL"
      (.value (.str (p.decidingBackend c).elasticSearch.url))
  | authType : Finds p c online "BACKEND_ES_AUTH_TYPE"
      (.value (.str (p.decidingBackend c).elasticSearch.authType.text))
  | index : Finds p c online "BACKEND_ES_INDEX"
      (.value (.str (p.decidingBackend c).elasticSearch.index))
  | elasticSecret : Finds p c online "BACKEND_ES_SECRET_NAME"
      (.value (.str (p.elasticSecretName c)))
  | elasticSecretNamespace : Finds p c online "BACKEND_ES_SECRET_NAMESPACE"
      (.field "metadata.namespace")
  | debug : Finds p c online "DEBUG"
      (.value (given online (.bool p.spec.debug) (toString p.spec.debug)))

/-- Whether entries carry what is settled for the names of an environment, each for its own. -/
def FindsAll (p : Forwarder) (c : Option Collection) (online : Bool) (entries : List Value) : Prop :=
  List.Forall₂ (fun name entry => ∃ content, p.Finds c online name content ∧
    Carries entry name content) Environment.names entries

variable (p : Forwarder) (c : Option Collection)

/-- The pods of both variants run with what is settled. -/
theorem environment_podIn : (p.podIn c).environment =
    p.environment (p.decidingBackend c) (p.ocmSecretName c) (p.elasticSecretName c) := by
  cases c <;> rfl

theorem findsAll_podIn (online : Bool) : p.FindsAll c online
    ((p.podIn c).environment.entries.map (Environment.generatedEntry online)) := by
  have text {name s : String} (h : p.Finds c online name (.value (.str s))) :
      ∃ content, p.Finds c online name content ∧
        Carries (Environment.generatedEntry online (Environment.valueEntry name (.str s))) name
          content :=
    ⟨_, h, Environment.carries_text online name s⟩
  have podNamespace {name : String} (h : p.Finds c online name (.field "metadata.namespace")) :
      ∃ content, p.Finds c online name content ∧
        Carries (Environment.generatedEntry online (Environment.podNamespaceEntry name)) name
          content :=
    ⟨_, h, Environment.carries_podNamespace online name⟩
  rw [environment_podIn]
  exact
    .cons (text .clusterId) <|
    .cons ⟨_, .pollInterval, Environment.carries_given _ _ (ForwarderPod.coerce_minutes _)⟩ <|
    .cons (text .ocmSecret) <|
    .cons (podNamespace .ocmSecretNamespace) <|
    .cons (text .backendType) <|
    .cons (text .url) <|
    .cons (text .authType) <|
    .cons (text .index) <|
    .cons (text .elasticSecret) <|
    .cons (podNamespace .elasticSecretNamespace) <|
    .cons ⟨_, .debug, Environment.carries_given _ _ (ForwarderPod.coerce_debug _)⟩ .nil

/-- **What a container finds.** If the deciding backend is served, generation gives one deployment
with one container, with or without a collection and a request. The environment of the container
has one entry for each of the names, in their order, and each carries what is settled for its
name. -/
theorem generate_environment (request : Option Request)
    (h : (p.decidingBackend c).isElasticsearch) :
    ∃ rs d container, (p.generate c request).Gives rs ∧
      (rs.map Resource.value).filter (fun d => Draft.kind d = "Deployment") = [d] ∧
      Draft.containers d = [container] ∧
      p.FindsAll c request.isSome (Draft.environmentOf container) := by
  obtain ⟨container, hcontainer, hentries⟩ :=
    List.map_eq_singleton_iff.mp ((p.podIn c).environments_resource request)
  refine ⟨_, _, container, p.generate_gives c request, ?_, hcontainer, ?_⟩
  · rw [filter_resourcesIn, deployments, if_pos h]
  · rw [hentries]
    exact p.findsAll_podIn c request.isSome

/-- A forwarder with a backend and secrets of its own, which its collection overrides. -/
theorem findsAll_overridden :
    let p : Forwarder :=
      { metadata := { name := some "sample" }
        spec :=
          { ocm := { clusterId := "abc123", pollIntervalMinutes := 60, secretRef := "own-token" }
            backend := { backendType := .unsupported "splunk" }
            debug := true } }
    let c : Collection := { metadata := { name := some "shared" }, spec := {} }
    (p.decidingBackend (some c)).isElasticsearch ∧ ∃ rs d container,
      (p.generate (some c) (some ⟨"sample", none⟩)).Gives rs ∧
      (rs.map Resource.value).filter (fun d => Draft.kind d = "Deployment") = [d] ∧
      Draft.containers d = [container] ∧
      p.FindsAll (some c) true (Draft.environmentOf container) := by
  intro p c
  exact ⟨rfl, p.generate_environment (some c) (some ⟨"sample", none⟩) rfl⟩

end Forwarder

end LogForwarder
