import LogForwarder.Proofs.Cluster.Access
import LogForwarder.Proofs.Generation.Resources

/-!
# Access to the secrets of forwarders

What is generated for a forwarder, together with its collection if it has one, lets the pod of the
forwarder read the secrets that its environment names, and no other secret. Without a deployment
there is no use for the credentials of a backend, and no access to them.
-/

namespace LogForwarder

/-! ## What a deployment uses -/

namespace Draft

/-- The service account under which the pods of a deployment run. -/
def podAccount (d : Draft) : Identity :=
  ⟨(objectNamespace? d).getD "",
    (d.textAt? ["spec", "template", "spec", "serviceAccountName"]).getD "", "ServiceAccount"⟩

/-- The secrets that the environment of a deployment names. -/
def usedSecrets (d : Draft) : List String :=
  ["OCM_SECRET_NAME", "BACKEND_ES_SECRET_NAME"].flatMap fun name =>
    (d.entryValues name).filterMap Value.text?

end Draft

namespace ForwarderPod

variable (p : ForwarderPod) (request : Option Request)

theorem kind_resource : Draft.kind (p.resource request).value = "Deployment" := by
  cases request <;> rfl

theorem podAccount_resource : Draft.podAccount (p.resource request).value =
    ⟨p.objectNamespace, p.serviceAccount, "ServiceAccount"⟩ := by
  cases request <;> rfl

theorem usedSecrets_resource : Draft.usedSecrets (p.resource request).value =
    [p.environment.ocmSecretName, p.environment.elasticSecretName] := by
  cases request <;> rfl

end ForwarderPod

/-! ## What access is given to -/

theorem ocmRbacName_ne_elasticRbacName (name : String) :
    ocmRbacName name ≠ elasticRbacName name := by
  intro h
  have hlength := congrArg String.length h
  simp only [ocmRbacName, elasticRbacName, String.length_append, Nat.add_left_cancel_iff] at hlength
  exact absurd hlength (by decide)

/-- The names of the roles of an object and the secrets that they are about. -/
def secretGrants (name ocmSecret elasticSecret : String) (elastic : Bool) :
    List (String × String) :=
  (ocmRbacName name, ocmSecret) ::
    if elastic then [(elasticRbacName name, elasticSecret)] else []

theorem nodup_secretGrants (name ocmSecret elasticSecret : String) (elastic : Bool) :
    ((secretGrants name ocmSecret elasticSecret elastic).map Prod.fst).Nodup := by
  cases elastic <;> simp [secretGrants, ocmRbacName_ne_elasticRbacName]

theorem Forwarder.access_eq (p : Forwarder) :
    p.access = Draft.accessObjects p.name p.homeNamespace
      (secretGrants p.name p.spec.ocm.secretRef p.spec.backend.elasticSearch.secretName
        p.usesElasticsearch) := by
  unfold access
  cases p.usesElasticsearch <;> rfl

theorem Collection.access_eq (c : Collection) :
    c.access = Draft.accessObjects c.name c.spec.forwarderNamespace
      (secretGrants c.name ocmSecret elasticSecret c.usesElasticsearch) := by
  unfold access
  cases c.usesElasticsearch <;> rfl

/-! ## Everything that is generated -/

namespace Forwarder

/-- The backend that decides whether a forwarder runs: that of its collection, if it has one. -/
def decidingBackend (p : Forwarder) : Option Collection → BackendSpec
  | none => p.spec.backend
  | some c => c.spec.backend

/-- The secret with the token for the cluster manager. A collection has a fixed one. -/
def ocmSecretName (p : Forwarder) : Option Collection → String
  | none => p.spec.ocm.secretRef
  | some _ => ocmSecret

/-- Everything that is generated for a forwarder: what belongs to itself, and what belongs to its
collection if it has one. -/
def generateAll (p : Forwarder) (c : Option Collection) (request : Option Request) :
    Generation (List Resource) := do
  let own ← p.generate c request
  match c with
  | none => return own
  | some c => return own ++ (← c.generate request)

/-- The resources of a forwarder and its collection. -/
def allResources (p : Forwarder) (c : Option Collection) (request : Option Request) :
    List Resource :=
  p.resourcesIn c request ++ c.elim [] Collection.resources

theorem generateAll_gives (p : Forwarder) (c : Option Collection) (request : Option Request) :
    (p.generateAll c request).Gives (p.allResources c request) := by
  refine (p.generate_gives c request).bind ?_
  cases c with
  | none =>
    unfold allResources
    rw [Option.elim_none, List.append_nil]
    exact Generation.gives_pure _
  | some c => exact (c.generate_gives request).bind (Generation.gives_pure _)

/-- The pod with which a forwarder runs, if its backend is served. -/
def podIn (p : Forwarder) : Option Collection → ForwarderPod
  | none => p.pod
  | some c => ManagedForwarder.pod ⟨p, c⟩

/-- What access is given to: the secrets of the pod, but not the credentials of a backend that is
not served. -/
def grantsIn (p : Forwarder) (c : Option Collection) : List (String × String) :=
  secretGrants (p.podIn c).serviceAccount (p.podIn c).environment.ocmSecretName
    (p.podIn c).environment.elasticSecretName (p.decidingBackend c).isElasticsearch

section

variable (p : Forwarder) (c : Option Collection) (request : Option Request)

/-- The objects that are generated, as they are written. -/
def objects : List Draft := (p.allResources c request).map Resource.value

/-- The deployment among them. -/
def deployments : List Draft :=
  if (p.decidingBackend c).isElasticsearch then [((p.podIn c).resource request).value] else []

theorem kind_of_mem_deployments :
    ∀ d ∈ p.deployments c request, Draft.kind d = "Deployment" := by
  intro d hd
  unfold deployments at hd
  split_ifs at hd
  · rw [List.mem_singleton.mp hd]
    exact (p.podIn c).kind_resource request
  · cases hd

theorem map_value_untyped (ds : List Draft) :
    (ds.map Resource.untyped).map Resource.value = ds := by
  rw [List.map_map]
  exact List.map_id ds

theorem objects_none : p.objects none request = p.access ++ p.deployments none request := by
  unfold objects allResources
  rw [Option.elim_none, List.append_nil]
  unfold resourcesIn resources
  rw [List.map_append, map_value_untyped, apply_ite (List.map Resource.value)]
  rfl

theorem objects_some (c : Collection) :
    p.objects (some c) request =
      p.deployments (some c) request ++ c.namespaceObject :: c.access := by
  unfold objects allResources
  rw [Option.elim_some, Collection.resources, List.map_append, List.map_cons, map_value_untyped]
  unfold resourcesIn ManagedForwarder.resources
  rw [apply_ite (List.map Resource.value)]
  rfl

/-- What is generated for a forwarder gives it access or is its deployment. -/
theorem map_value_resourcesIn (request : Option Request) :
    (p.resourcesIn c request).map Resource.value =
      c.elim p.access (fun _ => []) ++ p.deployments c request := by
  cases c with
  | none =>
    rw [Option.elim_none, ← p.objects_none]
    unfold objects allResources
    rw [Option.elim_none, List.append_nil]
  | some c =>
    show (if _ then _ else _ : List Resource).map Resource.value = [] ++ _
    rw [apply_ite (List.map Resource.value)]
    rfl

theorem filter_resourcesIn (request : Option Request) :
    ((p.resourcesIn c request).map Resource.value).filter (fun d => Draft.kind d = "Deployment") =
      p.deployments c request := by
  have hself : (p.deployments c request).filter (fun d => Draft.kind d = "Deployment") =
      p.deployments c request :=
    List.filter_eq_self.mpr fun d hd =>
      decide_eq_true (p.kind_of_mem_deployments c request d hd)
  rw [map_value_resourcesIn, List.filter_append, hself]
  cases c with
  | none => rw [Option.elim_none, p.access_eq, Draft.filter_deployment_accessObjects]; rfl
  | some c => rfl

/-- Access is given by the same objects with and without a collection, but they stand before the
deployment in the one case and after it in the other. -/
theorem objects_eq :
    ∃ before after,
      p.objects c request =
        before ++ Draft.accessObjects (p.podIn c).serviceAccount (p.podIn c).objectNamespace
          (p.grantsIn c) ++ after ∧
      (∀ d ∈ before ++ after, Draft.kind d ∉ ["Role", "RoleBinding"]) ∧
      (before ++ after).filter (fun d => Draft.kind d = "Deployment") =
        p.deployments c request := by
  have hkind : ∀ d ∈ p.deployments c request, Draft.kind d ∉ ["Role", "RoleBinding"] := by
    intro d hd
    rw [p.kind_of_mem_deployments c request d hd]
    decide
  have hfilter : (p.deployments c request).filter (fun d => Draft.kind d = "Deployment") =
      p.deployments c request :=
    List.filter_eq_self.mpr fun d hd =>
      decide_eq_true (p.kind_of_mem_deployments c request d hd)
  cases c with
  | none =>
    refine ⟨[], p.deployments none request, ?_, hkind, hfilter⟩
    rw [p.objects_none, p.access_eq]
    rfl
  | some c =>
    refine ⟨p.deployments (some c) request ++ [c.namespaceObject], [], ?_, ?_, ?_⟩
    · rw [p.objects_some, c.access_eq, List.append_nil, List.append_assoc]
      rfl
    · intro d hd
      rw [List.append_nil, List.mem_append, List.mem_singleton] at hd
      rcases hd with hd | rfl
      · exact hkind d hd
      · show "Namespace" ∉ ["Role", "RoleBinding"]
        decide
    · rw [List.append_nil, List.filter_append, hfilter]
      exact List.append_nil _

/-- The only deployment that is generated is that of the forwarder. -/
theorem filter_objects :
    (p.objects c request).filter (fun d => Draft.kind d = "Deployment") =
      p.deployments c request := by
  obtain ⟨before, after, hobjects, _, hdeployments⟩ := p.objects_eq c request
  rw [hobjects, List.filter_append, List.filter_append, Draft.filter_deployment_accessObjects,
    List.append_nil, ← List.filter_append, hdeployments]

theorem accessClosed_objects :
    Draft.AccessClosed (p.objects c request)
      ⟨(p.podIn c).objectNamespace, (p.podIn c).serviceAccount, "ServiceAccount"⟩
      ((p.grantsIn c).map Prod.snd) := by
  obtain ⟨before, after, hobjects, hothers, _⟩ := p.objects_eq c request
  rw [hobjects]
  exact Draft.accessClosed_append hothers (nodup_secretGrants _ _ _ _)

end

/-- **Access is as small as it can be.** Generation succeeds for every forwarder, with or without a
collection. If the deciding backend is served, there is one deployment: it runs under a service
account that is generated with it, and the bindings let this account read the secrets that its
environment names, and no others. If not, there is no deployment, and the token for the cluster
manager is all that may be read. -/
theorem generateAll_accessClosed (p : Forwarder) (c : Option Collection)
    (request : Option Request) :
    ∃ rs, (p.generateAll c request).Gives rs ∧
      if (p.decidingBackend c).isElasticsearch then
        ∃ d, (rs.map Resource.value).filter (fun d => Draft.kind d = "Deployment") = [d] ∧
          Draft.AccessClosed (rs.map Resource.value) (Draft.podAccount d) (Draft.usedSecrets d)
      else
        (∀ d ∈ rs.map Resource.value, Draft.kind d ≠ "Deployment") ∧
          ∃ account, Draft.AccessClosed (rs.map Resource.value) account [p.ocmSecretName c] := by
  refine ⟨p.allResources c request, p.generateAll_gives c request, ?_⟩
  have hfilter := p.filter_objects c request
  have hclosed := p.accessClosed_objects c request
  unfold deployments at hfilter
  unfold grantsIn secretGrants at hclosed
  split_ifs at hfilter hclosed ⊢ with hbackend
  · refine ⟨_, hfilter, ?_⟩
    rw [ForwarderPod.podAccount_resource, ForwarderPod.usedSecrets_resource]
    exact hclosed
  · have hsecret : p.ocmSecretName c = (p.podIn c).environment.ocmSecretName := by
      cases c <;> rfl
    rw [hsecret]
    refine ⟨fun d hd hkind => ?_, _, hclosed⟩
    exact List.filter_eq_nil_iff.mp hfilter d hd (decide_eq_true hkind)

end Forwarder

end LogForwarder
