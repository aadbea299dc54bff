import LogForwarder.Proofs.Generation.Ownership

/-!
# Resources that hang on the backend

What is generated for a backend that is not served is what is generated for one that is, without the
access to its credentials and without the deployment that would use them.

1. `LeavesOut` says that resources are others without those of some identities. Parts that share
   none of these may be looked at one by one (`LeavesOut.append`).
2. A forwarder of its own and a collection leave out what the type of their backend decides on, and
   keep everything else as it is (`Forwarder.leavesOut_resources`,
   `Collection.leavesOut_resources`).
3. For a forwarder of a collection the type of the backend of the collection decides alone, which
   makes all three the same law (`generate_leavesOut`).
-/

namespace LogForwarder

/-! ## Leaving resources out -/

/-- Whether resources are others without those of some identities, each of which is there once, in
this order. -/
structure LeavesOut (omitted : List Identity) (rs rs' : List Resource) : Prop where
  eq_filter : rs' = rs.filter fun r => r.identity ∉ omitted
  identities : (rs.filter fun r => r.identity ∈ omitted).map Resource.identity = omitted

theorem leavesOut_nil (rs : List Resource) : LeavesOut [] rs rs where
  eq_filter := (List.filter_eq_self.mpr fun _ _ => by simp).symm
  identities := by simp

theorem leavesOut_singleton (r : Resource) : LeavesOut [r.identity] [r] [] where
  eq_filter := by simp
  identities := by simp

/-- Two parts are looked at one by one if neither has what the other leaves out. -/
theorem LeavesOut.append {o₁ o₂ : List Identity} {rs₁ rs₁' rs₂ rs₂' : List Resource}
    (h₁ : LeavesOut o₁ rs₁ rs₁') (h₂ : LeavesOut o₂ rs₂ rs₂')
    (hd₁ : ∀ r ∈ rs₁, r.identity ∉ o₂) (hd₂ : ∀ r ∈ rs₂, r.identity ∉ o₁) :
    LeavesOut (o₁ ++ o₂) (rs₁ ++ rs₂) (rs₁' ++ rs₂') := by
  have hfirst : ∀ r ∈ rs₁, (r.identity ∈ o₁ ++ o₂ ↔ r.identity ∈ o₁) := fun r hr => by
    rw [List.mem_append, or_iff_left (hd₁ r hr)]
  have hsecond : ∀ r ∈ rs₂, (r.identity ∈ o₁ ++ o₂ ↔ r.identity ∈ o₂) := fun r hr => by
    rw [List.mem_append, or_iff_right (hd₂ r hr)]
  constructor
  · rw [List.filter_append, h₁.eq_filter, h₂.eq_filter,
      List.filter_congr fun r hr => decide_eq_decide.mpr (not_congr (hfirst r hr)),
      List.filter_congr fun r hr => decide_eq_decide.mpr (not_congr (hsecond r hr))]
  · rw [List.filter_append, List.map_append,
      List.filter_congr fun r hr => decide_eq_decide.mpr (hfirst r hr),
      List.filter_congr fun r hr => decide_eq_decide.mpr (hsecond r hr),
      h₁.identities, h₂.identities]

/-! ## Access -/

/-- The role that may read the credentials of the backend, and its binding. -/
def elasticAccess (name objectNamespace : String) : List Identity :=
  [ ⟨objectNamespace, name ++ "-elastic", "Role"⟩,
    ⟨objectNamespace, name ++ "-elastic", "RoleBinding"⟩ ]

/-- Access to the token does not hang on whether there is access to the credentials. -/
theorem leavesOut_access (name objectNamespace ocmSecret elasticSecret : String) :
    LeavesOut (elasticAccess name objectNamespace)
      ((Draft.accessObjects name objectNamespace
        (secretGrants name ocmSecret elasticSecret true)).map .untyped)
      ((Draft.accessObjects name objectNamespace
        (secretGrants name ocmSecret elasticSecret false)).map .untyped) := by
  have hne : ocmRbacName name ≠ name ++ "-elastic" := ocmRbacName_ne_elasticRbacName name
  have helastic : elasticRbacName name = name ++ "-elastic" := rfl
  constructor <;>
    simp [Draft.accessObjects, secretGrants, elasticAccess, Resource.identity, hne, helastic]

theorem kind_of_mem_elasticAccess {name objectNamespace : String} {i : Identity}
    (h : i ∈ elasticAccess name objectNamespace) : i.kind ∈ ["Role", "RoleBinding"] := by
  rcases List.mem_pair.mp h with rfl | rfl
  · exact List.mem_cons_self
  · exact List.mem_cons_of_mem _ List.mem_cons_self

/-! ## Forwarders of their own -/

namespace Forwarder

/-- The forwarder with a backend of another type. -/
def withBackendType (p : Forwarder) (t : BackendType) : Forwarder :=
  { p with spec := { p.spec with backend := { p.spec.backend with backendType := t } } }

variable (p : Forwarder) (request : Option Request)

/-- What the type of the backend of a forwarder of its own decides on. -/
def backendIdentities : List Identity :=
  elasticAccess p.name p.homeNamespace ++ [⟨p.homeNamespace, p.name, "Deployment"⟩]

theorem leavesOut_resources (name : String) :
    LeavesOut p.backendIdentities ((p.withBackendType .elasticsearch).resources request)
      ((p.withBackendType (.unsupported name)).resources request) := by
  let q := p.withBackendType .elasticsearch
  have haccess : LeavesOut (elasticAccess p.name p.homeNamespace)
      (q.access.map .untyped) ((p.withBackendType (.unsupported name)).access.map .untyped) := by
    rw [access_eq, access_eq]
    exact leavesOut_access _ _ _ _
  have hidentity : (q.pod.resource request).identity = ⟨p.homeNamespace, p.name, "Deployment"⟩ :=
    q.pod.identity_resource request
  have hdeployment := leavesOut_singleton (q.pod.resource request)
  rw [hidentity] at hdeployment
  refine haccess.append hdeployment (fun r hr => ?_) fun r hr => ?_
  · -- Nothing that gives access is a deployment.
    obtain ⟨d, hd, rfl⟩ := List.mem_map.mp hr
    rw [List.mem_singleton]
    intro h
    exact q.kind_ne_of_mem_access d hd (congrArg Identity.kind h)
  · rw [List.mem_singleton.mp hr, hidentity]
    intro h
    have hkind : "Deployment" ∈ ["Role", "RoleBinding"] := kind_of_mem_elasticAccess h
    exact absurd hkind (by decide)

end Forwarder

/-! ## Collections -/

namespace Collection

/-- The collection with a backend of another type. -/
def withBackendType (c : Collection) (t : BackendType) : Collection :=
  { c with spec := { c.spec with backend := { c.spec.backend with backendType := t } } }

theorem leavesOut_resources (c : Collection) (name : String) :
    LeavesOut (elasticAccess c.name c.spec.forwarderNamespace)
      (c.withBackendType .elasticsearch).resources
      (c.withBackendType (.unsupported name)).resources := by
  have haccess : LeavesOut (elasticAccess c.name c.spec.forwarderNamespace)
      ((c.withBackendType .elasticsearch).access.map .untyped)
      ((c.withBackendType (.unsupported name)).access.map .untyped) := by
    rw [access_eq, access_eq]
    exact leavesOut_access _ _ _ _
  refine (leavesOut_nil [.untyped c.namespaceObject]).append haccess (fun r hr => ?_) fun _ _ =>
    List.not_mem_nil
  rw [List.mem_singleton.mp hr]
  intro h
  have hkind : "Namespace" ∈ ["Role", "RoleBinding"] := kind_of_mem_elasticAccess h
  exact absurd hkind (by decide)

end Collection

/-! ## Generation -/

theorem BackendType.ofText_of_ne {s : String} (h : s ≠ "elasticsearch") :
    ofText s = .unsupported s :=
  if_neg h

/-- **What hangs on the type of a backend.** For every text that does not name the backend that is
served, and with or without a request:

1. a forwarder of its own with a backend of this type gets what it would get with one that is
   served, but for the access to the credentials and the deployment;
2. a collection with a backend of this type gets what it would get with one that is served, but for
   the access to the credentials;
3. a forwarder of such a collection gets nothing, and one of a collection whose backend is served
   gets a deployment and nothing else, which is the same whatever the type of its own backend is. -/
theorem generate_leavesOut {s : String} (hs : s ≠ "elasticsearch") (request : Option Request) :
    (∀ p : Forwarder, ∃ rs rs',
      ((p.withBackendType (.ofText "elasticsearch")).generate none request).Gives rs ∧
      ((p.withBackendType (.ofText s)).generate none request).Gives rs' ∧
      LeavesOut p.backendIdentities rs rs') ∧
    (∀ c : Collection, ∃ rs rs',
      ((c.withBackendType (.ofText "elasticsearch")).generate request).Gives rs ∧
      ((c.withBackendType (.ofText s)).generate request).Gives rs' ∧
      LeavesOut (elasticAccess c.name c.spec.forwarderNamespace) rs rs') ∧
    ∀ (p : Forwarder) (c : Collection), ∃ r, r.kind = "Deployment" ∧ ∀ own : BackendType,
      ((p.withBackendType own).generate
        (some (c.withBackendType (.ofText "elasticsearch"))) request).Gives [r] ∧
      ((p.withBackendType own).generate
        (some (c.withBackendType (.ofText s))) request).Gives [] := by
  rw [BackendType.ofText_of_ne hs]
  refine ⟨fun p => ?_, fun c => ?_, fun p c => ?_⟩
  · exact ⟨_, _, Forwarder.generate_gives _ none request, Forwarder.generate_gives _ none request,
      p.leavesOut_resources request s⟩
  · exact ⟨_, _, Collection.generate_gives _ request, Collection.generate_gives _ request,
      c.leavesOut_resources s⟩
  · let served := c.withBackendType .elasticsearch
    refine ⟨(ManagedForwarder.pod ⟨p, served⟩).resource request,
      (ManagedForwarder.pod ⟨p, served⟩).resource_kind request, fun own => ⟨?_, ?_⟩⟩
    · exact Forwarder.generate_some_gives (c := served) rfl (p.withBackendType own) request
    · exact Forwarder.generate_gives (p.withBackendType own)
        (some (c.withBackendType (.unsupported s))) request

/-- A forwarder whose own name ends like that of a role. -/
theorem leavesOut_splunk :
    let p := Forwarder.called "team-a" "sample-elastic"
    let request := some (Request.mk "sample-elastic" (some "team-a"))
    "splunk" ≠ "elasticsearch" ∧
      (∃ rs rs', ((p.withBackendType (.ofText "elasticsearch")).generate none request).Gives rs ∧
        ((p.withBackendType (.ofText "splunk")).generate none request).Gives rs' ∧
        LeavesOut p.backendIdentities rs rs') ∧
      ∃ r, r.kind = "Deployment" ∧ ∀ own : BackendType,
        ((p.withBackendType own).generate
          (some (Forwarder.shared.withBackendType (.ofText "elasticsearch"))) request).Gives [r] ∧
        ((p.withBackendType own).generate
          (some (Forwarder.shared.withBackendType (.ofText "splunk"))) request).Gives [] := by
  intro p request
  have hne : "splunk" ≠ "elasticsearch" := by decide
  obtain ⟨halone, -, hmanaged⟩ := generate_leavesOut hne request
  exact ⟨hne, halone p, hmanaged p Forwarder.shared⟩

end LogForwarder
