import LogForwarder.Proofs.Generation.PodSelection
import LogForwarder.Proofs.Generation.SecretAccess

/-!
# Whose an object is

Objects of the cluster are told apart by kind, namespace and name. What is generated for a forwarder
must not take the place of what is generated for another.

1. The identity of an object of a forwarder of its own tells the namespace and the name of the
   forwarder (`Forwarder.owner_of_mem_identities`), since the suffix of a role or a binding has one
   hyphen. So forwarders of their own never collide, whatever they are called.
2. The forwarders of a collection share its namespace, so their deployments are apart exactly if the
   names of the forwarders are different (`Forwarder.identity_managed_eq_iff`). Forwarders of one
   name in two namespaces get the same deployment.
-/

namespace LogForwarder

/-! ## Owners -/

/-- The part of a name before its last hyphen. -/
def stem (name : String) : String :=
  String.ofList (name.toList.reverse.dropWhile (· ≠ '-')).tail.reverse

theorem stem_append (name : String) (suffix : List Char) (h : '-' ∉ suffix) :
    stem (name ++ String.ofList ('-' :: suffix)) = name := by
  have hskip : ∀ c ∈ suffix.reverse, (decide (c ≠ '-')) = true := by
    intro c hc
    exact decide_eq_true fun e => h (e ▸ List.mem_reverse.mp hc)
  unfold stem
  rw [String.toList_append, String.toList_ofList, List.reverse_append, List.reverse_cons,
    List.append_assoc, List.dropWhile_append_of_pos hskip]
  simp

theorem stem_ocmRbacName (name : String) : stem (ocmRbacName name) = name :=
  stem_append name ['o', 'c', 'm'] (by decide)

theorem stem_elasticRbacName (name : String) : stem (elasticRbacName name) = name :=
  stem_append name ['e', 'l', 'a', 's', 't', 'i', 'c'] (by decide)

/-- The namespace and the name of the forwarder of its own that an object is for. -/
def Identity.owner (i : Identity) : String × String :=
  (i.objectNamespace, if i.kind ∈ ["Role", "RoleBinding"] then stem i.name else i.name)

namespace Forwarder

/-! ## Forwarders of their own -/

/-- What tells a forwarder from others. -/
def key (p : Forwarder) : String × String := (p.homeNamespace, p.name)

/-- The identities of what is generated for a forwarder of its own. -/
def identities (p : Forwarder) : List Identity :=
  if p.usesElasticsearch then
    [ ⟨p.homeNamespace, p.name, "ServiceAccount"⟩,
      ⟨p.homeNamespace, ocmRbacName p.name, "Role"⟩,
      ⟨p.homeNamespace, elasticRbacName p.name, "Role"⟩,
      ⟨p.homeNamespace, ocmRbacName p.name, "RoleBinding"⟩,
      ⟨p.homeNamespace, elasticRbacName p.name, "RoleBinding"⟩,
      ⟨p.homeNamespace, p.name, "Deployment"⟩ ]
  else
    [ ⟨p.homeNamespace, p.name, "ServiceAccount"⟩,
      ⟨p.homeNamespace, ocmRbacName p.name, "Role"⟩,
      ⟨p.homeNamespace, ocmRbacName p.name, "RoleBinding"⟩ ]

section

variable (p : Forwarder) (request : Option Request)

theorem map_identity_resources : (p.resources request).map Resource.identity = p.identities := by
  unfold resources access identities
  split_ifs
  · simp only [List.map_append, List.map_cons, List.map_nil, ForwarderPod.identity_resource]
    rfl
  · rfl

/-- The identity of an object tells whose it is. -/
theorem owner_of_mem_identities : ∀ i ∈ p.identities, i.owner = p.key := by
  unfold identities
  split_ifs <;>
    simp [Identity.owner, key, stem_ocmRbacName, stem_elasticRbacName]

theorem nodup_identities : p.identities.Nodup := by
  unfold identities
  split_ifs <;> simp [ocmRbacName_ne_elasticRbacName]

theorem account_mem_identities : ⟨p.homeNamespace, p.name, "ServiceAccount"⟩ ∈ p.identities := by
  unfold identities
  split_ifs <;> exact List.mem_cons_self

theorem disjoint_identities_iff {p q : Forwarder} :
    List.Disjoint p.identities q.identities ↔ p.key ≠ q.key := by
  constructor
  · intro h hkey
    -- Every forwarder has an account, and these two would have the same.
    obtain ⟨hnamespace, hname⟩ := Prod.mk.inj hkey
    refine h p.account_mem_identities ?_
    rw [show p.homeNamespace = q.homeNamespace from hnamespace, show p.name = q.name from hname]
    exact q.account_mem_identities
  · intro hkey i hp hq
    exact hkey ((p.owner_of_mem_identities i hp).symm.trans (q.owner_of_mem_identities i hq))

/-- A deployment finds its pods by its own name. -/
theorem selector?_of_mem_resources {r : Resource} (hr : r ∈ p.resources request)
    (hkind : r.kind = "Deployment") :
    Draft.selector? r.value = some (.map [("matchLabels", ForwarderPod.labels r.name)]) := by
  unfold resources at hr
  rcases List.mem_append.mp hr with hr | hr
  · obtain ⟨d, hd, rfl⟩ := List.mem_map.mp hr
    exact absurd hkind (p.kind_ne_of_mem_access d hd)
  · split_ifs at hr
    · rw [List.mem_singleton.mp hr, ForwarderPod.selector?_resource]
      unfold Resource.name
      rw [ForwarderPod.identity_resource]
    · cases hr

end

section

variable (ps : List (Forwarder × Option Request))

/-- The resources of several forwarders of their own, each generated with or without a request. -/
def fleet : List (List Resource) := ps.map fun p => p.1.resources p.2

theorem fleet_gives :
    List.Forall₂ (fun p rs => (p.1.generate none p.2).Gives rs) ps (fleet ps) := by
  unfold fleet
  rw [List.forall₂_map_right_iff, List.forall₂_same]
  exact fun p _ => p.1.generate_gives none p.2

theorem map_identity_fleet :
    (fleet ps).flatten.map Resource.identity = ps.flatMap fun p => p.1.identities := by
  unfold fleet
  rw [← List.flatMap_def, List.map_flatMap]
  simp only [map_identity_resources]

/-- Two objects are called the same only if two of the forwarders are. -/
theorem nodup_identity_fleet_iff :
    ((fleet ps).flatten.map Resource.identity).Nodup ↔ (ps.map fun p => p.1.key).Nodup := by
  have hkeys : (ps.map fun p => p.1.key).Nodup ↔ ps.Pairwise fun p q => p.1.key ≠ q.1.key :=
    List.pairwise_map
  rw [map_identity_fleet, List.nodup_flatMap, hkeys]
  constructor
  · rintro ⟨-, hdisjoint⟩
    exact hdisjoint.imp disjoint_identities_iff.mp
  · intro hpairs
    exact ⟨fun p _ => p.1.nodup_identities, hpairs.imp disjoint_identities_iff.mpr⟩

theorem selector?_of_mem_fleet {r : Resource} (hr : r ∈ (fleet ps).flatten)
    (hkind : r.kind = "Deployment") :
    Draft.selector? r.value = some (.map [("matchLabels", ForwarderPod.labels r.name)]) := by
  obtain ⟨rs, hrs, hr⟩ := List.mem_flatten.mp hr
  obtain ⟨p, _, rfl⟩ := List.mem_map.mp hrs
  exact p.1.selector?_of_mem_resources p.2 hr hkind

/-- In a namespace, deployments that find the same pods are called the same. -/
theorem nodup_selector_fleet (h : ((fleet ps).flatten.map Resource.identity).Nodup) :
    (((fleet ps).flatten.filter fun r => r.kind = "Deployment").map fun r =>
      (r.identity.objectNamespace, Draft.selector? r.value)).Nodup := by
  refine List.Nodup.map_on ?_ (h.of_map.filter _)
  intro a ha b hb heq
  obtain ⟨ha, hakind⟩ := List.mem_filter.mp ha
  obtain ⟨hb, hbkind⟩ := List.mem_filter.mp hb
  have hakind := of_decide_eq_true hakind
  have hbkind := of_decide_eq_true hbkind
  obtain ⟨hnamespace, hselector⟩ := Prod.mk.inj heq
  rw [selector?_of_mem_fleet ps ha hakind, selector?_of_mem_fleet ps hb hbkind] at hselector
  -- Within a kind and a namespace, what has the same name is the same object.
  have hname : a.name = b.name := by simpa [ForwarderPod.labels] using hselector
  have hidentity : a.identity = b.identity := by
    show Identity.mk a.identity.objectNamespace a.name a.kind =
      ⟨b.identity.objectNamespace, b.name, b.kind⟩
    rw [show a.identity.objectNamespace = b.identity.objectNamespace from hnamespace, hname,
      hakind, hbkind]
  exact List.inj_on_of_nodup_map h ha hb hidentity

end

/-- **Forwarders of their own never collide.** Generation succeeds for any number of forwarders of
their own, with or without requests. No two of all the objects have the same kind, namespace and
name exactly if no two of the forwarders have the same namespace and name; then no two deployments
of one namespace have the same selector either. -/
theorem generate_nodup_iff (ps : List (Forwarder × Option Request)) :
    ∃ rss, List.Forall₂ (fun p rs => (p.1.generate none p.2).Gives rs) ps rss ∧
      ((rss.flatten.map Resource.identity).Nodup ↔ (ps.map fun p => p.1.key).Nodup) ∧
      ((ps.map fun p => p.1.key).Nodup →
        ((rss.flatten.filter fun r => r.kind = "Deployment").map fun r =>
          (r.identity.objectNamespace, Draft.selector? r.value)).Nodup) :=
  ⟨fleet ps, fleet_gives ps, nodup_identity_fleet_iff ps,
    fun h => nodup_selector_fleet ps ((nodup_identity_fleet_iff ps).mpr h)⟩

/-! ## Forwarders of a collection -/

/-- The forwarder that has a namespace, a name and a cluster, and nothing else. -/
def called (objectNamespace name : String) : Forwarder where
  metadata := { name := some name, objectNamespace := some objectNamespace }
  spec := { ocm := { clusterId := "abc123" } }

/-- A collection that has a name and nothing else. -/
def shared : Collection where
  metadata := { name := some "shared" }
  spec := {}

section

variable {c : Collection}

theorem identity_managed_eq_iff {p q : Forwarder} {r s : Option Request} :
    ((ManagedForwarder.pod ⟨p, c⟩).resource r).identity =
      ((ManagedForwarder.pod ⟨q, c⟩).resource s).identity ↔ p.name = q.name := by
  rw [ForwarderPod.identity_resource, ForwarderPod.identity_resource]
  simp [ManagedForwarder.pod]

/-- **Forwarders of a collection are apart by name alone.** If the backend of a collection is
served, each of its forwarders gets one deployment. Those of two forwarders are called the same, and
find the same pods, exactly if the forwarders have the same name, whatever their namespaces. -/
theorem generate_some_apart (hc : c.usesElasticsearch) (p q : Forwarder) (r s : Option Request) :
    ∃ a b : Resource, (p.generate (some c) r).Gives [a] ∧ (q.generate (some c) s).Gives [b] ∧
      a.kind = "Deployment" ∧ b.kind = "Deployment" ∧
      (a.identity = b.identity ↔ p.name = q.name) ∧
      (Draft.selector? a.value = Draft.selector? b.value ↔ p.name = q.name) :=
  ⟨_, _, generate_some_gives hc p r, generate_some_gives hc q s,
    ForwarderPod.resource_kind _ r, ForwarderPod.resource_kind _ s,
    identity_managed_eq_iff, ForwarderPod.selector?_resource_eq_iff⟩

end

/-- A name with a suffix is another name. -/
theorem apart_in_shared :
    shared.usesElasticsearch ∧ ∃ a b : Resource,
      ((called "team-a" "sample").generate (some shared) none).Gives [a] ∧
      ((called "team-b" "sample-ocm").generate (some shared) none).Gives [b] ∧
      a.identity ≠ b.identity ∧ Draft.selector? a.value ≠ Draft.selector? b.value := by
  have hname : (called "team-a" "sample").name ≠ (called "team-b" "sample-ocm").name := by decide
  obtain ⟨a, b, ha, hb, -, -, hidentity, hselector⟩ :=
    generate_some_apart (c := shared) rfl (called "team-a" "sample") (called "team-b" "sample-ocm")
      none none
  exact ⟨rfl, a, b, ha, hb, mt hidentity.mp hname, mt hselector.mp hname⟩

/-- Two forwarders of one name in two namespaces are different objects, and their deployments in
the namespace of a collection are one. -/
theorem same_deployment_in_shared :
    shared.usesElasticsearch ∧ (called "team-a" "sample").key ≠ (called "team-b" "sample").key ∧
      ∃ a b : Resource,
        ((called "team-a" "sample").generate (some shared) none).Gives [a] ∧
        ((called "team-b" "sample").generate (some shared) none).Gives [b] ∧
        a.kind = "Deployment" ∧ b.kind = "Deployment" ∧
        a.identity = b.identity ∧ Draft.selector? a.value = Draft.selector? b.value :=
  ⟨rfl, by decide, _, _, generate_some_gives rfl _ none, generate_some_gives rfl _ none,
    rfl, rfl, rfl, rfl⟩

end Forwarder

end LogForwarder
