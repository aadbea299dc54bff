import LogForwarder.Cluster.Access
import Mathlib.Data.List.Nodup

/-!
# What access objects allow

How the cluster reads roles and their bindings, whatever built them, and what it makes of the ones
that are built here.

1. `Draft.MayUse` says that some binding gives an account a role that allows a verb on a secret.
2. `Draft.AccessClosed` says that the bindings among some objects refer to roles among them, and
   that they let one account read some secrets and nothing else.
3. A role and a binding for each of some secrets are closed, among whatever objects of other kinds
   they stand (`Draft.accessClosed_append`).
-/

namespace LogForwarder.Draft

/-! ## Names -/

section

variable (name objectNamespace secret account : String)

@[simp] theorem identity_serviceAccount :
    identity (serviceAccount name objectNamespace) = ⟨objectNamespace, name, "ServiceAccount"⟩ :=
  rfl

@[simp] theorem identity_secretReaderRole :
    identity (secretReaderRole name objectNamespace secret) = ⟨objectNamespace, name, "Role"⟩ :=
  rfl

@[simp] theorem identity_roleBinding :
    identity (roleBinding name objectNamespace account) =
      ⟨objectNamespace, name, "RoleBinding"⟩ :=
  rfl

theorem kind_eq (d : Draft) : kind d = (identity d).kind := rfl

end

/-! ## Roles and bindings -/

/-- The texts in the list at a path of keys. -/
def textsAt (v : Value) (path : List String) : List String :=
  ((v.itemsAt? path).getD []).filterMap Value.text?

/-- Whether a rule allows a verb on a secret. A rule that names no resources is about all. -/
def RuleAllows (rule : Value) (verb secret : String) : Prop :=
  (∃ g ∈ ["", "*"], g ∈ textsAt rule ["apiGroups"]) ∧
  (∃ r ∈ ["secrets", "*"], r ∈ textsAt rule ["resources"]) ∧
  (∃ v ∈ [verb, "*"], v ∈ textsAt rule ["verbs"]) ∧
  (textsAt rule ["resourceNames"] = [] ∨ secret ∈ textsAt rule ["resourceNames"])

/-- The rules of a role. -/
def rules (d : Draft) : List Value := (d.itemsAt? ["rules"]).getD []

/-- Whether a role allows a verb on a secret. -/
def RoleAllows (role : Draft) (verb secret : String) : Prop :=
  ∃ rule ∈ rules role, RuleAllows rule verb secret

/-- The identity of a role to which a binding refers. A binding and its role share a namespace. -/
def referent (binding : Draft) : Identity :=
  ⟨(objectNamespace? binding).getD "", (binding.textAt? ["roleRef", "name"]).getD "",
    (binding.textAt? ["roleRef", "kind"]).getD ""⟩

/-- The identities of those to whom a binding gives its role. -/
def subjects (binding : Draft) : List Identity :=
  ((binding.itemsAt? ["subjects"]).getD []).map fun s =>
    ⟨(s.textAt? ["namespace"]).getD "", (s.textAt? ["name"]).getD "",
      (s.textAt? ["kind"]).getD ""⟩

/-- Whether some objects let an account use a verb on a secret of a namespace. -/
def MayUse (objects : List Draft) (account : Identity) (objectNamespace verb secret : String) :
    Prop :=
  ∃ binding ∈ objects, ∃ role ∈ objects, kind binding = "RoleBinding" ∧
    objectNamespace? binding = some objectNamespace ∧ account ∈ subjects binding ∧
    kind role = "Role" ∧ identity role = referent binding ∧ RoleAllows role verb secret

/-- Whether the bindings among some objects are for a service account among them and refer to
roles among them, and let the account read some secrets of its namespace and nothing else. -/
structure AccessClosed (objects : List Draft) (account : Identity) (secrets : List String) :
    Prop where
  account_kind : account.kind = "ServiceAccount"
  account_mem : account ∈ objects.map identity
  subjects_eq : ∀ b ∈ objects, kind b = "RoleBinding" → subjects b = [account]
  role_unique : ∀ b ∈ objects, kind b = "RoleBinding" →
    ∃ role, objects.filter (fun d => identity d = referent b) = [role] ∧ kind role = "Role"
  mayUse_iff : ∀ verb secret, MayUse objects account account.objectNamespace verb secret ↔
    verb ∈ ["get", "watch", "list"] ∧ secret ∈ secrets

/-! ## The objects that are built -/

section

variable {name objectNamespace secret account verb : String}

theorem roleAllows_secretReaderRole {s : String} :
    RoleAllows (secretReaderRole name objectNamespace secret) verb s ↔
      verb ∈ ["get", "watch", "list"] ∧ s = secret := by
  have hrules : rules (secretReaderRole name objectNamespace secret) =
      [ .map
        [ ("apiGroups", .list [.str ""]),
          ("resourceNames", .list [.str secret]),
          ("resources", .list [.str "secrets"]),
          ("verbs", .list [.str "get", .str "watch", .str "list"]) ] ] := rfl
  unfold RoleAllows
  rw [hrules, List.exists_mem_cons_iff]
  show ((∃ g ∈ ["", "*"], g ∈ [""]) ∧ (∃ r ∈ ["secrets", "*"], r ∈ ["secrets"]) ∧
    (∃ v ∈ [verb, "*"], v ∈ ["get", "watch", "list"]) ∧ ([secret] = [] ∨ s ∈ [secret])) ∨ _ ↔ _
  simp only [List.exists_mem_cons_iff]
  simp

theorem referent_roleBinding :
    referent (roleBinding name objectNamespace account) = ⟨objectNamespace, name, "Role"⟩ := rfl

theorem subjects_roleBinding :
    subjects (roleBinding name objectNamespace account) =
      [⟨objectNamespace, account, "ServiceAccount"⟩] := rfl

end

/-- A service account, and a role and a binding for each of some secrets, given with the names of
their roles. -/
def accessObjects (name objectNamespace : String) (grants : List (String × String)) : List Draft :=
  serviceAccount name objectNamespace ::
    (grants.map fun g => secretReaderRole g.1 objectNamespace g.2) ++
    grants.map fun g => roleBinding g.1 objectNamespace name

theorem filter_fst_eq_singleton {grants : List (String × String)} {g : String × String}
    (hn : (grants.map Prod.fst).Nodup) (hg : g ∈ grants) :
    grants.filter (fun h => h.1 = g.1) = [g] := by
  induction grants with
  | nil => cases hg
  | cons h grants ih =>
    obtain ⟨hh, hn⟩ := List.nodup_cons.mp hn
    rcases List.mem_cons.mp hg with rfl | hg
    · have hrest : grants.filter (fun h => h.1 = g.1) = [] := by
        refine List.filter_eq_nil_iff.mpr fun k hk heq => hh ?_
        exact of_decide_eq_true heq ▸ List.mem_map_of_mem hk
      rw [List.filter_cons_of_pos (by simp), hrest]
    · have hne : h.1 ≠ g.1 := fun e => hh (e ▸ List.mem_map_of_mem hg)
      rw [List.filter_cons_of_neg (by simpa using hne), ih hn hg]

section

variable {name objectNamespace : String} {grants : List (String × String)} {d : Draft}

theorem mem_accessObjects : d ∈ accessObjects name objectNamespace grants ↔
    d = serviceAccount name objectNamespace ∨
      (∃ g ∈ grants, d = secretReaderRole g.1 objectNamespace g.2) ∨
        ∃ g ∈ grants, d = roleBinding g.1 objectNamespace name := by
  simp [accessObjects, eq_comm]

theorem filter_deployment_accessObjects :
    (accessObjects name objectNamespace grants).filter (fun d => kind d = "Deployment") = [] := by
  refine List.filter_eq_nil_iff.mpr fun d hd => ?_
  rcases mem_accessObjects.mp hd with rfl | ⟨g, _, rfl⟩ | ⟨g, _, rfl⟩ <;> simp [kind_eq]

/-- With distinct names of roles, one of the objects is the role that a binding refers to. -/
theorem filter_referent (hn : (grants.map Prod.fst).Nodup) {g : String × String}
    (hg : g ∈ grants) :
    (accessObjects name objectNamespace grants).filter
        (fun d => identity d = ⟨objectNamespace, g.1, "Role"⟩) =
      [secretReaderRole g.1 objectNamespace g.2] := by
  unfold accessObjects
  have hroles : (grants.map fun h => secretReaderRole h.1 objectNamespace h.2).filter
      (fun d => identity d = ⟨objectNamespace, g.1, "Role"⟩) =
        [secretReaderRole g.1 objectNamespace g.2] := by
    rw [List.filter_map]
    have hcomp : ((fun d : Draft => decide (identity d = ⟨objectNamespace, g.1, "Role"⟩)) ∘
        fun h : String × String => secretReaderRole h.1 objectNamespace h.2) =
          fun h => decide (h.1 = g.1) := by
      funext h
      simp
    rw [hcomp, filter_fst_eq_singleton hn hg]
    rfl
  have hbindings : (grants.map fun h => roleBinding h.1 objectNamespace name).filter
      (fun d => identity d = ⟨objectNamespace, g.1, "Role"⟩) = [] := by
    refine List.filter_eq_nil_iff.mpr fun d hd => ?_
    obtain ⟨h, _, rfl⟩ := List.mem_map.mp hd
    simp
  rw [List.cons_append, List.filter_cons_of_neg (by simp), List.filter_append, hroles, hbindings,
    List.append_nil]

end

/-! ## Among other objects -/

section

variable {name objectNamespace : String} {grants : List (String × String)}
  {before after : List Draft} (hothers : ∀ d ∈ before ++ after, kind d ∉ ["Role", "RoleBinding"])

theorem mem_append_of_mem_accessObjects {d : Draft}
    (hd : d ∈ accessObjects name objectNamespace grants) :
    d ∈ before ++ accessObjects name objectNamespace grants ++ after :=
  List.mem_append_left _ (List.mem_append_right _ hd)

include hothers

theorem mem_accessObjects_of_kind {d : Draft}
    (hd : d ∈ before ++ accessObjects name objectNamespace grants ++ after)
    (hkind : kind d ∈ ["Role", "RoleBinding"]) :
    d ∈ accessObjects name objectNamespace grants := by
  rw [List.mem_append, List.mem_append] at hd
  rcases hd with (hd | hd) | hd
  · exact absurd hkind (hothers d (List.mem_append_left _ hd))
  · exact hd
  · exact absurd hkind (hothers d (List.mem_append_right _ hd))

theorem eq_of_kind_role {d : Draft}
    (hd : d ∈ before ++ accessObjects name objectNamespace grants ++ after)
    (hkind : kind d = "Role") : ∃ g ∈ grants, d = secretReaderRole g.1 objectNamespace g.2 := by
  have haccess := mem_accessObjects_of_kind hothers hd (by simp [hkind])
  rcases mem_accessObjects.mp haccess with rfl | hg | ⟨g, _, rfl⟩
  · simp [kind_eq] at hkind
  · exact hg
  · simp [kind_eq] at hkind

theorem eq_of_kind_roleBinding {d : Draft}
    (hd : d ∈ before ++ accessObjects name objectNamespace grants ++ after)
    (hkind : kind d = "RoleBinding") :
    ∃ g ∈ grants, d = roleBinding g.1 objectNamespace name := by
  have haccess := mem_accessObjects_of_kind hothers hd (by simp [hkind])
  rcases mem_accessObjects.mp haccess with rfl | ⟨g, _, rfl⟩ | hg
  · simp [kind_eq] at hkind
  · simp [kind_eq] at hkind
  · exact hg

/-- The role that a binding refers to is not found among the other objects. -/
theorem filter_referent_append (hn : (grants.map Prod.fst).Nodup) {g : String × String}
    (hg : g ∈ grants) :
    (before ++ accessObjects name objectNamespace grants ++ after).filter
        (fun d => identity d = ⟨objectNamespace, g.1, "Role"⟩) =
      [secretReaderRole g.1 objectNamespace g.2] := by
  have hnone : (before ++ after).filter
      (fun d => identity d = ⟨objectNamespace, g.1, "Role"⟩) = [] := by
    refine List.filter_eq_nil_iff.mpr fun d hd heq => hothers d hd ?_
    simp [kind_eq, of_decide_eq_true heq]
  rw [List.filter_append, List.append_eq_nil_iff] at hnone
  rw [List.filter_append, List.filter_append, hnone.1, hnone.2, filter_referent hn hg]
  rfl

theorem mayUse_append_iff {verb secret : String} :
    MayUse (before ++ accessObjects name objectNamespace grants ++ after)
        ⟨objectNamespace, name, "ServiceAccount"⟩ objectNamespace verb secret ↔
      verb ∈ ["get", "watch", "list"] ∧ secret ∈ grants.map Prod.snd := by
  constructor
  · rintro ⟨b, hb, role, hrole, hbkind, -, -, hrkind, -, hallows⟩
    obtain ⟨g, hg, rfl⟩ := eq_of_kind_role hothers hrole hrkind
    obtain ⟨hverb, rfl⟩ := roleAllows_secretReaderRole.mp hallows
    exact ⟨hverb, List.mem_map_of_mem hg⟩
  · rintro ⟨hverb, hsecret⟩
    obtain ⟨g, hg, rfl⟩ := List.mem_map.mp hsecret
    have hb : roleBinding g.1 objectNamespace name ∈
        before ++ accessObjects name objectNamespace grants ++ after :=
      mem_append_of_mem_accessObjects (mem_accessObjects.mpr (.inr (.inr ⟨g, hg, rfl⟩)))
    have hrole : secretReaderRole g.1 objectNamespace g.2 ∈
        before ++ accessObjects name objectNamespace grants ++ after :=
      mem_append_of_mem_accessObjects (mem_accessObjects.mpr (.inr (.inl ⟨g, hg, rfl⟩)))
    refine ⟨_, hb, _, hrole, rfl, rfl, ?_, rfl, rfl, roleAllows_secretReaderRole.mpr ⟨hverb, rfl⟩⟩
    rw [subjects_roleBinding]
    exact List.mem_singleton_self _

/-- **Access is closed.** A service account with a role and a binding for each of some secrets may
read these secrets and no others, among whatever objects that give no access. -/
theorem accessClosed_append (hn : (grants.map Prod.fst).Nodup) :
    AccessClosed (before ++ accessObjects name objectNamespace grants ++ after)
      ⟨objectNamespace, name, "ServiceAccount"⟩ (grants.map Prod.snd) where
  account_kind := rfl
  account_mem := by
    have haccount : serviceAccount name objectNamespace ∈
        before ++ accessObjects name objectNamespace grants ++ after :=
      mem_append_of_mem_accessObjects (mem_accessObjects.mpr (.inl rfl))
    exact List.mem_map.mpr ⟨_, haccount, identity_serviceAccount name objectNamespace⟩
  subjects_eq := by
    intro b hb hkind
    obtain ⟨g, _, rfl⟩ := eq_of_kind_roleBinding hothers hb hkind
    exact subjects_roleBinding
  role_unique := by
    intro b hb hkind
    obtain ⟨g, hg, rfl⟩ := eq_of_kind_roleBinding hothers hb hkind
    rw [referent_roleBinding]
    exact ⟨_, filter_referent_append hothers hn hg, rfl⟩
  mayUse_iff _ _ := mayUse_append_iff hothers

end

end LogForwarder.Draft
