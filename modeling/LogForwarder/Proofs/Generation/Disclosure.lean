import LogForwarder.Proofs.Generation.Ownership
import Mathlib.Logic.Function.Basic

/-!
# What a deployment tells of its forwarder

1. A deployment tells everything that its pods run with, in the form in which it is built and in the
   form that the cluster stores (`ForwarderPod.resource_eq_iff`): the texts of different numbers and
   flags are different.
2. What the pods of a forwarder of a collection run with is settled by the collection and by five
   values of the forwarder (`ManagedForwarder.pod_eq_iff`). So two forwarders get the same exactly
   if they agree on these, and nothing else of a forwarder gets out.
-/

namespace LogForwarder

/-! ## Environments -/

/-- A number can be read back from its text. -/
theorem leftInverse_repr :
    Function.LeftInverse (fun s => Nat.ofDigitChars 10 s.toList 0) Nat.repr := by
  intro n
  show Nat.ofDigitChars 10 n.repr.toList 0 = n
  rw [Nat.toList_repr, Nat.ofDigitChars_ten_toDigits]

theorem toString_flag_eq_iff {a b : Bool} : toString a = toString b ↔ a = b := by
  cases a <;> cases b <;> decide

namespace Environment

/-- The texts that the container finds, in the order of the entries. -/
def texts (e : Environment) : List Value :=
  [ .str e.clusterId, .str (toString e.pollIntervalMinutes.toNat), .str e.ocmSecretName,
    .str e.backendType, .str e.elasticUrl, .str e.elasticAuthType, .str e.elasticIndex,
    .str e.elasticSecretName, .str (toString e.debug) ]

/-- An environment can be told from its texts. -/
theorem texts_eq_iff {e f : Environment} : e.texts = f.texts ↔ e = f := by
  cases e
  cases f
  simp [texts, leftInverse_repr.injective.eq_iff, toString_flag_eq_iff, UInt32.toNat_inj]

end Environment

/-! ## Pods -/

namespace ForwarderPod

theorem images_resource (p : ForwarderPod) (request : Option Request) :
    (Draft.containers (p.resource request).value).map (·.textAt? ["image"]) =
      [some (image p.version)] := by
  cases request <;> rfl

theorem image_eq_iff {v w : String} : image v = image w ↔ v = w :=
  String.append_right_inj _

/-- What the container finds is the same in both forms, once numbers and flags are texts. -/
theorem texts_resource (p : ForwarderPod) (request : Option Request) :
    (Environment.names.flatMap (Draft.entryValues (p.resource request).value)).map
        Environment.coerce = p.environment.texts := by
  cases request with
  | none =>
    unfold Environment.texts
    rw [← coerce_debug, ← coerce_minutes]
    rfl
  | some _ => rfl

theorem isTyped_resource (p : ForwarderPod) (request : Option Request) :
    (p.resource request).isTyped = request.isSome := by
  cases request <;> rfl

variable {p q : ForwarderPod} {r s : Option Request}

theorem eq_of_fields (hname : p.name = q.name) (hnamespace : p.objectNamespace = q.objectNamespace)
    (haccount : p.serviceAccount = q.serviceAccount) (hversion : p.version = q.version)
    (henvironment : p.environment = q.environment) : p = q := by
  cases p
  cases q
  congr

/-- **A deployment loses nothing of its pod.** -/
theorem resource_eq_iff : p.resource r = q.resource s ↔ p = q ∧ r.isSome = s.isSome := by
  constructor
  · intro h
    -- What can be read off a resource in either form gives the fields of its pod one after another.
    have hidentity := congrArg Resource.identity h
    rw [identity_resource, identity_resource] at hidentity
    obtain ⟨hnamespace, hname, _⟩ := Identity.mk.inj hidentity
    have haccount := congrArg (fun r => Draft.podAccount r.value) h
    simp only [podAccount_resource, Identity.mk.injEq] at haccount
    have himage := congrArg (fun r => (Draft.containers r.value).map (·.textAt? ["image"])) h
    simp only [images_resource, List.cons.injEq, Option.some.injEq, image_eq_iff] at himage
    have htexts := congrArg (fun r =>
      (Environment.names.flatMap (Draft.entryValues r.value)).map Environment.coerce) h
    simp only [texts_resource, Environment.texts_eq_iff] at htexts
    have hform := congrArg Resource.isTyped h
    rw [isTyped_resource, isTyped_resource] at hform
    exact ⟨eq_of_fields hname hnamespace haccount.2.1 himage.1 htexts, hform⟩
  · rintro ⟨rfl, hform⟩
    cases r <;> cases s <;> first | rfl | cases hform

end ForwarderPod

/-! ## Forwarders of a collection -/

/-- What the pods of two forwarders of a collection run with is the same exactly if the forwarders
agree on five values. -/
theorem ManagedForwarder.pod_eq_iff {c : Collection} {p q : Forwarder} :
    ManagedForwarder.pod ⟨p, c⟩ = ManagedForwarder.pod ⟨q, c⟩ ↔
      p.name = q.name ∧ p.spec.forwarderVersion = q.spec.forwarderVersion ∧
      p.spec.ocm.clusterId = q.spec.ocm.clusterId ∧
      p.spec.ocm.pollIntervalMinutes = q.spec.ocm.pollIntervalMinutes ∧
      p.spec.debug = q.spec.debug := by
  simp [ManagedForwarder.pod, Forwarder.environment]

/-- The collection with another provider and another secret for the credentials of its backend. -/
def Collection.withUnread (c : Collection) (provider : Provider) (secretRef : Option String) :
    Collection :=
  let elasticSearch := { c.spec.backend.elasticSearch with secretRef := secretRef }
  let backend := { c.spec.backend with elasticSearch := elasticSearch }
  { c with spec := { c.spec with provider := provider, backend := backend } }

namespace Forwarder

/-- **What a forwarder of a collection gives away.** If the backend of a collection is served, what
is generated for two of its forwarders is the same exactly if the forwarders agree on their names,
versions, clusters, poll intervals and debug flags. What the collection says about its provider and
the secret with the credentials makes no difference. -/
theorem generate_some_eq_iff {c : Collection} (hc : c.usesElasticsearch) (p q : Forwarder)
    {r s : Option Request} (hform : r.isSome = s.isSome) :
    ∃ a b, (p.generate (some c) r).Gives a ∧ (q.generate (some c) s).Gives b ∧
      (a = b ↔
        p.name = q.name ∧ p.spec.forwarderVersion = q.spec.forwarderVersion ∧
        p.spec.ocm.clusterId = q.spec.ocm.clusterId ∧
        p.spec.ocm.pollIntervalMinutes = q.spec.ocm.pollIntervalMinutes ∧
        p.spec.debug = q.spec.debug) ∧
      ∀ provider secretRef,
        (p.generate (some (c.withUnread provider secretRef)) r).Gives a := by
  refine ⟨_, _, generate_some_gives hc p r, generate_some_gives hc q s, ?_, ?_⟩
  · rw [List.cons.injEq, ForwarderPod.resource_eq_iff, ManagedForwarder.pod_eq_iff]
    exact ⟨fun h => h.1.1, fun h => ⟨⟨h, hform⟩, rfl⟩⟩
  · intro provider secretRef
    have hserved : (c.withUnread provider secretRef).usesElasticsearch := hc
    exact generate_some_gives hserved p r

/-- A forwarder that agrees with the one called `sample` in what its collection does not settle, and
in nothing else. -/
def elsewhere : Forwarder where
  metadata := { name := some "sample", objectNamespace := some "team-b" }
  spec :=
    { collection := some ⟨"shared", some "team-c"⟩,
      ocm := { clusterId := "abc123", secretRef := "other-token" },
      backend :=
        { backendType := .unsupported "splunk",
          elasticSearch := { index := "other", secretRef := some "other-auth" } } }

/-- Two different forwarders from which the same is generated. -/
theorem same_for_elsewhere :
    shared.usesElasticsearch ∧
      (some (Request.mk "sample" none)).isSome =
        (some (Request.mk "other" (some "team-b"))).isSome ∧
      called "team-a" "sample" ≠ elsewhere ∧ ∃ a,
        ((called "team-a" "sample").generate (some shared) (some ⟨"sample", none⟩)).Gives a ∧
        (elsewhere.generate (some shared) (some ⟨"other", some "team-b"⟩)).Gives a ∧
        ∀ provider secretRef, ((called "team-a" "sample").generate
          (some (shared.withUnread provider secretRef)) (some ⟨"sample", none⟩)).Gives a := by
  obtain ⟨a, b, ha, hb, hagree, hunread⟩ :=
    generate_some_eq_iff (c := shared) rfl (called "team-a" "sample") elsewhere
      (r := some ⟨"sample", none⟩) (s := some ⟨"other", some "team-b"⟩) rfl
  have hsame : a = b := hagree.mpr ⟨rfl, rfl, rfl, rfl, rfl⟩
  exact ⟨rfl, rfl, by decide, a, ha, hsame ▸ hb, hunread⟩

end Forwarder

end LogForwarder
