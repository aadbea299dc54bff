import LogForwarder.Proofs.Generation.Environment
import LogForwarder.Proofs.Generation.Offline
import LogForwarder.Proofs.Number.Literal
import LogForwarder.Proofs.Schema.NodePlace
import LogForwarder.Proofs.Workload.EnvelopeFirst
import LogForwarder.Proofs.Workload.Interval
import LogForwarder.Proofs.Yaml.Integer

/-!
# From numerals to poll intervals

What becomes of the numeral that an object or a manifest gives for the poll interval of a forwarder.

1. `Forwarder.Settles` says it by the whole numbers that the numeral spells: the forwarder is
   generated with one of the range, refused by validation with another one of 32 bits, and not read
   at all with anything else.
2. It comes from two facts: a forwarder that is valid but for its interval is read with every number
   of 32 bits that is spelled and only with these (`settles_of_reads`), and the environment of a
   deployment has the digits of the number that was read (`entryValues_resource`).
3. In objects a number is spelled by its own digits, and in manifests also by those of other radices
   (`objects_and_manifests_settle`).
-/

namespace LogForwarder

open Schema
open Yaml (Node SpellsUnsigned)

namespace Forwarder

/-! ## Deployments -/

/-- A deployment has one entry for the interval, with its digits. -/
theorem entryValues_resource (p : Forwarder) (c : Option Collection) (request : Request) :
    Draft.entryValues ((p.podIn c).resource (some request)).value "OCM_POLL_INTERVAL_MINUTES" =
      [.str (toString p.spec.ocm.pollIntervalMinutes.toNat)] := by
  have hcontainers := (p.podIn c).environments_resource (some request)
  obtain ⟨container, hcontainer, hentries⟩ := List.map_eq_singleton_iff.mp hcontainers
  unfold Draft.entryValues
  rw [hcontainer, List.flatMap_singleton, hentries, environment_podIn,
    ← ForwarderPod.coerce_minutes]
  rfl

/-- A valid forwarder has its deployment, with the digits of its interval. -/
theorem exists_deployment {q : Forwarder} {c : Option Collection} (hq : q.validate = .ok ())
    (hc : ∀ collection ∈ c, Collection.validate collection = .ok ()) (request : Request) :
    ∃ rs d, (q.generate c (some request)).Gives rs ∧
      (rs.map Resource.value).filter (fun d => Draft.kind d = "Deployment") = [d] ∧
      Draft.entryValues d "OCM_POLL_INTERVAL_MINUTES" =
        [.str (toString q.spec.ocm.pollIntervalMinutes.toNat)] := by
  have hserved : (q.decidingBackend c).isElasticsearch := by
    cases c with
    | none => exact (accepted_of_checkForwarder (Validation.orError_eq_ok_iff.mp hq)).served
    | some c =>
      exact (Collection.of_checkCollection (Validation.orError_eq_ok_iff.mp (hc c rfl))).2.2
  refine ⟨_, _, q.generate_gives c (some request), ?_, q.entryValues_resource c request⟩
  rw [filter_resourcesIn, deployments, if_pos hserved]

/-! ## What is settled -/

/-- What becomes of a forwarder whose interval is given by a numeral, said by the whole numbers that
the numeral spells. -/
structure Settles (result : Except GenerationError Forwarder) (spells : Nat → Prop)
    (fault : GenerationError → Prop) : Prop where
  /-- Only with a number of the range it is a forwarder that validation accepts. -/
  accepted : (∃ q, result = .ok q ∧ q.validate = .ok ()) ↔ ∃ n, spells n ∧ 1 ≤ n ∧ n ≤ 1440
  /-- The deployment for a request has the digits of this number, with a collection or without. -/
  generated : ∀ n, spells n → 1 ≤ n → n ≤ 1440 → ∀ q, result = .ok q →
    ∀ (c : Option Collection) (request : Request),
      (∀ collection ∈ c, Collection.validate collection = .ok ()) →
        ∃ rs d, (q.generate c (some request)).Gives rs ∧
          (rs.map Resource.value).filter (fun d => Draft.kind d = "Deployment") = [d] ∧
          Draft.entryValues d "OCM_POLL_INTERVAL_MINUTES" = [.str (toString n)]
  /-- With another number of 32 bits it is a forwarder, which validation refuses for it. -/
  refused : ∀ n, spells n → n < 2 ^ 32 → ¬(1 ≤ n ∧ n ≤ 1440) → ∃ q, result = .ok q ∧
    q.validate = .error (.invalid "OCMLogForwarder" "spec.ocm.pollInternalMinutes"
      (.outOfBounds 1 1440 n))
  /-- With anything else it is none. -/
  unread : (¬∃ n, spells n ∧ n < 2 ^ 32) → ∃ e, result = .error e ∧ fault e

variable {result : Except GenerationError Forwarder} {spells : Nat → Prop}
  {fault : GenerationError → Prop}

/-- A forwarder that is read with the numbers that are spelled settles. -/
theorem settles_of_reads {r : Forwarder} {minutes : UInt32}
    (hvalid : (r.withInterval minutes).validate = .ok ())
    (hresult : ∀ q, result = .ok q ↔
      ∃ n, spells n ∧ n < UInt32.size ∧ q = r.withInterval (UInt32.ofNat n))
    (hunread : (∀ q, result ≠ .ok q) → ∃ e, result = .error e ∧ fault e) :
    Settles result spells fault := by
  have hkept {n : Nat} (hn : n < 2 ^ 32) : (UInt32.ofNat n).toNat = n :=
    UInt32.toNat_ofNat_of_lt hn
  have hread {n : Nat} (hn : spells n) (hlt : n < 2 ^ 32) :
      result = .ok (r.withInterval (UInt32.ofNat n)) :=
    (hresult _).mpr ⟨n, hn, hlt, rfl⟩
  have hchecked {n : Nat} (hn : n < 2 ^ 32) := hkept hn ▸ validate_withInterval hvalid (.ofNat n)
  have haccepted {n : Nat} (hrange : 1 ≤ n ∧ n ≤ 1440) :
      (r.withInterval (UInt32.ofNat n)).validate = .ok () := by
    rw [hchecked (by omega), if_pos hrange]
  constructor
  case accepted =>
    constructor
    · rintro ⟨q, hq, haccepts⟩
      obtain ⟨n, hn, hlt, rfl⟩ := (hresult q).mp hq
      rw [hchecked hlt] at haccepts
      split_ifs at haccepts with hrange
      exact ⟨n, hn, hrange⟩
    · rintro ⟨n, hn, hrange⟩
      exact ⟨_, hread hn (by omega), haccepted hrange⟩
  case generated =>
    intro n hn hleast hgreatest q hq c request hc
    have hlt : n < 2 ^ 32 := by omega
    cases (hread hn hlt).symm.trans hq
    have hinterval : (r.withInterval (.ofNat n)).spec.ocm.pollIntervalMinutes.toNat = n :=
      hkept hlt
    have h := exists_deployment (haccepted ⟨hleast, hgreatest⟩) hc request
    rwa [hinterval] at h
  case refused =>
    intro n hn hlt hrange
    refine ⟨_, hread hn hlt, ?_⟩
    rw [hchecked hlt, if_neg hrange]
  case unread =>
    intro hnone
    refine hunread fun q hq => hnone ?_
    obtain ⟨n, hn, hlt, -⟩ := (hresult q).mp hq
    exact ⟨n, hn, hlt⟩

end Forwarder

/-! ## Numerals -/

/-- Whether an object gives the number of a literal at a path of names. -/
def ApiObject.GivesNumber (o : ApiObject) (path : List String) (literal : String) : Prop :=
  ∃ x, Json.readNumber literal.toList = some (x, []) ∧ o.toValue.StandsAt path x

/-- The unquoted scalar without a tag that a manifest gives at a path of names. -/
def Manifest.plainAt? (text : String) (path : List String) : Option String := do
  let document ← Yaml.Document.read? text
  let root := document.content.getD .empty
  let node ← Node.at? root root path
  match node.target root with
  | .scalar none .plain scalar => some scalar
  | _ => none

theorem Manifest.plainAt?_eq_some {text scalar : String} {path : List String}
    (h : plainAt? text path = some scalar) :
    ∃ document root node, Yaml.Document.read? text = some document ∧
      document.content.getD .empty = root ∧ Node.at? root root path = some node ∧
        node.target root = .scalar none .plain scalar := by
  unfold plainAt? at h
  obtain ⟨document, hdocument, h⟩ := Option.bind_eq_some_iff.mp h
  obtain ⟨node, hnode, h⟩ := Option.bind_eq_some_iff.mp h
  refine ⟨document, _, node, hdocument, rfl, hnode, ?_⟩
  split at h
  · rename_i hscalar
    cases h
    exact hscalar
  · cases h

namespace Forwarder

/-- A number of an object is read as an integer of 32 bits from its digits alone. -/
theorem readInterval_literal_iff {literal : String} {x y : Value}
    (h : Json.readNumber literal.toList = some (x, [])) :
    (Schema.integer .unsigned32).ofValue x = .ok y ↔
      ∃ n : Nat, literal = toString n ∧ n < UInt32.size ∧ y = .int n := by
  have hdigits {n : Nat} : literal.toList = Nat.toDigits 10 n ↔ literal = toString n := by
    have htext : toString n = String.ofList (Nat.toDigits 10 n) := rfl
    rw [← String.toList_inj, htext, String.toList_ofList]
  constructor
  · intro hy
    unfold Schema.ofValue at hy
    split at hy
    · rename_i k
      split_ifs at hy with hholds
      obtain ⟨hpos, hsmall⟩ : 0 ≤ k ∧ k < UInt32.size := by simpa [IntegerKind.holds] using hholds
      obtain ⟨n, rfl⟩ := Int.eq_ofNat_of_zero_le hpos
      cases hy
      exact ⟨n, hdigits.mp (Json.readNumber_eq_int_iff.mp h).1, Int.ofNat_lt.mp hsmall, rfl⟩
    · cases hy
  · rintro ⟨n, hn, hsmall, rfl⟩
    have hsizes : UInt32.size < UInt64.size := by decide
    cases h.symm.trans (Json.readNumber_eq_int_iff.mpr ⟨hdigits.mpr hn, hsmall.trans hsizes⟩)
    have hholds : IntegerKind.unsigned32.holds n = true := by simpa [IntegerKind.holds] using hsmall
    unfold Schema.ofValue
    exact if_pos hholds

/-- A number that an object gives settles the forwarder by its digits. -/
theorem settles_object {o : ApiObject} {literal : String} (hkind : o.kind = "OCMLogForwarder")
    (hgives : o.GivesNumber intervalPath literal)
    (hvalid : ValidButInterval fun schema => schema.ofValue o.toValue) :
    Settles (o.parse ForwarderSpec) (fun n => literal = toString n)
      fun e => ∃ mismatch, e = .unfit "OCMLogForwarder" o.identity mismatch := by
  obtain ⟨x, hnumber, hx⟩ := hgives
  obtain ⟨r, ⟨minutes, hchecked⟩, hreads⟩ := hvalid.exists_reads_iff
    (readsAround_ofValue isPlace_intervalPath hx) fun y => readInterval_literal_iff hnumber
  cases hread : (Workload.schema ForwarderSpec).ofValue o.toValue with
  | ok v =>
    have hparse : o.parse ForwarderSpec = .ok (.ofValue v) := by
      unfold ApiObject.parse
      rw [hread]
      exact if_pos hkind
    refine settles_of_reads hchecked (fun q => ?_) fun hnone => absurd hparse (hnone _)
    rw [← hreads, hread, hparse]
    constructor <;> (rintro ⟨⟩; rfl)
  | error mismatch =>
    have hparse : o.parse ForwarderSpec =
        .error (.unfit "OCMLogForwarder" o.identity mismatch) := by
      unfold ApiObject.parse
      rw [hread]
      exact if_pos hkind
    refine settles_of_reads hchecked (fun q => ?_) fun _ => ⟨_, hparse, mismatch, rfl⟩
    rw [← hreads, hread, hparse]
    exact ⟨nofun, nofun⟩

/-- A scalar that a manifest gives settles the forwarder by what it spells. -/
theorem settles_manifest {text scalar : String}
    (hcarries : Manifest.Carries text (Envelope.ofKind ForwarderSpec))
    (hgives : Manifest.plainAt? text intervalPath = some scalar)
    (hvalid : ValidButInterval fun schema => Manifest.read schema "OCMLogForwarder" text) :
    Settles (Manifest.parse ForwarderSpec text) (SpellsUnsigned scalar)
      fun e => ∃ detail, e = .unreadable "OCMLogForwarder" detail := by
  obtain ⟨document, root, node, hdocument, hroot, hnode, hscalar⟩ :=
    Manifest.plainAt?_eq_some hgives
  have hread (schema : Schema) (w : Value) :
      Manifest.read schema "OCMLogForwarder" text = .ok w ↔ schema.ofNode root root = .ok w := by
    rw [Manifest.read_eq_ok_iff, hdocument, ← hroot]
    simp [ofDocument]
  have hinner (y : Value) : (Schema.integer .unsigned32).ofNode root node = .ok y ↔
      ∃ n, SpellsUnsigned scalar n ∧ n < UInt32.size ∧ y = .int n := by
    unfold ofNode
    rw [hscalar, ← Yaml.readInteger_unsigned32_iff]
    exact NodeResult.of_eq_ok_iff
  obtain ⟨r, ⟨minutes, hchecked⟩, hreads⟩ := hvalid.exists_reads_iff
    ((readsAround_ofNode isPlace_intervalPath hnode).congr fun _ => hread _) hinner
  refine settles_of_reads hchecked (fun q => ?_) fun hnone => ?_
  · rw [← hreads, Manifest.parse_of_carries hcarries, if_pos rfl]
    exact Iff.rfl
  · obtain ⟨q, hq⟩ | ⟨detail, hdetail⟩ := Manifest.ok_or_unreadable_of_carries hcarries
    · exact absurd hq (hnone q)
    · exact ⟨_, hdetail, detail, rfl⟩

/-- **No interval slips through.** In the object of a forwarder that is valid but for its interval,
a number settles the forwarder by its digits: one of the range is accepted and generated with,
another one without a sign that 32 bits hold is refused by validation, and every other number is not
read. In a manifest an unquoted scalar does the same by the number that it spells, in decimal digits
or in those of another radix after its mark. -/
theorem objects_and_manifests_settle :
    (∀ (o : ApiObject) (literal : String), o.kind = "OCMLogForwarder" →
      o.GivesNumber intervalPath literal →
      (ValidButInterval fun schema => schema.ofValue o.toValue) →
        Settles (o.parse ForwarderSpec) (fun n => literal = toString n)
          fun e => ∃ mismatch, e = .unfit "OCMLogForwarder" o.identity mismatch) ∧
    ∀ text scalar : String, Manifest.Carries text (Envelope.ofKind ForwarderSpec) →
      Manifest.plainAt? text intervalPath = some scalar →
      (ValidButInterval fun schema => Manifest.read schema "OCMLogForwarder" text) →
        Settles (Manifest.parse ForwarderSpec text) (SpellsUnsigned scalar)
          fun e => ∃ detail, e = .unreadable "OCMLogForwarder" detail :=
  ⟨fun _ _ => settles_object, fun _ _ => settles_manifest⟩

/-- A number that would wrap around to one of the range, and one of the range in hexadecimal
digits. -/
theorem settles_wrapping_and_hexadecimal :
    let o : ApiObject :=
      { envelope := some ⟨"apps.dustinscott.io/v1alpha1", "OCMLogForwarder"⟩
        metadata := { name := some "sample" }
        content :=
          [ ("spec", .map
              [ ("ocm", .map
                  [ ("clusterId", .str "abc123"), ("pollInternalMinutes", .int 4294967301) ]) ]) ] }
    let text :=
      "apiVersion: apps.dustinscott.io/v1alpha1\nkind: OCMLogForwarder\nmetadata:\n" ++
      "  name: sample\nspec:\n  ocm:\n    clusterId: abc123\n    pollInternalMinutes: 0x5A0\n"
    (∃ mismatch,
        o.parse ForwarderSpec = .error (.unfit "OCMLogForwarder" o.identity mismatch)) ∧
      ∃ q : Forwarder, Manifest.parse ForwarderSpec text = .ok q ∧ q.validate = .ok () ∧
        ∃ rs d, (q.generate none (some ⟨"sample", none⟩)).Gives rs ∧
          (rs.map Resource.value).filter (fun d => Draft.kind d = "Deployment") = [d] ∧
          Draft.entryValues d "OCM_POLL_INTERVAL_MINUTES" = [.str "1440"] := by
  intro o text
  obtain ⟨hobjects, hmanifests⟩ := objects_and_manifests_settle
  constructor
  · have hplace : o.toValue.StandsAt intervalPath (.int 4294967301) := by
      refine @Value.StandsAt.member [("metadata", o.metadata.toValue)] [] "spec" _ _ _ (by simp) ?_
      refine @Value.StandsAt.member [] [] "ocm" _ _ _ (by simp) ?_
      exact @Value.StandsAt.member [("clusterId", .str "abc123")] [] "pollInternalMinutes" _ _ _
        (by simp) .here
    have hnumber : Json.readNumber "4294967301".toList = some (.int (4294967301 : Nat), []) :=
      Json.readNumber_eq_int_iff.mpr ⟨by decide, by decide⟩
    have hvalid : ValidButInterval fun schema => schema.ofValue o.toValue :=
      @validButInterval_of_map _ _ 5 (by decide +kernel)
    have hsettles := hobjects o "4294967301" rfl ⟨_, hnumber, hplace⟩ hvalid
    obtain ⟨e, he, mismatch, rfl⟩ := hsettles.unread <| by
      rintro ⟨n, hn, hlt⟩
      have hdecimal : Numeral.decimal 4294967301 = Numeral.decimal n := hn
      have := Numeral.decimal_injective hdecimal
      omega
    exact ⟨mismatch, he⟩
  · have hfound : Manifest.envelope "" text = .ok (Envelope.ofKind ForwarderSpec) := by
      decide +kernel
    have hcarries := Manifest.envelope_eq_ok_iff.mp hfound
    have hplain : Manifest.plainAt? text intervalPath = some "0x5A0" := by decide +kernel
    have hvalid : ValidButInterval fun schema => Manifest.read schema "OCMLogForwarder" text :=
      @validButInterval_of_map _ _ 5 (by decide +kernel)
    have hspells : SpellsUnsigned "0x5A0" 1440 := Yaml.unsigned?_eq_some_iff.mp (by decide)
    have hsettles := hmanifests text "0x5A0" hcarries hplain hvalid
    obtain ⟨q, hq, hchecked⟩ := hsettles.accepted.mpr ⟨1440, hspells, by decide⟩
    have hgenerated := hsettles.generated 1440 hspells (by decide) (by decide) q hq none
      ⟨"sample", none⟩ (by simp)
    exact ⟨q, hq, hchecked, hgenerated⟩

end Forwarder

end LogForwarder
