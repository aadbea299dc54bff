import Mathlib.Data.List.TakeWhile
import LogForwarder.Program.Run
import LogForwarder.Proofs.Generation.ForwarderNames

/-!
# What the program prints

The program reads the version of a manifest by itself before it generates anything. This reading is
coarser than that of generation, so it refuses nothing that generation accepts
(`Manifest.version_of_parse`), and the program prints all that is generated or nothing
(`Program.generate_prints`).
-/

namespace LogForwarder

/-! ## Versions of manifests -/

namespace Envelope

/-- Whether a version is the last segment of the version of an object, the group before it aside. -/
def IsVersion (v apiVersion : String) : Prop :=
  '/' ∉ v.toList ∧ (apiVersion = v ∨ ∃ group, apiVersion = group ++ "/" ++ v)

/-- The version of an object is its last segment. -/
theorem version_eq {v : String} {e : Envelope} (h : IsVersion v e.apiVersion) : e.version = v := by
  obtain ⟨noSlash, hversion⟩ := h
  have passed : ∀ c ∈ v.toList.reverse, decide (c ≠ '/') = true := fun c hc =>
    decide_eq_true fun e => noSlash (e ▸ List.mem_reverse.mp hc)
  have last : e.apiVersion.toList.reverse.takeWhile (· ≠ '/') = v.toList.reverse := by
    rcases hversion with hversion | ⟨group, hversion⟩
    · rw [hversion]
      exact List.takeWhile_eq_self_iff.mpr passed
    · have split : e.apiVersion.toList.reverse =
          v.toList.reverse ++ '/' :: group.toList.reverse := by
        rw [hversion]
        simp
      rw [split, List.takeWhile_append_of_pos passed, List.takeWhile_cons_of_neg (by simp),
        List.append_nil]
  rw [version, last, List.reverse_reverse, String.ofList_toList]

end Envelope

namespace Manifest

variable {σ : Type} [WorkloadKind σ] {text : String}

/-- What is read does not depend on how a message calls it. -/
theorem read_kind {schema : Schema} {kind : String} {v : Value}
    (h : read schema kind text = .ok v) (other : String) : read schema other text = .ok v := by
  unfold read at h ⊢
  split at h
  · cases h
  · split at h <;> simp_all

/-- Whatever parses at all is of a version that is served. -/
theorem version_of_parse {r : Workload σ} (h : parse σ text = .ok r) :
    version text = .ok "v1alpha1" := by
  obtain ⟨found, henvelope, h⟩ := bind_eq_ok.mp h
  have hfound : found = Envelope.ofKind σ := by
    by_contra hne
    simp only [if_neg hne] at h
    cases h
  obtain ⟨v, hread, rfl⟩ := map_eq_ok.mp henvelope
  unfold version envelope
  rw [read_kind hread "manifest"]
  have served : (Envelope.ofKind σ).version = "v1alpha1" :=
    Envelope.version_eq ⟨by decide, .inr ⟨apiGroup, rfl⟩⟩
  show Except.ok (Envelope.ofValue v).version = _
  rw [hfound, served]

end Manifest

/-! ## Files -/

/-- A file is a text exactly if its bytes are those of the text. -/
theorem Files.decode_eq_ok_iff {bytes : ByteArray} {text : String} :
    decode bytes = .ok text ↔ bytes = text.toUTF8 := by
  unfold decode String.fromUTF8?
  by_cases h : bytes.IsValidUTF8
  · rw [dif_pos h]
    show Except.ok (String.fromUTF8 bytes h) = _ ↔ _
    rw [Except.ok.injEq, ← String.toByteArray_inj]
    rfl
  · rw [dif_neg h]
    refine iff_of_false (by simp) ?_
    rintro rfl
    exact h text.isValidUTF8

/-! ## What is printed -/

/-- Whether the program prints the resources that it is given, or else fails and prints nothing. -/
structure Outcome.Prints (o : Outcome) (Given : List Resource → Prop) : Prop where
  succeeds_iff : o.exitCode = 0 ↔ ∃ rs, Given rs
  prints : ∀ rs, Given rs → o.output = Resource.yamlStream rs
  silent : o.exitCode ≠ 0 → o.output = ""

/-- Whether the program refuses a manifest whose version is not served, of whatever kind it is. -/
def Outcome.RefusesVersions (o : Outcome) (manifest : String) : Prop :=
  ∀ e v, Manifest.envelope "manifest" manifest = .ok e → Envelope.IsVersion v e.apiVersion →
    v ≠ "v1alpha1" → o = { exitCode := 1, errors := ["unsupported API Version: " ++ v] }

namespace Program

/-- The end of the program after a command. -/
def outcome : Result → Outcome
  | .ok output => { output }
  | .error errors => { exitCode := 1, errors }

theorem run_eq {build : BuildInfo} {files : Files} {args : List String} {c : Command}
    (h : CommandLine.parse args = .command c) :
    run build files args = outcome (perform build files c) := by
  unfold run
  rw [h]
  dsimp only
  cases perform build files c <;> rfl

theorem readManifest_eq_ok_iff {files : Files} {path text : String} :
    readManifest files path = .ok text ↔ files path = .ok text := by
  unfold readManifest
  cases files path <;> simp

theorem mapM_readManifest_eq_ok_iff {files : Files} {path text : Option String} :
    path.mapM (readManifest files) = .ok text ↔ path.mapM files = .ok text := by
  cases path with
  | none =>
    show pure none = _ ↔ pure none = _
    rw [pure_eq_ok, pure_eq_ok]
  | some path =>
    show (readManifest files path >>= fun a => pure (some a)) = _ ↔
      (files path >>= fun a => pure (some a)) = _
    simp only [bind_eq_ok, pure_eq_ok, readManifest_eq_ok_iff]

theorem prints_outcome {r : Result} {Given : List Resource → Prop}
    (h : ∀ text, r = .ok text ↔ ∃ rs, Given rs ∧ text = Resource.yamlStream rs) :
    (outcome r).Prints Given := by
  refine ⟨?_, ?_, ?_⟩
  · cases r with
    | ok text =>
      obtain ⟨rs, hrs, -⟩ := (h text).mp rfl
      exact iff_of_true rfl ⟨rs, hrs⟩
    | error errors =>
      refine iff_of_false Nat.one_ne_zero ?_
      rintro ⟨rs, hrs⟩
      cases (h _).mpr ⟨rs, hrs, rfl⟩
  · intro rs hrs
    rw [(h _).mpr ⟨rs, hrs, rfl⟩]
    rfl
  · intro hfails
    cases r with
    | ok text => exact absurd rfl hfails
    | error errors => rfl

section

variable {manifest kind text : String} {g : Generation (List Resource)}

theorem generated_eq_ok_iff : generated manifest kind g = .ok text ↔
    Manifest.version manifest = .ok "v1alpha1" ∧
      ∃ rs, g.outcome = .ok rs ∧ text = Resource.yamlStream rs := by
  unfold generated
  cases Manifest.version manifest with
  | error e => simp
  | ok version =>
    by_cases hversion : version = "v1alpha1"
    · rw [hversion]
      cases g.outcome <;> simp [eq_comm]
    · simp [hversion]

/-- The version of a manifest is looked at before anything else in it. -/
theorem generated_of_version {e : Envelope} {v : String}
    (henvelope : Manifest.envelope "manifest" manifest = .ok e)
    (hversion : Envelope.IsVersion v e.apiVersion) (hv : v ≠ "v1alpha1") :
    generated manifest kind g = .error [unsupported v] := by
  have hread : Manifest.version manifest = .ok v := by
    unfold Manifest.version
    rw [henvelope]
    exact congrArg Except.ok (Envelope.version_eq hversion)
  unfold generated
  rw [hread]
  exact if_neg hv

end

/-! ### The commands that generate -/

theorem version_of_forwarder {manifest : String} {other : Option String} {rs : List Resource}
    (h : (Forwarder.generateOffline manifest other).outcome = .ok rs) :
    Manifest.version manifest = .ok "v1alpha1" := by
  rw [Forwarder.outcome_generateOffline] at h
  obtain ⟨w, hw, -⟩ := map_eq_ok.mp h
  obtain ⟨p, hparse, -⟩ := bind_eq_ok.mp hw
  exact Manifest.version_of_parse hparse

theorem version_of_collection {manifest : String} {rs : List Resource}
    (h : (Collection.generateOffline manifest).outcome = .ok rs) :
    Manifest.version manifest = .ok "v1alpha1" := by
  rw [Collection.outcome_generateOffline] at h
  obtain ⟨c, hc, -⟩ := map_eq_ok.mp h
  obtain ⟨d, hparse, -⟩ := bind_eq_ok.mp hc
  exact Manifest.version_of_parse hparse

variable {files : Files} {text : String}

theorem generateForwarder_eq_ok_iff {workload : String} {collection : Option String} :
    generateForwarder files workload collection = .ok text ↔
      ∃ rs, (∃ manifest other, files workload = .ok manifest ∧ collection.mapM files = .ok other ∧
        (Forwarder.generateOffline manifest other).outcome = .ok rs) ∧
          text = Resource.yamlStream rs := by
  unfold generateForwarder
  simp only [bind_eq_ok, readManifest_eq_ok_iff, mapM_readManifest_eq_ok_iff, generated_eq_ok_iff]
  constructor
  · rintro ⟨manifest, hmanifest, other, hother, -, rs, hout, rfl⟩
    exact ⟨rs, ⟨manifest, other, hmanifest, hother, hout⟩, rfl⟩
  · rintro ⟨rs, ⟨manifest, other, hmanifest, hother, hout⟩, rfl⟩
    exact ⟨manifest, hmanifest, other, hother, version_of_forwarder hout, rs, hout, rfl⟩

theorem generateCollection_eq_ok_iff {collection : String} :
    generateCollection files collection = .ok text ↔
      ∃ rs, (∃ manifest, files collection = .ok manifest ∧
        (Collection.generateOffline manifest).outcome = .ok rs) ∧
          text = Resource.yamlStream rs := by
  unfold generateCollection
  simp only [bind_eq_ok, readManifest_eq_ok_iff, generated_eq_ok_iff]
  constructor
  · rintro ⟨manifest, hmanifest, -, rs, hout, rfl⟩
    exact ⟨rs, ⟨manifest, hmanifest, hout⟩, rfl⟩
  · rintro ⟨rs, ⟨manifest, hmanifest, hout⟩, rfl⟩
    exact ⟨manifest, hmanifest, version_of_collection hout, rs, hout, rfl⟩

end Program

open Program

/-- **Everything or nothing is printed.** The commands that generate succeed exactly if their files
can be read as texts and generation from these succeeds, and then the stream of its resources is
printed; else nothing is. A manifest of a version that is not served is refused before its kind is
looked at, and none that parses is refused so. -/
theorem generate_prints (build : BuildInfo) (files : Files) (args : List String) :
    (∀ workload collection,
      CommandLine.parse args = .command (.generateForwarder workload collection) →
        (run build files args).Prints (fun rs => ∃ manifest other,
          files workload = .ok manifest ∧ collection.mapM files = .ok other ∧
            (Forwarder.generateOffline manifest other).outcome = .ok rs) ∧
        ∀ manifest other, files workload = .ok manifest → collection.mapM files = .ok other →
          (run build files args).RefusesVersions manifest) ∧
      (∀ collection, CommandLine.parse args = .command (.generateCollection collection) →
        (run build files args).Prints (fun rs => ∃ manifest, files collection = .ok manifest ∧
          (Collection.generateOffline manifest).outcome = .ok rs) ∧
        ∀ manifest, files collection = .ok manifest →
          (run build files args).RefusesVersions manifest) ∧
      (∀ text, (∃ p, Manifest.parse ForwarderSpec text = .ok p) ∨
          (∃ c, Manifest.parse CollectionSpec text = .ok c) →
        Manifest.version text = .ok "v1alpha1") ∧
      ∀ bytes text, Files.decode bytes = .ok text ↔ bytes = text.toUTF8 := by
  refine ⟨?_, ?_, ?_, fun _ _ => Files.decode_eq_ok_iff⟩
  · intro workload collection hargs
    rw [run_eq hargs]
    refine ⟨prints_outcome fun _ => generateForwarder_eq_ok_iff, ?_⟩
    intro manifest other hmanifest hother e v henvelope hversion hv
    have hcollection := mapM_readManifest_eq_ok_iff.mpr hother
    show outcome (generateForwarder files workload collection) = _
    rw [generateForwarder, readManifest_eq_ok_iff.mpr hmanifest, hcollection]
    exact congrArg outcome (generated_of_version henvelope hversion hv)
  · intro collection hargs
    rw [run_eq hargs]
    refine ⟨prints_outcome fun _ => generateCollection_eq_ok_iff, ?_⟩
    intro manifest hmanifest e v henvelope hversion hv
    show outcome (generateCollection files collection) = _
    rw [generateCollection, readManifest_eq_ok_iff.mpr hmanifest]
    exact congrArg outcome (generated_of_version henvelope hversion hv)
  · rintro text (⟨p, hp⟩ | ⟨c, hc⟩)
    · exact Manifest.version_of_parse hp
    · exact Manifest.version_of_parse hc

/-- A manifest of a forwarder that has a name and a cluster, and nothing else, is printed as six
resources. -/
theorem prints_sample : ∃ rs, rs.length = 6 ∧
    (run ⟨"", ""⟩ (fun _ => .ok Forwarder.sampleManifest)
      ["generate", "forwarder", "-w", "a"]).output = Resource.yamlStream rs := by
  have hout : (Forwarder.generateOffline Forwarder.sampleManifest none).outcome =
      .ok (Forwarder.sample.resourcesIn none none) := by
    rw [Forwarder.outcome_generateOffline, Forwarder.ofManifests_sample_none]
    rfl
  obtain ⟨hprints, -⟩ := (generate_prints ⟨"", ""⟩ (fun _ => .ok Forwarder.sampleManifest)
    ["generate", "forwarder", "-w", "a"]).1 "a" none rfl
  exact ⟨_, rfl, hprints.prints _ ⟨_, none, rfl, rfl, hout⟩⟩

end LogForwarder
