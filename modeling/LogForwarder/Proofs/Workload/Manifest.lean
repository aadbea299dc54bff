import LogForwarder.Proofs.Generation.Offline
import LogForwarder.Proofs.Workload.EnvelopeFirst

/-!
# Workloads as manifests

Objects of the cluster and manifests are read in different ways, but what one way understands the
other does: a workload that an object loads as is written as a manifest that parses as the same
workload (`Manifest.parse_write`). So generation from the manifest is generation for the workload,
once it is checked (`manifests_agree`).
-/

namespace LogForwarder

open Schema
open Yaml (Node)

namespace Manifest

/-- A manifest that was written is read from the node of its value. -/
theorem read_write {schema : Schema} {v w : Value} (kind : String)
    (h : schema.ofNode (Node.ofValue v) (Node.ofValue v) = .ok w) :
    read schema kind (Yaml.write v) = .ok w := by
  have document : schema.ofDocument ⟨some (Node.ofValue v)⟩ = .ok w := h
  simp only [read, Yaml.Document.read?_write, document]

variable {σ : Type} [WorkloadKind σ] {ms : Members}

/-- A workload that was written has the envelope of its kind. -/
theorem envelope_write (hms : areCanonical (Workload.members σ) ms) (kind : String) :
    envelope kind (Yaml.write (.map (Workload.written σ ms))) = .ok (Envelope.ofKind σ) := by
  have hgives : ApiObject.Gives (Workload.written σ ms) (Envelope.ofKind σ) := by
    simp [ApiObject.Gives, Workload.written, Envelope.ofKind]
  exact envelope_eq_ok_iff.mpr (carries_write (Workload.nodup_keys_written hms) hgives)

/-- **Manifests are read as objects are.** What an object loads as is written as a manifest that
parses as the same. -/
theorem parse_write [LawfulKind σ] {v : Value} {r : Workload σ} (h : Workload.LoadsAs v r) :
    parse σ (Yaml.write r.toValue) = .ok r := by
  obtain ⟨ms, hms, rfl, hwritten⟩ := h.written_eq
  rw [hwritten]
  have hwell := isWellFormed_record.mp (Workload.isWellFormed_schema (σ := σ))
  -- The schema of a kind does not name the envelope, which is passed over.
  have hget : ∀ key ∈ names (Workload.members σ),
      (Workload.written σ ms).get? key = ms.get? key := by
    intro key hkey
    have hne : "apiVersion" ≠ key ∧ "kind" ≠ key := by
      have hname : key ∈ ["metadata", "spec", "status"] := hkey
      constructor
      · rintro rfl
        simp at hname
      · rintro rfl
        simp at hname
    simp [Workload.written, hne]
  have hread : read (Workload.schema σ) (WorkloadKind.kind σ)
      (Yaml.write (.map (Workload.written σ ms))) = .ok (.map ms) :=
    read_write _ (ofNode_record Workload.nodup_names hms (Workload.nodup_keys_written hms) hget
      (ofNode_ofValue_of_mem hwell.2))
  unfold parse
  refine bind_eq_ok.mpr ⟨_, envelope_write hms _, ?_⟩
  rw [if_pos rfl]
  exact bind_eq_ok.mpr ⟨_, hread, rfl⟩

end Manifest

/-- **Objects and manifests agree.** A workload of either kind that an object loads as is written as
a manifest that parses as the same workload, whatever its texts are. If the workload passes its
checks, generation from this manifest is generation for the workload, without a request and without
a collection, and gives its resources. -/
theorem manifests_agree (v : Value) :
    (∀ p : Forwarder, Workload.LoadsAs v p →
      Manifest.parse ForwarderSpec (Yaml.write p.toValue) = .ok p ∧
        (Forwarder.validate p = .ok () →
          Forwarder.generateOffline (Yaml.write p.toValue) none = Forwarder.generate p none none ∧
            ∃ rs, (Forwarder.generate p none none).Gives rs)) ∧
      ∀ c : Collection, Workload.LoadsAs v c →
        Manifest.parse CollectionSpec (Yaml.write c.toValue) = .ok c ∧
          (Collection.validate c = .ok () →
            Collection.generateOffline (Yaml.write c.toValue) = Collection.generate c none ∧
              ∃ rs, (Collection.generate c none).Gives rs) := by
  constructor
  · intro p h
    have hparse := Manifest.parse_write h
    refine ⟨hparse, fun hvalid => ⟨?_, _, p.generate_gives none none⟩⟩
    unfold Forwarder.generateOffline
    rw [(Forwarder.ofManifests_of_parse hparse hvalid).1]
    rfl
  · intro c h
    have hparse := Manifest.parse_write h
    refine ⟨hparse, fun hvalid => ⟨?_, _, c.generate_gives none⟩⟩
    have hread : Collection.ofManifest (Yaml.write c.toValue) = .ok c :=
      bind_eq_ok.mpr ⟨c, hparse, bind_eq_ok.mpr ⟨(), hvalid, rfl⟩⟩
    unfold Collection.generateOffline
    rw [hread]
    rfl

/-- A forwarder whose texts look like null and like a number. -/
theorem manifests_agree_lookalikes :
    ∃ p : Forwarder,
      Workload.LoadsAs
        (.map
          [ ("apiVersion", .str "v9"), ("kind", .str "OCMLogForwarder"),
            ("metadata", .map [("name", .str "sample")]),
            ("spec", .map
              [ ("ocm", .map [("clusterId", .str "~")]),
                ("backend", .map
                  [("elasticSearch", .map [("url", .str "null"), ("index", .str "5")])]) ]) ]) p ∧
        p.spec.ocm.clusterId = "~" ∧ p.spec.backend.elasticSearch.index = "5" ∧
          Manifest.parse ForwarderSpec (Yaml.write p.toValue) = .ok p ∧
            Forwarder.generateOffline (Yaml.write p.toValue) none =
              Forwarder.generate p none none := by
  let p : Forwarder :=
    { metadata := { name := some "sample" }
      spec :=
        { ocm := { clusterId := "~" }
          backend := { elasticSearch := { url := "null", index := "5" } } } }
  have hvalid : Forwarder.validate p = .ok () := Validation.orError_eq_ok_iff.mpr (by decide)
  refine ⟨p, ?loads, rfl, rfl, ((manifests_agree _).1 p ?loads).1,
    (((manifests_agree _).1 p ?loads).2 hvalid).1⟩
  exact ⟨_, rfl, rfl⟩

end LogForwarder
