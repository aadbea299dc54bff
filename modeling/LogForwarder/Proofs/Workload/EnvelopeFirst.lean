import LogForwarder.Proofs.Schema.Entries
import LogForwarder.Proofs.Workload.Envelope

/-!
# Version and kind before all else

A manifest is looked at twice: first for its version and its kind, then for the workload.

1. `Manifest.Carries` says without the reader which version and kind a text carries, and
   `Manifest.envelope_eq_ok_iff` that this is what the first look finds.
2. `Manifest.EnvelopeFirst` says what the first look settles, whatever the second would come to, and
   what of it is found again in the workload.
-/

namespace LogForwarder.Manifest

open Schema
open Yaml (Node)
open Yaml.Node (valuesUnder KeysAreTexts)

/-! ## The version and the kind of a text -/

/-- Whether a text carries a version and a kind: it holds one document, a map whose keys are all
texts, with one entry for the version and one for the kind, which are texts too. -/
def Carries (text : String) (e : Envelope) : Prop :=
  ∃ document, Yaml.Document.read? text = some document ∧
    ∃ root, document.content.getD .empty = root ∧
      ∃ tag entries, root.target root = .mapping tag entries ∧ KeysAreTexts root entries ∧
        (valuesUnder root entries "apiVersion").map (·.text? root) = [some e.apiVersion] ∧
        (valuesUnder root entries "kind").map (·.text? root) = [some e.kind]

variable {text kind : String} {e : Envelope}

theorem read_eq_ok_iff {schema : Schema} {v : Value} : read schema kind text = .ok v ↔
    ∃ document, Yaml.Document.read? text = some document ∧ schema.ofDocument document = .ok v := by
  unfold read
  cases Yaml.Document.read? text with
  | none => simp
  | some document => cases h : schema.ofDocument document <;> simp [h]

/-- A text that does not hold what a schema wants is unreadable. -/
theorem unreadable_of_read_ne_ok {schema : Schema} (h : ∀ v, read schema kind text ≠ .ok v) :
    ∃ detail, read schema kind text = .error (.unreadable kind detail) := by
  unfold read at h ⊢
  split
  · exact ⟨_, rfl⟩
  · rename_i hread
    split
    · rename_i hdocument
      simp only [hread, hdocument] at h
      exact absurd rfl (h _)
    · exact ⟨_, rfl⟩

theorem carries_iff : Carries text e ↔ ∃ document, Yaml.Document.read? text = some document ∧
    ∃ o : String → String, GivesTexts (document.content.getD .empty)
      (document.content.getD .empty) ["apiVersion", "kind"] o ∧
        e = ⟨o "apiVersion", o "kind"⟩ := by
  refine exists_congr fun document => and_congr_right fun _ => ?_
  constructor
  · rintro ⟨_, rfl, tag, entries, htarget, hkeys, hversion, hkind⟩
    refine ⟨fun name => if name = "apiVersion" then e.apiVersion else e.kind, ?_, rfl⟩
    refine ⟨tag, entries, htarget, hkeys, ?_⟩
    simp only [List.forall_mem_cons]
    exact ⟨hversion, hkind, nofun⟩
  · rintro ⟨o, ⟨tag, entries, htarget, hkeys, hvalues⟩, rfl⟩
    exact ⟨_, rfl, tag, entries, htarget, hkeys, hvalues _ (by simp), hvalues _ (by simp)⟩

/-- The first look at a manifest finds the version and the kind that it carries. -/
theorem envelope_eq_ok_iff : envelope kind text = .ok e ↔ Carries text e := by
  have hschema : Envelope.schema =
      .record ⟨"TypeMeta", true, none⟩ (textMembers ["apiVersion", "kind"]) := rfl
  rw [carries_iff]
  unfold envelope
  simp only [map_eq_ok, read_eq_ok_iff, ofDocument, hschema,
    ofNode_texts_eq_ok_iff (List.cons_ne_nil _ _)]
  constructor
  · rintro ⟨_, ⟨document, hread, o, ho, rfl⟩, rfl⟩
    exact ⟨document, hread, o, ho, rfl⟩
  · rintro ⟨document, hread, o, ho, rfl⟩
    exact ⟨_, ⟨document, hread, o, ho, rfl⟩, rfl⟩

theorem Carries.unique {e' : Envelope} (h : Carries text e) (h' : Carries text e') : e = e' := by
  have hread : envelope "" text = .ok e := envelope_eq_ok_iff.mpr h
  cases hread.symm.trans (envelope_eq_ok_iff.mpr h')
  rfl

/-! ## The version and the kind of what is written -/

section

variable {root : Node} {ms : Members}

theorem keysAreTexts_ofMembers : ∀ {ms : Members}, KeysAreTexts root (Node.ofMembers ms)
  | [] => nofun
  | (key, _) :: _ => List.forall_mem_cons.mpr ⟨⟨key, rfl⟩, keysAreTexts_ofMembers⟩

/-- What stands under a key of a map that is written. -/
theorem valuesUnder_ofMembers {key : String} : ∀ {ms : Members}, ms.keys.Nodup →
    valuesUnder root (Node.ofMembers ms) key = (ms.get? key).toList.map Node.ofValue
  | [], _ => rfl
  | (name, v) :: ms, h => by
    obtain ⟨hname, h⟩ := List.nodup_cons.mp h
    have ih : valuesUnder root (Node.ofMembers ms) key = _ := valuesUnder_ofMembers h
    have hkey : (Node.scalar none (Yaml.styleOf name).scalarStyle name).text? root = some name := rfl
    rw [Node.ofMembers, Members.get?_cons]
    by_cases he : name = key
    · subst he
      rw [Yaml.Node.valuesUnder_cons_self hkey, ih, Members.get?_eq_none_iff.mpr hname, if_pos rfl]
      rfl
    · rw [Yaml.Node.valuesUnder_cons_of_ne hkey he, ih, if_neg he]

/-- A map that is written carries the version and the kind that it gives. -/
theorem carries_write (hkeys : ms.keys.Nodup) (h : ApiObject.Gives ms e) :
    Carries (Yaml.write (.map ms)) e := by
  obtain ⟨hversion, hkind⟩ := h
  refine ⟨_, Yaml.Document.read?_write _, _, rfl, none, Node.ofMembers ms, ?_, ?_, ?_, ?_⟩
  · exact Node.target_ofValue _ _
  · exact keysAreTexts_ofMembers
  · rw [valuesUnder_ofMembers hkeys, hversion]
    rfl
  · rw [valuesUnder_ofMembers hkeys, hkind]
    rfl

end

/-! ## What is settled first -/

variable {σ : Type} [WorkloadKind σ]

theorem gives_toValue (r : Workload σ) :
    ∃ ms : Members, r.toValue = .map ms ∧ ms.keys.Nodup ∧ ApiObject.Gives ms (Envelope.ofKind σ) := by
  refine ⟨_, rfl, ?_, rfl, rfl⟩
  cases r.status <;> simp [Value.ofMember]

/-- What becomes of a text that carries a version and a kind. -/
theorem parse_of_carries (h : Carries text e) : parse σ text =
    if e = Envelope.ofKind σ then
      (read (Workload.schema σ) (WorkloadKind.kind σ) text).map Workload.ofValue
    else .error (.otherKind (Envelope.ofKind σ).text e.text) := by
  unfold parse
  rw [envelope_eq_ok_iff.mpr h]
  show (if _ then _ else _) = _
  split_ifs with he
  · cases read (Workload.schema σ) (WorkloadKind.kind σ) text <;> rfl
  · rfl

theorem parse_of_not_carries (h : ¬∃ e, Carries text e) :
    ∃ detail, parse σ text = .error (.unreadable (WorkloadKind.kind σ) detail) := by
  have hread : ∀ v, read Envelope.schema (WorkloadKind.kind σ) text ≠ .ok v := by
    intro v hv
    have hfound : envelope (WorkloadKind.kind σ) text = .ok (.ofValue v) :=
      map_eq_ok.mpr ⟨v, hv, rfl⟩
    exact h ⟨_, envelope_eq_ok_iff.mp hfound⟩
  obtain ⟨detail, hdetail⟩ := unreadable_of_read_ne_ok hread
  refine ⟨detail, ?_⟩
  unfold parse envelope
  rw [hdetail]
  rfl

/-- A workload carries the version and the kind of its text. -/
theorem carries_of_parse {r : Workload σ} (h : parse σ text = .ok r) :
    Carries text (Envelope.ofKind σ) := by
  by_cases hcarries : ∃ e, Carries text e
  · obtain ⟨e, he⟩ := hcarries
    rw [parse_of_carries he] at h
    split_ifs at h with hkind
    exact hkind ▸ he
  · obtain ⟨detail, hdetail⟩ := parse_of_not_carries (σ := σ) hcarries
    cases hdetail.symm.trans h

theorem ok_or_unreadable_of_carries (h : Carries text (Envelope.ofKind σ)) :
    (∃ r, parse σ text = .ok r) ∨
      ∃ detail, parse σ text = .error (.unreadable (WorkloadKind.kind σ) detail) := by
  rw [parse_of_carries h, if_pos rfl]
  by_cases hread : ∃ v, read (Workload.schema σ) (WorkloadKind.kind σ) text = .ok v
  · obtain ⟨v, hv⟩ := hread
    exact .inl ⟨_, map_eq_ok.mpr ⟨v, hv, rfl⟩⟩
  · obtain ⟨detail, hdetail⟩ := unreadable_of_read_ne_ok (not_exists.mp hread)
    exact .inr ⟨detail, map_eq_error.mpr hdetail⟩

variable (σ) in
/-- What the version and the kind that a text carries settle of its manifest. -/
structure EnvelopeFirst (text : String) : Prop where
  /-- A text that carries none is unreadable. -/
  unreadable : (¬∃ e, Carries text e) →
    ∃ detail, parse σ text = .error (.unreadable (WorkloadKind.kind σ) detail)
  /-- A text of another version or kind is refused for this, which hangs on nothing else in it. -/
  otherKind : ∀ e, Carries text e → e.apiVersion ≠ apiVersion ∨ e.kind ≠ WorkloadKind.kind σ →
    parse σ text = .error (.otherKind (apiVersion ++ "/" ++ WorkloadKind.kind σ)
      (e.apiVersion ++ "/" ++ e.kind))
  /-- Only a text of the version and the kind is a workload, or unreadable for what else it
  holds. -/
  ofKind : ∀ e, Carries text e →
    (((∃ r, parse σ text = .ok r) ∨
        ∃ detail, parse σ text = .error (.unreadable (WorkloadKind.kind σ) detail)) ↔
      e.apiVersion = apiVersion ∧ e.kind = WorkloadKind.kind σ)
  /-- A workload is written with the version and the kind of the text that it was read from. -/
  carried : ∀ r, parse σ text = .ok r → ∃ e, Carries text e ∧
    (∃ ms, r.toValue = .map ms ∧ ApiObject.Gives ms e) ∧ Carries (Yaml.write r.toValue) e

theorem eq_ofKind_iff :
    e = Envelope.ofKind σ ↔ e.apiVersion = apiVersion ∧ e.kind = WorkloadKind.kind σ := by
  cases e
  simp [Envelope.ofKind]

variable (σ text) in
theorem envelopeFirst : EnvelopeFirst σ text where
  unreadable := parse_of_not_carries
  otherKind e he hne := by
    have hkind : e ≠ Envelope.ofKind σ := by
      rw [Ne, eq_ofKind_iff]
      tauto
    rw [parse_of_carries he, if_neg hkind]
    rfl
  ofKind e he := by
    rw [← eq_ofKind_iff]
    constructor
    · intro h
      by_contra hkind
      rw [parse_of_carries he, if_neg hkind] at h
      rcases h with ⟨_, h⟩ | ⟨_, h⟩ <;> cases h
    · rintro rfl
      exact ok_or_unreadable_of_carries he
  carried r h := by
    obtain ⟨ms, hms, hkeys, hgives⟩ := gives_toValue r
    refine ⟨_, carries_of_parse h, ⟨ms, hms, hgives⟩, ?_⟩
    rw [hms]
    exact carries_write hkeys hgives

/-- **Version and kind come first.** They alone decide whether a text can be a manifest of a kind,
so no text is one of both kinds. -/
theorem forwarders_and_collections_envelopeFirst (text : String) :
    EnvelopeFirst ForwarderSpec text ∧ EnvelopeFirst CollectionSpec text ∧
      ¬((∃ p, parse ForwarderSpec text = .ok p) ∧ ∃ c, parse CollectionSpec text = .ok c) := by
  refine ⟨envelopeFirst _ _, envelopeFirst _ _, ?_⟩
  rintro ⟨⟨p, hp⟩, c, hc⟩
  have hsame := congrArg Envelope.kind ((carries_of_parse hp).unique (carries_of_parse hc))
  exact absurd hsame (by decide)

/-- A pod is refused as such, though its metadata and its specification would not be read, and is no
workload of either kind. -/
theorem envelopeFirst_pod :
    let text := "metadata: 5\nkind: Pod\napiVersion: v1\nspec: [1]\nspec: 2\n"
    Carries text ⟨"v1", "Pod"⟩ ∧
      parse ForwarderSpec text =
        .error (.otherKind "apps.dustinscott.io/v1alpha1/OCMLogForwarder" "v1/Pod") ∧
      parse CollectionSpec text =
        .error (.otherKind "apps.dustinscott.io/v1alpha1/OCMLogForwarderConfig" "v1/Pod") := by
  intro text
  have hfound : envelope "" text = .ok ⟨"v1", "Pod"⟩ := by decide +kernel
  have hcarries := envelope_eq_ok_iff.mp hfound
  obtain ⟨hforwarder, hcollection, -⟩ := forwarders_and_collections_envelopeFirst text
  exact ⟨hcarries, hforwarder.otherKind _ hcarries (by decide),
    hcollection.otherKind _ hcarries (by decide)⟩

end LogForwarder.Manifest
