import LogForwarder.Generation.Offline
import LogForwarder.Proofs.Cluster.Access
import LogForwarder.Proofs.Cluster.Identifier
import LogForwarder.Proofs.Generation.Resources
import LogForwarder.Proofs.Workload.Validation

/-!
# Names of what a collection generates

The name of a collection is checked before the suffixes of its roles and bindings are put after it.
So what is generated from a manifest that is accepted is well named but for the length of names:
`-elastic` takes eight bytes, and a name of more than 245 bytes leaves no room for it.
-/

namespace LogForwarder

open Identifier

/-! ## Well-named objects -/

namespace Draft

/-- Whether the cluster takes every name by which an object is called or calls others. -/
structure WellNamed (d : Draft) : Prop where
  name : checkName (Draft.name d) = .ok ()
  objectNamespace : ∀ s ∈ objectNamespace? d, checkNamespace s = .ok ()
  roleRef : ∀ s ∈ d.textAt? ["roleRef", "name"], checkName s = .ok ()
  subjects : ∀ o ∈ Draft.subjects d, checkName o.name = .ok ()
  resourceNames : ∀ rule ∈ rules d, ∀ s ∈ textsAt rule ["resourceNames"], checkName s = .ok ()

variable {name objectNamespace secret account : String}

theorem wellNamed_ofNamespace_iff :
    WellNamed (ofNamespace name) ↔ checkName name = .ok () := by
  refine ⟨fun h => h.name, fun h => ⟨h, ?_, ?_, ?_, ?_⟩⟩
  · exact nofun
  · exact nofun
  · exact nofun
  · exact nofun

section

variable (hn : checkNamespace objectNamespace = .ok ())

include hn

theorem wellNamed_serviceAccount_iff :
    WellNamed (serviceAccount name objectNamespace) ↔ checkName name = .ok () := by
  refine ⟨fun h => h.name, fun h => ⟨h, ?_, ?_, ?_, ?_⟩⟩
  · rintro s ⟨⟩
    exact hn
  · exact nofun
  · exact nofun
  · exact nofun

theorem wellNamed_secretReaderRole_iff (hs : checkName secret = .ok ()) :
    WellNamed (secretReaderRole name objectNamespace secret) ↔ checkName name = .ok () := by
  refine ⟨fun h => h.name, fun h => ⟨h, ?_, ?_, ?_, ?_⟩⟩
  · rintro s ⟨⟩
    exact hn
  · exact nofun
  · exact nofun
  · intro rule hrule s hmem
    cases List.mem_singleton.mp hrule
    rw [show s = secret from List.mem_singleton.mp hmem]
    exact hs

theorem wellNamed_roleBinding_iff (ha : checkName account = .ok ()) :
    WellNamed (roleBinding name objectNamespace account) ↔ checkName name = .ok () := by
  refine ⟨fun h => h.name, fun h => ⟨h, ?_, ?_, ?_, ?_⟩⟩
  · rintro s ⟨⟩
    exact hn
  · rintro s ⟨⟩
    exact h
  · intro o ho
    rw [show o = ⟨objectNamespace, account, "ServiceAccount"⟩ from List.mem_singleton.mp ho]
    exact ha
  · exact nofun

end

end Draft

/-! ## Accepted collections -/

namespace Collection

/-- Generation from a manifest gives what the collection that it spells gives. -/
theorem outcome_generateOffline (manifest : String) :
    (generateOffline manifest).outcome = (ofManifest manifest).map resources := by
  unfold generateOffline
  cases ofManifest manifest with
  | error e => rfl
  | ok c => exact (c.generate_gives none).outcome_eq

theorem checked_of_ofManifest {manifest : String} {c : Collection}
    (h : ofManifest manifest = .ok c) : Validation.checkCollection c = .ok () := by
  obtain ⟨d, _, h⟩ := bind_eq_ok.mp h
  obtain ⟨⟨⟩, hvalid, h⟩ := bind_eq_ok.mp h
  cases h
  exact Validation.orError_eq_ok_iff.mp hvalid

/-- What the checks of a collection leave to rely on. -/
theorem of_checkCollection {c : Collection} (h : Validation.checkCollection c = .ok ()) :
    checkName c.name = .ok () ∧ checkNamespace c.spec.forwarderNamespace = .ok () ∧
      c.usesElasticsearch := by
  obtain ⟨hname, hnamespace, hbackend⟩ := Validation.checkCollection_eq_ok_iff.mp h
  exact ⟨hname, hnamespace, (Validation.checkBackend_eq_ok_iff.mp hbackend).1⟩

section

variable {c : Collection} (h : Validation.checkCollection c = .ok ())

include h

/-- What is generated for a collection that was accepted is well named but for its length. -/
theorem wellNamed_resources_iff :
    ∀ r ∈ c.resources, Draft.WellNamed r.value ↔ r.name.utf8ByteSize ≤ 253 := by
  obtain ⟨hname, hnamespace, helastic⟩ := of_checkCollection h
  have hspace := checkName_eq_ok_iff (checkName_of_checkNamespace hnamespace)
  have haccount := checkName_eq_ok_iff hname
  have hocm : checkName (ocmRbacName c.name) = .ok () ↔ _ :=
    checkName_append_eq_ok_iff hname (by decide)
  have helasticRbac : checkName (elasticRbacName c.name) = .ok () ↔ _ :=
    checkName_append_eq_ok_iff hname (by decide)
  unfold resources access
  rw [if_pos helastic]
  simp only [List.map_cons, List.map_nil, List.forall_mem_cons]
  exact ⟨Draft.wellNamed_ofNamespace_iff.trans hspace,
    (Draft.wellNamed_serviceAccount_iff hnamespace).trans haccount,
    (Draft.wellNamed_secretReaderRole_iff hnamespace (by decide)).trans hocm,
    (Draft.wellNamed_secretReaderRole_iff hnamespace (by decide)).trans helasticRbac,
    (Draft.wellNamed_roleBinding_iff hnamespace hname).trans hocm,
    (Draft.wellNamed_roleBinding_iff hnamespace hname).trans helasticRbac, nofun⟩

/-- All the names fit if the longest of them does. -/
theorem forall_size_le_iff :
    (∀ r ∈ c.resources, r.name.utf8ByteSize ≤ 253) ↔ c.name.utf8ByteSize ≤ 245 := by
  obtain ⟨_, hnamespace, helastic⟩ := of_checkCollection h
  have hspace : c.spec.forwarderNamespace.utf8ByteSize ≤ 63 := (check_eq_ok_iff.mp hnamespace).2.1
  have hocm : (ocmRbacName c.name).utf8ByteSize = c.name.utf8ByteSize + 4 :=
    String.utf8ByteSize_append
  have helasticRbac : (elasticRbacName c.name).utf8ByteSize = c.name.utf8ByteSize + 8 :=
    String.utf8ByteSize_append
  unfold resources access
  rw [if_pos helastic]
  simp only [List.map_cons, List.map_nil, List.forall_mem_cons, List.not_mem_nil, false_implies,
    implies_true, and_true]
  show c.spec.forwarderNamespace.utf8ByteSize ≤ 253 ∧ c.name.utf8ByteSize ≤ 253 ∧
    (ocmRbacName c.name).utf8ByteSize ≤ 253 ∧ (elasticRbacName c.name).utf8ByteSize ≤ 253 ∧
    (ocmRbacName c.name).utf8ByteSize ≤ 253 ∧ (elasticRbacName c.name).utf8ByteSize ≤ 253 ↔ _
  omega

end

/-- **Names of accepted collections.** An object that is generated from a manifest that is accepted
is well named exactly if its own name is not too long, and all of them are exactly if the name of
the collection has at most 245 bytes. Manifests with up to 253 bytes there are accepted. -/
theorem wellNamed_iff_of_generateOffline {manifest : String} {rs : List Resource}
    (h : (generateOffline manifest).outcome = .ok rs) :
    ∃ c, ofManifest manifest = .ok c ∧
      (∀ r ∈ rs, Draft.WellNamed r.value ↔ r.name.utf8ByteSize ≤ 253) ∧
      ((∀ r ∈ rs, Draft.WellNamed r.value) ↔ c.name.utf8ByteSize ≤ 245) := by
  rw [outcome_generateOffline] at h
  obtain ⟨c, hc, rfl⟩ := map_eq_ok.mp h
  have hchecked := checked_of_ofManifest hc
  have heach := wellNamed_resources_iff hchecked
  refine ⟨c, hc, heach, ?_⟩
  rw [← forall_size_le_iff hchecked]
  exact forall₂_congr heach

/-- What stands before the name in the manifest of a collection. -/
def manifestHead : String :=
  "apiVersion: apps.dustinscott.io/v1alpha1\nkind: OCMLogForwarderConfig\nmetadata:\n  name: '"

/-- What stands after the name. -/
def manifestTail : String := "'\nspec: \x7b\x7d\n"

/-- The manifest of a collection that has a name and nothing else. -/
def manifestNamed (name : List Char) : String :=
  manifestHead ++ String.ofList name ++ manifestTail

/-- The collection that has a name and nothing else. -/
def named (name : List Char) : Collection where
  metadata := { name := some (String.ofList name) }
  spec := {}

theorem tokens?_manifestNamed (name : List Char) :
    Yaml.tokens? (manifestNamed name) =
      let cs := manifestHead.toList ++ name ++ manifestTail.toList
      if cs.all Yaml.isAllowed then
        Yaml.Lexer.run ((Yaml.lineFeeds cs).length + 1) { cursor := { rest := Yaml.lineFeeds cs } }
      else none := by
  unfold Yaml.tokens? manifestNamed
  rw [String.toList_append, String.toList_append, String.toList_ofList]

-- The names stay lists of characters, since the kernel is slow to take strings apart.
theorem parse_of_length_246 {name : List Char} (h : name = List.replicate 246 'a') :
    Manifest.parse CollectionSpec (manifestNamed name) = .ok (named name) := by
  unfold Manifest.parse Manifest.envelope Manifest.read Yaml.Document.read?
    Yaml.Document.readStream?
  rw [tokens?_manifestNamed]
  subst h
  decide +kernel

theorem checkName_of_length_246 {name : List Char} (h : name = List.replicate 246 'a') :
    checkName (named name).name = .ok () := by
  have hform : isName (named name).name := by
    unfold isName
    rw [show (named name).name.toList = name from String.toList_ofList]
    subst h
    decide +kernel
  have hsize : (named name).name.utf8ByteSize = 246 := by
    subst h
    decide +kernel
  refine check_eq_ok_iff.mpr ⟨fun hempty => ?_, by omega, hform⟩
  rw [hempty] at hsize
  cases hsize

theorem ofManifest_of_length_246 {name : List Char} (h : name = List.replicate 246 'a') :
    ofManifest (manifestNamed name) = .ok (named name) := by
  have hnamespace : checkNamespace defaultForwarderNamespace = .ok () := by decide
  have hbackend : Validation.checkBackend {} = .ok () := by decide
  have hchecked : Validation.checkCollection (named name) = .ok () :=
    Validation.checkCollection_eq_ok_iff.mpr ⟨checkName_of_length_246 h, hnamespace, hbackend⟩
  have hvalid : validate (named name) = .ok () := Validation.orError_eq_ok_iff.mpr hchecked
  unfold ofManifest
  rw [parse_of_length_246 h]
  exact bind_eq_ok.mpr ⟨_, rfl, bind_eq_ok.mpr ⟨(), hvalid, rfl⟩⟩

/-- The shortest name that is accepted although not all that is generated can be well named. -/
theorem not_wellNamed_of_length_246 :
    ∃ rs, (generateOffline (manifestNamed (List.replicate 246 'a'))).outcome = .ok rs ∧
      ¬∀ r ∈ rs, Draft.WellNamed r.value := by
  have hc := ofManifest_of_length_246 rfl
  have hout : (generateOffline (manifestNamed (List.replicate 246 'a'))).outcome =
      .ok (named (List.replicate 246 'a')).resources := by
    rw [outcome_generateOffline, hc]
    rfl
  obtain ⟨d, hd, _, hall⟩ := wellNamed_iff_of_generateOffline hout
  obtain rfl := Except.ok.inj (hc.symm.trans hd)
  exact ⟨_, hout, fun h => absurd (hall.mp h) (by decide +kernel)⟩

end Collection

end LogForwarder
