import LogForwarder.Generation.Collection
import LogForwarder.Generation.Forwarder
import LogForwarder.Proofs.Schema.Unknown
import LogForwarder.Proofs.Workload.Loading
import LogForwarder.Workload.Validation

/-!
# Members that no object has

Members with names that are known nowhere change nothing about an object, wherever in it they are
added.

1. `Workload.objectSchema` is what an object is as a whole, and `Workload.Extends` whether one is
   another with such members added.
2. An object is first read as one of any kind, which takes its envelope and its metadata out of it,
   and then put together again. Both times an addition is passed over (`Workload.ReadsAlike`).
3. So it loads as it did, and what is checked or generated is the same
   (`unknown_members_change_nothing`).
-/

namespace LogForwarder

open Schema

namespace Workload

/-! ## Additions to objects -/

/-- The members of metadata besides those that are read. -/
def otherMetadata : List String :=
  [ "creationTimestamp", "deletionGracePeriodSeconds", "deletionTimestamp", "managedFields",
    "ownerReferences", "selfLink" ]

/-- The names that a record has besides those that are read, by its title. -/
def otherNames (title : String) : List String := if title = "ObjectMeta" then otherMetadata else []

/-- How an object of a kind may be given, its version and its kind included. -/
def objectSchema (σ : Type) [WorkloadKind σ] : Schema :=
  .record ⟨WorkloadKind.title σ, true, none⟩
    ((⟨"apiVersion", .required, {}⟩, .text) :: (⟨"kind", .required, {}⟩, .text) :: members σ)

/-- Whether an object is another one with a member added that no object of the kind has. -/
abbrev Adds (σ : Type) [WorkloadKind σ] : Value → Value → Prop :=
  AddsUnknown otherNames (objectSchema σ)

/-- Whether an object is another one with members added that no object of the kind has. -/
abbrev Extends (σ : Type) [WorkloadKind σ] : Value → Value → Prop :=
  Relation.ReflTransGen (Adds σ)

/-- What a value loads as, if it is an object at all. -/
def load (σ : Type) [WorkloadKind σ] (v : Value) : Option (Except GenerationError (Workload σ)) :=
  (ApiObject.ofValue? v).map (·.parse σ)

variable {σ : Type} [WorkloadKind σ] {ms ns before after : Members} {key : String} {v w : Value}

/-! ## Objects that read alike -/

variable (σ ms ns) in
/-- Whether all that is read of two objects is the same. -/
structure ReadsAlike : Prop where
  envelope : ApiObject.envelope? ns = ApiObject.envelope? ms
  metadata : ApiObject.metadata? ns = ApiObject.metadata? ms
  content : ∀ metadata, (schema σ).ofValue (.map (reassembled ns metadata)) =
    (schema σ).ofValue (.map (reassembled ms metadata))

theorem ReadsAlike.load_eq (h : ReadsAlike σ ms ns) : load σ (.map ns) = load σ (.map ms) := by
  unfold load
  rw [ApiObject.ofValue?_map, ApiObject.ofValue?_map, h.metadata, h.envelope]
  cases ApiObject.metadata? ms with
  | none => rfl
  | some metadata => exact congrArg some (ApiObject.parse_congr_of_ofValue rfl rfl (h.content metadata))

/-- The members that an object is put together from besides its metadata. -/
def rest (ms : Members) : Members := ms.filter fun m => m.1 ∈ ["spec", "status"]

/-- An object is put together from its metadata and what is known of its content. -/
theorem filter_reassembled (ms : Members) (metadata : ObjectMeta) :
    (reassembled ms metadata).filter (fun m => m.1 ∈ names (members σ)) =
      ("metadata", metadata.toValue) :: rest ms := by
  have hlt : ∀ m ∈ content ms, m.1 ∈ names (members σ) → "metadata" < m.1 := by
    intro m hm hname
    have hother : m.1 ∉ ["apiVersion", "kind", "metadata"] := by simpa using List.of_mem_filter hm
    have hcases : m.1 = "metadata" ∨ m.1 = "spec" ∨ m.1 = "status" := by simpa using hname
    rcases hcases with he | he | he <;> rw [he] at hother ⊢
    · exact absurd (by simp) hother
    · decide
    · decide
  have hname : "metadata" ∈ names (members σ) := List.mem_cons_self
  unfold reassembled
  rw [Members.filter_put_of_forall_lt (· ∈ names (members σ)) hname hlt]
  unfold content rest
  rw [List.filter_filter]
  refine congrArg _ (List.filter_congr fun m _ => ?_)
  have hsame : m.1 ∈ names (members σ) ∧ m.1 ∉ ["apiVersion", "kind", "metadata"] ↔
      m.1 ∈ ["spec", "status"] := by
    constructor
    · rintro ⟨hname, hother⟩
      simp at hname hother ⊢
      tauto
    · intro h
      have hcases : m.1 = "spec" ∨ m.1 = "status" := by simpa using h
      rcases hcases with he | he <;> simp [he]
  rw [Bool.eq_iff_iff]
  simpa using hsame

theorem content_of_rest (metadata : ObjectMeta)
    (h : (schema σ).ofValue (.map (("metadata", metadata.toValue) :: rest ns)) =
      (schema σ).ofValue (.map (("metadata", metadata.toValue) :: rest ms))) :
    (schema σ).ofValue (.map (reassembled ns metadata)) =
      (schema σ).ofValue (.map (reassembled ms metadata)) := by
  rw [← filter_reassembled (σ := σ) ns, ← filter_reassembled (σ := σ) ms] at h
  exact (ofValue_filter_names _).symm.trans (h.trans (ofValue_filter_names _))

theorem envelope?_congr (h : ∀ key ∈ ["apiVersion", "kind"], ns.get? key = ms.get? key) :
    ApiObject.envelope? ns = ApiObject.envelope? ms := by
  unfold ApiObject.envelope?
  rw [h "apiVersion" (by simp), h "kind" (by simp)]

theorem metadata?_congr (h : ns.get? "metadata" = ms.get? "metadata") :
    ApiObject.metadata? ns = ApiObject.metadata? ms := by
  unfold ApiObject.metadata?
  rw [h]

/-! ## One addition -/

/-- An addition to an object itself. -/
theorem readsAlike_here (hkey : key ∉ "apiVersion" :: "kind" :: names (members σ)) :
    ReadsAlike σ (before ++ after) (before ++ (key, v) :: after) := by
  have hne : ∀ other ∈ "apiVersion" :: "kind" :: names (members σ), key ≠ other :=
    fun other hother he => hkey (he ▸ hother)
  refine ⟨envelope?_congr fun other hother => ?_, metadata?_congr ?_, fun metadata => ?_⟩
  · exact Members.get?_append_cons_of_ne (hne other (by simp at hother ⊢; tauto))
  · exact Members.get?_append_cons_of_ne (hne _ (by simp))
  · refine content_of_rest metadata ?_
    have hdropped : key ∉ ["spec", "status"] := fun h => hkey (by simp at h ⊢; tauto)
    unfold rest
    rw [List.filter_append, List.filter_append, List.filter_cons_of_neg (by simpa using hdropped)]

/-- An addition in the metadata of an object. -/
theorem readsAlike_metadata (h : AddsUnknown otherNames ObjectMeta.schema v w) :
    ReadsAlike σ (before ++ ("metadata", v) :: after) (before ++ ("metadata", w) :: after) := by
  refine ⟨envelope?_congr fun other hother => ?_, ?_, fun metadata => ?_⟩
  · refine Members.get?_replace_of_ne ?_
    rintro rfl
    simp at hother
  · have hread := ofValue_of_addsUnknown (by decide) h
    unfold ApiObject.metadata?
    rw [Members.get?_append, Members.get?_append, Members.get?_cons, Members.get?_cons, if_pos rfl,
      if_pos rfl]
    cases Members.get? before "metadata" with
    | none => exact congrArg (fun r => r.toOption.map ObjectMeta.ofValue) hread
    | some u => rfl
  · refine content_of_rest metadata ?_
    unfold rest
    rw [List.filter_append, List.filter_append, List.filter_cons_of_neg (by simp),
      List.filter_cons_of_neg (by simp)]

/-- An addition in the specification or the status of an object. -/
theorem readsAlike_member [LawfulKind σ] {m : MemberInfo × Schema} (hm : m ∈ members σ)
    (hname : m.1.name ∈ ["spec", "status"]) (h : AddsUnknown otherNames m.2 v w) :
    ReadsAlike σ (before ++ (m.1.name, v) :: after) (before ++ (m.1.name, w) :: after) := by
  have hne : ∀ other ∈ ["apiVersion", "kind", "metadata"], m.1.name ≠ other := by
    intro other hother he
    rw [he] at hname
    simp at hother hname
    rcases hother with rfl | rfl | rfl <;> simp at hname
  refine ⟨envelope?_congr fun other hother => ?_, metadata?_congr ?_, fun metadata => ?_⟩
  · exact Members.get?_replace_of_ne (hne other (by simp at hother ⊢; tauto))
  · exact Members.get?_replace_of_ne (hne _ (by simp))
  · refine content_of_rest metadata ?_
    have hkept : ∀ u, rest (before ++ (m.1.name, u) :: after) =
        rest before ++ (m.1.name, u) :: rest after := by
      intro u
      unfold rest
      rw [List.filter_append, List.filter_cons_of_pos (by simpa using hname)]
    have hadds : AddsUnknown otherNames (schema σ)
        (.map (("metadata", metadata.toValue) :: rest before ++ (m.1.name, v) :: rest after))
        (.map (("metadata", metadata.toValue) :: rest before ++ (m.1.name, w) :: rest after)) :=
      .member _ _ hm h
    rw [hkept, hkept]
    exact ofValue_of_addsUnknown isWellFormed_schema hadds

/-- An object with one member added loads as it did, or is refused as it was. -/
theorem load_of_adds [LawfulKind σ] (h : Adds σ v w) : load σ w = load σ v := by
  unfold Adds objectSchema at h
  cases h with
  | here before after key v hkey _ => exact (readsAlike_here hkey).load_eq
  | member before after hm h =>
    -- Nothing can be added to the version and the kind, which are texts.
    rcases List.mem_cons.mp hm with rfl | hm
    · cases h
    rcases List.mem_cons.mp hm with rfl | hm
    · cases h
    rcases List.mem_cons.mp hm with rfl | hrest
    · exact (readsAlike_metadata h).load_eq
    · refine (readsAlike_member hm ?_ h).load_eq
      have hname := List.mem_map_of_mem (f := fun m => m.1.name) hrest
      exact hname

/-- **Unknown members change nothing.** An object with any members added loads as it did, or is
refused as it was. -/
theorem load_of_extends [LawfulKind σ] (h : Extends σ v w) : load σ w = load σ v := by
  induction h with
  | refl => rfl
  | tail _ hadds ih => rw [load_of_adds hadds, ih]

end Workload

/-! ## Checks and generation -/

/-- What is found wrong with the forwarder that a value loads as. -/
def Forwarder.verdict (v : Value) : Option (Except GenerationError Unit) :=
  (Workload.load ForwarderSpec v).map (· >>= Forwarder.validate)

/-- What is found wrong with the collection that a value loads as. -/
def Collection.verdict (v : Value) : Option (Except GenerationError Unit) :=
  (Workload.load CollectionSpec v).map (· >>= Collection.validate)

/-- Generation for the forwarder and the collection, if any, that two values are, in answer to the
request that is made about the forwarder. -/
def Forwarder.generateFrom (v : Value) (collection : Option Value)
    (request : Forwarder → Option Request) : Option (Generation (List Resource)) := do
  let o ← ApiObject.ofValue? v
  let other ← collection.mapM ApiObject.ofValue?
  return do
    let (p, c) ← Generation.ofExcept (o.parseInputs other)
    Forwarder.generate p c (request p)

/-- Generation for the collection that a value is. -/
def Collection.generateFrom (v : Value) (request : Collection → Option Request) :
    Option (Generation (List Resource)) := do
  let o ← ApiObject.ofValue? v
  return do
    let c ← Generation.ofExcept (o.parse CollectionSpec)
    Collection.generate c (request c)

/-- Generation for a forwarder, once it and its collection are loaded. -/
def Forwarder.generateLoaded (forwarder : Except GenerationError Forwarder)
    (collection : Option (Except GenerationError Collection))
    (request : Forwarder → Option Request) : Generation (List Resource) := do
  let p ← Generation.ofExcept forwarder
  match collection with
  | none => Forwarder.generate p none (request p)
  | some loaded =>
    let c ← Generation.ofExcept loaded
    Forwarder.generate p (some c) (request p)

theorem Generation.ofExcept_bind {α β : Type} (x : Except GenerationError α)
    (f : α → Except GenerationError β) :
    ofExcept (x >>= f) = ofExcept x >>= fun a => ofExcept (f a) := by
  cases x <;> rfl

theorem Generation.ofExcept_pure {α : Type} (a : α) : ofExcept (pure a) = pure a := rfl

theorem Forwarder.generate_parseInputs (o : ApiObject) (other : Option ApiObject)
    (request : Forwarder → Option Request) :
    (do
      let (p, c) ← Generation.ofExcept (o.parseInputs other)
      Forwarder.generate p c (request p)) =
      generateLoaded (o.parse ForwarderSpec) (other.map (·.parse CollectionSpec)) request := by
  unfold ApiObject.parseInputs generateLoaded
  cases other with
  | none =>
    simp only [Generation.ofExcept_bind, Generation.ofExcept_pure, bind_assoc, pure_bind]
    rfl
  | some _ =>
    simp only [Generation.ofExcept_bind, Generation.ofExcept_pure, bind_assoc, pure_bind]
    rfl

/-- Generation for a forwarder hangs on what it and its collection load as. -/
theorem Forwarder.generateFrom_eq (v : Value) (collection : Option Value)
    (request : Forwarder → Option Request) :
    generateFrom v collection request = do
      let p ← Workload.load ForwarderSpec v
      let c ← collection.mapM (Workload.load CollectionSpec)
      return generateLoaded p c request := by
  unfold generateFrom Workload.load
  simp only [generate_parseInputs]
  cases ApiObject.ofValue? v with
  | none => rfl
  | some o =>
    cases collection with
    | none => rfl
    | some u =>
      cases hu : ApiObject.ofValue? u with
      | none => simp [hu]
      | some other => simp [hu]

theorem Forwarder.generateFrom_of_extends {v w : Value} {collection other : Option Value}
    (h : Workload.Extends ForwarderSpec v w)
    (hcollection : Option.Rel (Workload.Extends CollectionSpec) collection other)
    (request : Forwarder → Option Request) :
    generateFrom w other request = generateFrom v collection request := by
  have hother : other.mapM (Workload.load CollectionSpec) =
      collection.mapM (Workload.load CollectionSpec) := by
    cases hcollection with
    | none => rfl
    | some h => simp [Workload.load_of_extends h]
  rw [generateFrom_eq, generateFrom_eq, Workload.load_of_extends h, hother]

/-- Generation for a collection hangs on what it loads as. -/
theorem Collection.generateFrom_eq (v : Value) (request : Collection → Option Request) :
    generateFrom v request = (Workload.load CollectionSpec v).map fun loaded =>
      Generation.ofExcept loaded >>= fun c => Collection.generate c (request c) := by
  unfold generateFrom Workload.load
  cases ApiObject.ofValue? v <;> rfl

/-- **Unknown members change nothing.** Objects of both kinds load as they did with any members
added to them, anywhere, whose names are known nowhere, or are refused as they were; so the same is
found wrong with them, and the same is generated. -/
theorem unknown_members_change_nothing :
    (∀ v w, Workload.Extends ForwarderSpec v w →
      Workload.load ForwarderSpec w = Workload.load ForwarderSpec v ∧
        Forwarder.verdict w = Forwarder.verdict v ∧
        ∀ collection other request,
          Option.Rel (Workload.Extends CollectionSpec) collection other →
            Forwarder.generateFrom w other request =
              Forwarder.generateFrom v collection request) ∧
      ∀ v w, Workload.Extends CollectionSpec v w →
        Workload.load CollectionSpec w = Workload.load CollectionSpec v ∧
          Collection.verdict w = Collection.verdict v ∧
          ∀ request, Collection.generateFrom w request = Collection.generateFrom v request := by
  refine ⟨fun v w h => ?_, fun v w h => ?_⟩
  · have hload := Workload.load_of_extends h
    refine ⟨hload, ?_, fun _ _ request hcollection => ?_⟩
    · unfold Forwarder.verdict
      rw [hload]
    · exact Forwarder.generateFrom_of_extends h hcollection request
  · have hload := Workload.load_of_extends h
    refine ⟨hload, ?_, fun request => ?_⟩
    · unfold Collection.verdict
      rw [hload]
    · rw [Collection.generateFrom_eq, Collection.generateFrom_eq, hload]

/-- Members that are added at four places of a forwarder, with names that are known elsewhere, hide
neither which cluster it names nor that it names none. -/
theorem unknown_members_change_nothing_nested :
    let object (ocm root metadata extra condition : Members) : Value :=
      .map <|
        [ ("apiVersion", .str "v9"), ("kind", .str "OCMLogForwarder"),
          ("metadata", .map ([("name", .str "sample")] ++ metadata)),
          ("spec", .map [("ocm", .map (ocm ++ extra))]),
          ("status", .map [("conditions", .list
            [.map ([("phase", .str "Apply"), ("state", .str "Done")] ++ condition)])]) ] ++ root
    let extended (ocm : Members) : Value :=
      object ocm [("ocm", .null)] [("clusterId", .int 1)] [("name", .str "id")]
        [("status", .map [("phase", .list [])])]
    (∃ p : Forwarder, p.spec.ocm.clusterId = "id" ∧
      Workload.load ForwarderSpec (extended [("clusterId", .str "id")]) = some (.ok p)) ∧
      Workload.load ForwarderSpec (extended []) =
        some (.error (.unfit "OCMLogForwarder" ⟨"", "sample", "OCMLogForwarder"⟩
          (.missing "clusterId"))) := by
  intro object extended
  have hextends : ∀ ocm, Workload.Extends ForwarderSpec (object ocm [] [] [] []) (extended ocm) := by
    intro ocm
    have hroot : Workload.Adds ForwarderSpec (object ocm [] [] [] [])
        (object ocm [("ocm", .null)] [] [] []) :=
      .here _ [] "ocm" .null (by decide) (by decide)
    have hmetadata : Workload.Adds ForwarderSpec (object ocm [("ocm", .null)] [] [] [])
        (object ocm [("ocm", .null)] [("clusterId", .int 1)] [] []) :=
      .member [_, _] [_, _, _] (.tail _ (.tail _ (.head _)))
        (.here _ [] "clusterId" (.int 1) (by decide) (by decide))
    have hocm : Workload.Adds ForwarderSpec
        (object ocm [("ocm", .null)] [("clusterId", .int 1)] [] [])
        (object ocm [("ocm", .null)] [("clusterId", .int 1)] [("name", .str "id")] []) :=
      .member [_, _, _] [_, _] (.tail _ (.tail _ (.tail _ (.head _))))
        (.member [] [] (.tail _ (.tail _ (.head _)))
          (.here ocm [] "name" (.str "id") (by decide) (by decide)))
    have hcondition : Workload.Adds ForwarderSpec
        (object ocm [("ocm", .null)] [("clusterId", .int 1)] [("name", .str "id")] [])
        (extended ocm) :=
      .member [_, _, _, _] [_] (.tail _ (.tail _ (.tail _ (.tail _ (.head _)))))
        (.member [] [] (.tail _ (.tail _ (.head _)))
          (.item [] [] (.here _ [] "status" _ (by decide) (by decide))))
    exact (((Relation.ReflTransGen.single hroot).tail hmetadata).tail hocm).tail hcondition
  have hload : ∀ ocm, Workload.load ForwarderSpec (extended ocm) =
      Workload.load ForwarderSpec (object ocm [] [] [] []) :=
    fun ocm => (unknown_members_change_nothing.1 _ _ (hextends ocm)).1
  rw [hload, hload]
  exact ⟨⟨_, rfl, rfl⟩, rfl⟩

end LogForwarder
