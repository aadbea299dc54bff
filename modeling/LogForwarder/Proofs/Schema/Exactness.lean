import LogForwarder.Proofs.Schema.Canonical
import LogForwarder.Proofs.Schema.Conformance

/-!
# Exactness

What the cluster is told of a schema lets through what obeys the schema, and nothing else.

1. Where a keyword is given twice, one of the two is not told. In an unambiguous schema that never
   is one that asks for something, so all that its members ask for is told (`Unambiguous`,
   `tells_describeMember`).
2. What conforms to the description of a schema has what each of its keywords asks for. By
   induction on the schema it obeys (`obeys_of_tells`).
3. Hence a value conforms to what the cluster is told of an unambiguous schema if and only if it
   obeys it (`conforms_describe_iff`).
-/

namespace LogForwarder.Schema

open OpenApi

/-! ## Unambiguous schemas -/

/-- Whether the members of every record have distinct names, and none is annotated with a list of
texts beside one of its schema. -/
inductive Unambiguous : Schema → Prop where
  | text : Unambiguous .text
  | flag : Unambiguous .flag
  | integer {kind : IntegerKind} : Unambiguous (.integer kind)
  | choice {variants : List String} : Unambiguous (.choice variants)
  | quantity : Unambiguous .quantity
  | constant {only : String} : Unambiguous (.constant only)
  | list {item : Schema} (h : Unambiguous item) : Unambiguous (.list item)
  | dict {value : Schema} (h : Unambiguous value) : Unambiguous (.dict value)
  | record {info : RecordInfo} {members : List (MemberInfo × Schema)}
      (distinct : (names members).Nodup)
      (listed : ∀ m ∈ members, m.1.annotations.listed ≠ [] → m.2.listsTexts = false)
      (h : ∀ m ∈ members, Unambiguous m.2) : Unambiguous (.record info members)

/-- Whether keywords say all that the description of a schema asks for. -/
structure Tells (keywords : Members) (s : Schema) : Prop where
  asked : ∀ k ∈ s.describe, k.1 ≠ "description" → keywords.get? k.1 = some k.2
  properties : "properties" ∉ s.describe.keys → keywords.get? "properties" = none

theorem tells_describe (s : Schema) : Tells (Members.ofList s.describe) s where
  asked k hk _ := Members.get?_ofList_of_mem ((keys_describe_sublist s).nodup (by decide)) hk
  properties := Members.get?_ofList_of_not_mem

theorem enum_not_mem_keys_describe {s : Schema} (h : s.listsTexts = false) :
    "enum" ∉ s.describe.keys := by
  cases s with
  | record info members =>
    exact fun hmem => absurd ((keys_describe_record_sublist info members).subset hmem) (by decide)
  | choice variants | constant only => cases h
  | text | flag | quantity | integer kind | list item | dict value => simp [describe]

/-- No annotation of a member is told in place of what its schema asks for. -/
theorem not_mem_keys_annotationsOf {m : MemberInfo × Schema} {keyword : String}
    (hlisted : m.1.annotations.listed ≠ [] → m.2.listsTexts = false)
    (hmem : keyword ∈ m.2.describe.keys) (hne : keyword ≠ "description") :
    keyword ∉ (annotationsOf m.1.annotations).keys := by
  intro hannotated
  have hdescribe := (keys_describe_sublist m.2).subset hmem
  rcases List.mem_append.mp ((keys_annotationsOf_sublist _).subset hannotated) with h | h
  · simp only [List.mem_cons, List.not_mem_nil, or_false] at h
    rcases h with rfl | rfl | rfl | rfl
    · exact hne rfl
    all_goals exact absurd hdescribe (by decide)
  · split_ifs at h with hempty
    · exact List.not_mem_nil h
    · obtain rfl := List.mem_singleton.mp h
      exact enum_not_mem_keys_describe (hlisted fun hnil => hempty (by rw [hnil]; rfl)) hmem

theorem get?_describeMember {m : MemberInfo × Schema} {keyword : String}
    (hdefault : keyword ≠ "default") (hnullable : keyword ≠ "nullable")
    (hannotated : keyword ∉ (annotationsOf m.1.annotations).keys) :
    (Members.ofList (describeMember m)).get? keyword =
      (Members.ofList m.2.describe).get? keyword := by
  have hdefault' : keyword ∉ (defaultOf m.1.presence).keys := fun h =>
    hdefault (List.mem_singleton.mp ((keys_defaultOf_sublist _).subset h))
  have hnullable' : keyword ∉ (nullableOf m.1.presence).keys := fun h =>
    hnullable (List.mem_singleton.mp ((keys_nullableOf_sublist _).subset h))
  unfold describeMember
  rw [Members.get?_ofList_append_of_not_mem hannotated,
    Members.get?_ofList_append_of_not_mem hnullable',
    Members.get?_ofList_append_of_not_mem hdefault']

theorem tells_describeMember {m : MemberInfo × Schema}
    (hlisted : m.1.annotations.listed ≠ [] → m.2.listsTexts = false) :
    Tells (Members.ofList (describeMember m)) m.2 where
  asked k hk hne := by
    have hmem : k.1 ∈ m.2.describe.keys := List.mem_map_of_mem hk
    have hkeyword := (keys_describe_sublist m.2).subset hmem
    rw [get?_describeMember (fun h => absurd (h ▸ hkeyword) (by decide))
      (fun h => absurd (h ▸ hkeyword) (by decide)) (not_mem_keys_annotationsOf hlisted hmem hne)]
    exact (tells_describe m.2).asked k hk hne
  properties hmem := by
    have hannotated : "properties" ∉ (annotationsOf m.1.annotations).keys := fun h =>
      absurd ((keys_annotationsOf_sublist _).subset h) (by split_ifs <;> decide)
    rw [get?_describeMember (by decide) (by decide) hannotated]
    exact (tells_describe m.2).properties hmem

/-! ## What keywords ask for -/

variable {keywords : Members} {s : Schema} {m : MemberInfo × Schema} {keyword : String}
  {argument v : Value}

theorem conformsTo_of_conforms (ht : Tells keywords s) (h : conforms (.map keywords) v)
    (hk : (keyword, argument) ∈ s.describe) (hne : keyword ≠ "description") :
    conformsTo keywords (keyword, argument) v := by
  rw [conforms, conformsToAll_iff] at h
  exact h _ (Members.mem_of_get?_eq_some (ht.asked _ hk hne))

theorem holds_of_conforms (ht : Tells keywords s) (h : conforms (.map keywords) v)
    (hk : (keyword, argument) ∈ s.describe) (hne : keyword ≠ "description")
    (hnested : keyword ∉ nestedKeywords) : holds (isNullable keywords) keyword argument v := by
  rw [← conformsTo_eq_holds hnested]
  exact conformsTo_of_conforms ht h hk hne

theorem isOfType_of_conforms (ht : Tells keywords s) (hnull : isNullable keywords → v ≠ .null)
    (h : conforms (.map keywords) v) {type : String} (hk : ("type", .str type) ∈ s.describe) :
    isOfType false (.str type) v :=
  (isOfType_iff.mp (holds_of_conforms ht h hk (by decide) (by decide))).resolve_left
    fun hv => hnull hv.2 hv.1

theorem exists_text_of_isOfType (h : isOfType false (.str "string") v) : ∃ t, v = .str t := by
  cases v with
  | str t => exact ⟨t, rfl⟩
  | _ => cases h

theorem exists_map_of_isOfType (h : isOfType false (.str "object") v) : ∃ ms, v = .map ms := by
  cases v with
  | map ms => exact ⟨ms, rfl⟩
  | _ => cases h

theorem exists_text_of_isAllowed {texts : List String}
    (h : isAllowed (Value.ofList .str texts) v) : ∃ t ∈ texts, v = .str t := by
  obtain ⟨t, ht, rfl⟩ := List.mem_map.mp (List.contains_iff_mem.mp h)
  exact ⟨t, ht, rfl⟩

theorem holds_of_mem_annotationsOf (h : conforms (.map (Members.ofList (describeMember m))) v)
    (hk : (keyword, argument) ∈ annotationsOf m.1.annotations) :
    holds m.1.presence.acceptsNull keyword argument v := by
  have hkeys := keys_annotationsOf_sublist m.1.annotations
  have hget : (Members.ofList (describeMember m)).get? keyword = some argument := by
    unfold describeMember
    rw [Members.get?_ofList_append,
      Members.get?_ofList_of_mem (hkeys.nodup (by split_ifs <;> decide)) hk, Option.some_or]
  have hnested : keyword ∉ nestedKeywords := by
    intro hnested
    have hmem : keyword ∈ _ := hkeys.subset (List.mem_map_of_mem hk)
    simp only [List.mem_cons, List.not_mem_nil, or_false] at hnested
    rcases hnested with rfl | rfl | rfl <;> exact absurd hmem (by split_ifs <;> decide)
  rw [conforms, conformsToAll_iff] at h
  rw [← isNullable_describeMember, ← conformsTo_eq_holds hnested]
  exact h _ (Members.mem_of_get?_eq_some hget)

/-- What conforms to all that is told of a member is as the member is annotated. -/
theorem allows_of_conforms (h : conforms (.map (Members.ofList (describeMember m))) v) :
    Allows m.1.annotations v where
  maxLength n hn t ht := by
    have hk : ("maxLength", .int n) ∈ annotationsOf m.1.annotations := by
      simp [annotationsOf, Value.ofMember, Option.mem_def.mp hn]
    have hholds := holds_of_mem_annotationsOf h hk
    rw [ht] at hholds
    exact Int.ofNat_le.mp (of_decide_eq_true hholds)
  bounds b hb := by
    have hlow : ("minimum", bound b.1) ∈ annotationsOf m.1.annotations := by
      simp [annotationsOf, Value.ofMember, Option.mem_def.mp hb]
    have hhigh : ("maximum", bound b.2) ∈ annotationsOf m.1.annotations := by
      simp [annotationsOf, Value.ofMember, Option.mem_def.mp hb]
    exact ⟨holds_of_mem_annotationsOf h hlow, holds_of_mem_annotationsOf h hhigh⟩
  listed hlisted := by
    have hk : ("enum", Value.ofList .str m.1.annotations.listed) ∈
        annotationsOf m.1.annotations := by
      simp [annotationsOf, hlisted]
    exact exists_text_of_isAllowed (holds_of_mem_annotationsOf h hk)

theorem ne_null_of_isNullable_describe (s : Schema) :
    isNullable (Members.ofList s.describe) → v ≠ .null :=
  fun h => absurd h (Bool.eq_false_iff.mp (isNullable_describe s))

/-- A `null` that is let through stands for a member that is not given. -/
theorem ne_null_of_conforms (ht : Tells (Members.ofList (describeMember m)) m.2)
    (h : conforms (.map (Members.ofList (describeMember m))) v) (hgiven : ¬StandsForNone m v) :
    isNullable (Members.ofList (describeMember m)) → v ≠ .null := by
  rintro haccepts rfl
  rw [isNullable_describeMember] at haccepts
  refine hgiven ⟨rfl, haccepts, ?_⟩
  -- Of the schemas that list texts none lists `null`.
  have hlisted (texts : List String) : ("enum", Value.ofList .str texts) ∉ m.2.describe := by
    intro hk
    obtain ⟨t, -, ht⟩ :=
      exists_text_of_isAllowed (holds_of_conforms ht h hk (by decide) (by decide))
    cases ht
  obtain ⟨info, schema⟩ := m
  cases schema with
  | choice variants =>
    exact absurd (List.mem_cons_of_mem _ List.mem_cons_self) (hlisted variants)
  | constant only => exact absurd (List.mem_cons_of_mem _ List.mem_cons_self) (hlisted [only])
  | _ => rfl

/-! ## What is told of what is inside -/

theorem conforms_item {item : Schema} {xs : List Value} {x : Value}
    (ht : Tells keywords (.list item)) (h : conforms (.map keywords) (.list xs)) (hx : x ∈ xs) :
    conforms (.map (Members.ofList item.describe)) x := by
  have hitems : conformsTo keywords ("items", .map (Members.ofList item.describe)) (.list xs) :=
    conformsTo_of_conforms ht h (List.mem_cons_of_mem _ List.mem_cons_self) (by decide)
  rw [conformsTo] at hitems
  exact List.all_eq_true.mp hitems x hx

theorem conforms_value {value : Schema} {ms : Members} {n : String × Value}
    (ht : Tells keywords (.dict value)) (h : conforms (.map keywords) (.map ms)) (hn : n ∈ ms) :
    conforms (.map (Members.ofList value.describe)) n.2 := by
  have hvalues : conformsTo keywords
      ("additionalProperties", .map (Members.ofList value.describe)) (.map ms) :=
    conformsTo_of_conforms ht h (List.mem_cons_of_mem _ List.mem_cons_self) (by decide)
  rw [conformsTo] at hvalues
  have hnamed : isNamed keywords n.1 = false := by
    unfold isNamed
    rw [Value.get?_map_cons, ht.properties (by simp [describe])]
    rfl
  have hmember := List.all_eq_true.mp hvalues n hn
  rwa [hnamed, Bool.false_or] at hmember

section

variable {info : RecordInfo} {members : List (MemberInfo × Schema)} {ms : Members}
  (ht : Tells keywords (.record info members)) (h : conforms (.map keywords) (.map ms))
  (hm : m ∈ members)

include ht h hm

/-- With distinct names, all that is told of a member is there. -/
theorem conforms_member (distinct : (names members).Nodup) {x : Value}
    (hx : ms.get? m.1.name = some x) :
    conforms (.map (Members.ofList (describeMember m))) x := by
  have hproperties : conformsTo keywords
      ("properties", .map (Members.ofList (describeMembers members))) (.map ms) :=
    conformsTo_of_conforms ht h (by simp [describe]) (by decide)
  rw [conformsTo, describeMembers_eq_map] at hproperties
  have hget : (Members.ofList (members.map fun m =>
      (m.1.name, .map (Members.ofList (describeMember m))))).get? m.1.name =
        some (.map (Members.ofList (describeMember m))) := by
    refine Members.get?_ofList_of_mem ?_ (List.mem_map_of_mem hm)
    rwa [Members.keys, List.map_map]
  exact membersConform_iff.mp hproperties _ (Members.mem_of_get?_eq_some hget) x
    ((Value.get?_singleton ms _).trans hx)

theorem isSome_of_required (hrequired : m.1.presence = .required) :
    (ms.get? m.1.name).isSome := by
  have hmem : m.1.name ∈ ((members.map (·.1)).filter (·.presence = .required)).map (·.name) :=
    List.mem_map_of_mem
      (List.mem_filter.mpr ⟨List.mem_map_of_mem hm, decide_eq_true hrequired⟩)
  obtain ⟨required, hk, hname⟩ : ∃ required : List String,
      ("required", Value.ofList .str required) ∈ requiredOf (members.map (·.1)) ∧
        m.1.name ∈ required := by
    dsimp only [requiredOf]
    rw [if_neg fun hempty => List.not_mem_nil (List.isEmpty_iff.mp hempty ▸ hmem)]
    exact ⟨_, List.mem_singleton_self _, List.mem_mergeSort.mpr hmem⟩
  have hholds : hasRequired (Value.ofList .str required) (.map ms) :=
    holds_of_conforms ht h (List.mem_append_right _ hk) (by decide) (by decide)
  exact List.all_eq_true.mp hholds _ (List.mem_map_of_mem hname)

end

/-! ## Descriptions are exact -/

/-- What conforms to all that the description of an unambiguous schema asks for obeys the schema. -/
theorem obeys_of_tells (hs : s.Unambiguous) (ht : Tells keywords s)
    (hnull : isNullable keywords → v ≠ .null) (h : conforms (.map keywords) v) : Obeys s v := by
  -- Below a member more is told than the description, so the keywords vary in the induction.
  induction hs generalizing keywords v with
  | text | quantity =>
    obtain ⟨t, rfl⟩ := exists_text_of_isOfType
      (isOfType_of_conforms ht hnull h List.mem_cons_self)
    constructor
  | flag =>
    have htype : isOfType false (.str "boolean") v :=
      isOfType_of_conforms ht hnull h List.mem_cons_self
    cases v with
    | bool b => exact .flag
    | _ => cases htype
  | @integer kind =>
    have htype : isOfType false (.str "integer") v :=
      isOfType_of_conforms ht hnull h List.mem_cons_self
    have hformat : isOfFormat (.str (formatOf kind)) v :=
      holds_of_conforms ht h (List.mem_cons_of_mem _ List.mem_cons_self) (by decide) (by decide)
    cases v with
    | int n => exact .integer ((isOfFormat_formatOf kind n).symm.trans hformat)
    | _ => cases htype
  | @choice variants =>
    obtain ⟨t, hmem, rfl⟩ := exists_text_of_isAllowed
      (holds_of_conforms ht h (List.mem_cons_of_mem _ List.mem_cons_self) (by decide) (by decide))
    exact .choice hmem
  | @constant only =>
    have hallowed : isAllowed (Value.ofList .str [only]) v :=
      holds_of_conforms ht h (List.mem_cons_of_mem _ List.mem_cons_self) (by decide) (by decide)
    obtain ⟨t, hmem, rfl⟩ := exists_text_of_isAllowed hallowed
    obtain rfl := List.mem_singleton.mp hmem
    exact .constant
  | @list item _ ih =>
    have htype : isOfType false (.str "array") v :=
      isOfType_of_conforms ht hnull h List.mem_cons_self
    cases v with
    | list xs =>
      exact .list fun x hx => ih (tells_describe item) (ne_null_of_isNullable_describe item)
        (conforms_item ht h hx)
    | _ => cases htype
  | @dict value _ ih =>
    obtain ⟨ms, rfl⟩ := exists_map_of_isOfType
      (isOfType_of_conforms ht hnull h List.mem_cons_self)
    exact .dict fun n hn => ih (tells_describe value) (ne_null_of_isNullable_describe value)
      (conforms_value ht h hn)
  | @record info members distinct listed _ ih =>
    obtain ⟨ms, rfl⟩ := exists_map_of_isOfType
      (isOfType_of_conforms ht hnull h (by simp [describe]))
    refine .record (fun m hm => isSome_of_required ht h hm)
      (fun m hm x hx => allows_of_conforms (conforms_member ht h hm distinct hx))
      fun m hm x hx hgiven => ?_
    have htells := tells_describeMember (listed m hm)
    have hmember := conforms_member ht h hm distinct hx
    exact ih m hm htells (ne_null_of_conforms htells hmember hgiven) hmember

/-- **Descriptions are exact.** A value conforms to what the cluster is told of an unambiguous
schema if and only if it obeys the schema. -/
theorem conforms_describe_iff (hs : s.Unambiguous) :
    conforms (.map (Members.ofList s.describe)) v ↔ Obeys s v :=
  ⟨obeys_of_tells hs (tells_describe s) (ne_null_of_isNullable_describe s), conforms_describe⟩

end LogForwarder.Schema
