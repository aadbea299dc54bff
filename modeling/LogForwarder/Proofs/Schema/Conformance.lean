import LogForwarder.Proofs.Value.Path
import LogForwarder.Workload.Definition
import Mathlib.Algebra.Order.Ring.Rat

/-!
# Conformance

What the cluster makes of a schema that it is told, and what values get past it.

1. A value conforms to a schema if everything that the keywords of the schema ask of it holds
   (`conforms`). A keyword that is not known asks for what no value has.
2. A value obeys a schema of the library if it is of the right type throughout, with no required
   member missing, and its members are as they are annotated (`Obeys`). Of a member that may be
   given as `null` the cluster takes that too (`StandsForNone`).
3. What obeys a schema conforms to what the cluster is told of it (`conforms_describe`).
-/

namespace LogForwarder

/-! ## Numbers -/

/-- The exact value of a finite number. -/
def Binary64.toRat (x : Binary64) : Rat :=
  let magnitude := mkRat (x.significand <<< x.scale.toNat) (1 <<< (-x.scale).toNat)
  if x.isNegative then -magnitude else magnitude

/-- The number that a value is. -/
def Value.number? : Value → Option Rat
  | .int n => some n
  | .float x => if x.isFinite then some x.toRat else none
  | _ => none

namespace OpenApi

/-! ## Keywords -/

/-- Whether a value is of a type by its name. Where it may be `null`, that is of every type. -/
def isOfType (nullable : Bool) : Value → Value → Bool
  | _, .null => nullable
  | .str "string", .str _ | .str "boolean", .bool _ | .str "integer", .int _
  | .str "array", .list _ | .str "object", .map _ => true
  | _, _ => false

/-- Whether a value, if it is an integer, is of a format by its name. -/
def isOfFormat : Value → Value → Bool
  | .str "uint32", .int n => IntegerKind.unsigned32.holds n
  | .str "int32", .int n => IntegerKind.signed32.holds n
  | .str "int64", .int n => IntegerKind.signed64.holds n
  | _, .int _ => false
  | _, _ => true

/-- Whether a value is one of those allowed. -/
def isAllowed (allowed v : Value) : Bool := (allowed.items?.getD []).contains v

/-- Whether a value, if it is a map, has all members by their names. -/
def hasRequired (required : Value) : Value → Bool
  | .map ms => (required.items?.getD []).all fun name => (Members.get? ms name.asText).isSome
  | _ => true

/-- Whether a value, if it is a number, is at least a bound. -/
def isAtLeast (bound v : Value) : Bool :=
  match bound.number?, v.number? with
  | some low, some x => decide (low ≤ x)
  | none, some _ => false
  | _, none => true

/-- Whether a value, if it is a number, is at most a bound. -/
def isAtMost (bound v : Value) : Bool :=
  match bound.number?, v.number? with
  | some high, some x => decide (x ≤ high)
  | none, some _ => false
  | _, none => true

/-- Whether a value, if it is a text, has at most so many characters. -/
def isNotLonger : Value → Value → Bool
  | .int n, .str s => decide ((s.length : Int) ≤ n)
  | _, .str _ => false
  | _, _ => true

/-- Whether what a keyword asks of a value holds. Some keywords only say something about a
schema, and of those that are not known no value is good enough. -/
def holds (nullable : Bool) (keyword : String) (argument v : Value) : Bool :=
  match keyword with
  | "type" => isOfType nullable argument v
  | "format" => isOfFormat argument v
  | "enum" => isAllowed argument v
  | "required" => hasRequired argument v
  | "minimum" => isAtLeast argument v
  | "maximum" => isAtMost argument v
  | "maxLength" => isNotLonger argument v
  | "title" | "description" | "default" | "nullable" => true
  | _ => false

/-! ## Schemas -/

/-- Whether a schema lets `null` through. -/
def isNullable (keywords : Members) : Bool := Members.get? keywords "nullable" = some (.bool true)

/-- Whether a schema names a member. -/
def isNamed (keywords : Members) (key : String) : Bool :=
  ((Value.map keywords).get? ["properties", key]).isSome

mutual

/-- Whether a value conforms to a schema. -/
def conforms : Value → Value → Bool
  | .map keywords, v => conformsToAll keywords keywords v
  | _, _ => false

/-- Whether a value conforms to some of the keywords of a schema. -/
def conformsToAll (schema : Members) : List (String × Value) → Value → Bool
  | [], _ => true
  | k :: keywords, v => conformsTo schema k v && conformsToAll schema keywords v

/-- Whether a value conforms to one of the keywords of a schema. -/
def conformsTo (schema : Members) : String × Value → Value → Bool
  | (keyword, argument), v =>
    match keyword with
    | "properties" =>
      match argument with
      | .map properties => membersConform properties v
      | _ => false
    | "additionalProperties" =>
      (v.members?.getD []).all fun m => isNamed schema m.1 || conforms argument m.2
    | "items" => (v.items?.getD []).all fun x => conforms argument x
    | _ => holds (isNullable schema) keyword argument v

/-- Whether each member that some schemas are for conforms to the one that is for it. -/
def membersConform : List (String × Value) → Value → Bool
  | [], _ => true
  | (name, schema) :: properties, v =>
    ((v.get? [name]).all fun x => conforms schema x) && membersConform properties v

end

/-! ## Keywords one by one -/

variable {schema : Members} {keyword : String} {argument v w : Value}

theorem conformsToAll_iff {keywords : List (String × Value)} :
    conformsToAll schema keywords v ↔ ∀ k ∈ keywords, conformsTo schema k v := by
  induction keywords with
  | nil => simp [conformsToAll]
  | cons k keywords ih => rw [conformsToAll, Bool.and_eq_true, ih, List.forall_mem_cons]

theorem membersConform_iff {properties : List (String × Value)} :
    membersConform properties v ↔
      ∀ p ∈ properties, ∀ x, v.get? [p.1] = some x → conforms p.2 x := by
  induction properties with
  | nil => simp [membersConform]
  | cons p properties ih =>
    rw [membersConform, Bool.and_eq_true, ih, List.forall_mem_cons, Option.all_eq_true]

theorem isOfType_iff {nullable : Bool} {type : Value} :
    isOfType nullable type v ↔ (v = .null ∧ nullable) ∨ isOfType false type v := by
  unfold isOfType
  split <;> simp_all

/-- Whether a value has what keywords ask for, whatever schema they are part of, as long as it is
one that lets the value through if that is `null`. -/
def Meets (v : Value) (keywords : Members) : Prop :=
  ∀ schema, (v = .null → isNullable schema) → ∀ k ∈ keywords, conformsTo schema k v

theorem Meets.nil : Meets v [] := nofun

theorem Meets.append {ks ls : Members} (hk : Meets v ks) (hl : Meets v ls) :
    Meets v (ks ++ ls) := by
  intro schema hnull k h
  rcases List.mem_append.mp h with h | h
  · exact hk schema hnull k h
  · exact hl schema hnull k h

theorem meets_singleton : Meets v [(keyword, argument)] ↔
    ∀ schema, (v = .null → isNullable schema) → conformsTo schema (keyword, argument) v := by
  simp [Meets]

/-- Of keywords that are given twice, one remains. -/
theorem conforms_ofList {keywords : Members} (h : Meets v keywords)
    (hnull : v = .null → isNullable (Members.ofList keywords)) :
    conforms (.map (Members.ofList keywords)) v := by
  rw [conforms, conformsToAll_iff]
  exact fun k hk => h _ hnull k (Members.mem_of_mem_ofList hk)

/-- The keywords that speak of what is inside a value. -/
abbrev nestedKeywords : List String := ["properties", "additionalProperties", "items"]

theorem conformsTo_eq_holds (hnested : keyword ∉ nestedKeywords) :
    conformsTo schema (keyword, argument) v = holds (isNullable schema) keyword argument v := by
  simp only [List.mem_cons, List.not_mem_nil, or_false, not_or] at hnested
  unfold conformsTo
  split
  · exact absurd rfl hnested.1
  · exact absurd rfl hnested.2.1
  · exact absurd rfl hnested.2.2
  · rfl

theorem meets_holds (hnested : keyword ∉ nestedKeywords)
    (h : ∀ nullable, holds nullable keyword argument v) : Meets v [(keyword, argument)] := by
  refine meets_singleton.mpr fun schema _ => ?_
  rw [conformsTo_eq_holds hnested]
  exact h _

theorem meets_properties {properties : Members}
    (h : ∀ p ∈ properties, ∀ x, v.get? [p.1] = some x → conforms p.2 x) :
    Meets v [("properties", .map properties)] := by
  refine meets_singleton.mpr fun schema _ => ?_
  rw [conformsTo]
  exact membersConform_iff.mpr h

theorem meets_items (h : ∀ x ∈ v.items?.getD [], conforms argument x) :
    Meets v [("items", argument)] := by
  refine meets_singleton.mpr fun schema _ => ?_
  rw [conformsTo]
  exact List.all_eq_true.mpr h

theorem meets_additionalProperties (h : ∀ m ∈ v.members?.getD [], conforms argument m.2) :
    Meets v [("additionalProperties", argument)] := by
  refine meets_singleton.mpr fun schema _ => ?_
  rw [conformsTo]
  exact List.all_eq_true.mpr fun m hm => by rw [h m hm, Bool.or_true]

end OpenApi

namespace Schema

open OpenApi

/-! ## Values that obey -/

/-- Whether a value is as a member is annotated. -/
structure Allows (a : Annotations) (v : Value) : Prop where
  maxLength : ∀ n ∈ a.maxLength, ∀ s, v = .str s → s.length ≤ n
  bounds : ∀ b ∈ a.bounds, isAtLeast (bound b.1) v ∧ isAtMost (bound b.2) v
  listed : a.listed ≠ [] → ∃ s ∈ a.listed, v = .str s

/-- Whether only some texts fit a schema. -/
def listsTexts : Schema → Bool
  | .choice _ | .constant _ => true
  | _ => false

/-- Whether a value stands for a member that is not given. The cluster does not take `null` for one
of the texts that a schema lists. -/
def StandsForNone (m : MemberInfo × Schema) (v : Value) : Prop :=
  v = .null ∧ m.1.presence.acceptsNull = true ∧ m.2.listsTexts = false

instance (m : MemberInfo × Schema) (v : Value) : Decidable (StandsForNone m v) :=
  inferInstanceAs (Decidable (_ ∧ _ ∧ _))

theorem not_standsForNone {m : MemberInfo × Schema} (h : m.1.presence.acceptsNull = false)
    (v : Value) : ¬StandsForNone m v :=
  fun hnone => absurd (h.symm.trans hnone.2.1) Bool.false_ne_true

/-- Whether a value is of the right type throughout, with no required member missing and all
members as they are annotated. -/
inductive Obeys : Schema → Value → Prop where
  | text {s : String} : Obeys .text (.str s)
  | flag {b : Bool} : Obeys .flag (.bool b)
  | integer {kind : IntegerKind} {n : Int} (h : kind.holds n) : Obeys (.integer kind) (.int n)
  | choice {variants : List String} {s : String} (h : s ∈ variants) :
      Obeys (.choice variants) (.str s)
  | list {item : Schema} {xs : List Value} (h : ∀ x ∈ xs, Obeys item x) :
      Obeys (.list item) (.list xs)
  | dict {value : Schema} {ms : Members} (h : ∀ m ∈ ms, Obeys value m.2) :
      Obeys (.dict value) (.map ms)
  | quantity {s : String} : Obeys .quantity (.str s)
  | constant {s : String} : Obeys (.constant s) (.str s)
  | record {info : RecordInfo} {members : List (MemberInfo × Schema)} {ms : Members}
      (required : ∀ m ∈ members, m.1.presence = .required → (Members.get? ms m.1.name).isSome)
      (annotated : ∀ m ∈ members, ∀ x, Members.get? ms m.1.name = some x →
        Allows m.1.annotations x)
      (h : ∀ m ∈ members, ∀ x, Members.get? ms m.1.name = some x → ¬StandsForNone m x →
        Obeys m.2 x) :
      Obeys (.record info members) (.map ms)

theorem Obeys.ne_null {s : Schema} {v : Value} (h : Obeys s v) : v ≠ .null := by
  cases h <;> exact nofun

/-- Whether a member of a record is given as the schema wants it, or may be missing. -/
inductive ObeysMember (m : MemberInfo × Schema) : Option Value → Prop where
  | given {v : Value} (h : Obeys m.2 v) (ha : Allows m.1.annotations v) : ObeysMember m (some v)
  | null {v : Value} (h : StandsForNone m v) (ha : Allows m.1.annotations v) :
      ObeysMember m (some v)
  | missing (h : m.1.presence ≠ .required) : ObeysMember m none

theorem obeys_record_iff {info : RecordInfo} {members : List (MemberInfo × Schema)} {ms : Members} :
    Obeys (.record info members) (.map ms) ↔
      ∀ m ∈ members, ObeysMember m (Members.get? ms m.1.name) := by
  constructor
  · intro h m hm
    cases h with
    | record required annotated h =>
      cases hget : Members.get? ms m.1.name with
      | none =>
        refine .missing fun hrequired => ?_
        have hsome := required m hm hrequired
        rw [hget] at hsome
        cases hsome
      | some x =>
        have hallows := annotated m hm x hget
        by_cases hnone : StandsForNone m x
        · exact .null hnone hallows
        · exact .given (h m hm x hget hnone) hallows
  · intro h
    refine .record (fun m hm hrequired => ?_) (fun m hm x hx => ?_) fun m hm x hx hgiven => ?_
    · cases hget : Members.get? ms m.1.name with
      | some x => rfl
      | none =>
        have hmember := hget ▸ h m hm
        cases hmember with
        | missing hpresence => exact absurd hrequired hpresence
    · have hmember := hx ▸ h m hm
      cases hmember with
      | given _ hallows | null _ hallows => exact hallows
    · have hmember := hx ▸ h m hm
      cases hmember with
      | given hobeys _ => exact hobeys
      | null hnone _ => exact absurd hnone hgiven

section

variable {info : RecordInfo} {members : List (MemberInfo × Schema)} {m : MemberInfo × Schema}
  {v x : Value} (h : Obeys (.record info members) v) (hm : m ∈ members)

include h hm

/-- What is found below a member that takes no `null` is found in a value that obeys the schema of
the member. -/
theorem Obeys.member (hnull : m.1.presence.acceptsNull = false) {path : List String}
    (hx : v.get? (m.1.name :: path) = some x) :
    ∃ u, Allows m.1.annotations u ∧ Obeys m.2 u ∧ u.get? path = some x := by
  obtain ⟨ms, u, rfl, hget, hu⟩ := Value.get?_cons_eq_some hx
  have hmember := hget ▸ obeys_record_iff.mp h m hm
  cases hmember with
  | given hobeys hallows => exact ⟨u, hallows, hobeys, hu⟩
  | null hnone _ => exact absurd hnone (not_standsForNone hnull u)

theorem Obeys.given (hnull : m.1.presence.acceptsNull = false)
    (hx : v.get? [m.1.name] = some x) : Allows m.1.annotations x ∧ Obeys m.2 x := by
  obtain ⟨u, hallows, hobeys, hu⟩ := h.member hm hnull hx
  rw [Value.get?_nil] at hu
  cases hu
  exact ⟨hallows, hobeys⟩

theorem Obeys.required (hrequired : m.1.presence = .required) :
    ∃ x, v.get? [m.1.name] = some x ∧ Obeys m.2 x := by
  have hnull : m.1.presence.acceptsNull = false := by rw [hrequired]; rfl
  cases h with
  | @record _ _ ms required annotated h =>
    obtain ⟨x, hx⟩ := Option.isSome_iff_exists.mp (required m hm hrequired)
    exact ⟨x, (Value.get?_singleton ms _).trans hx, h m hm x hx (not_standsForNone hnull x)⟩

end

/-- A description asks for nothing. -/
theorem allows_description (description : Option String) (v : Value) :
    Allows { description := description } v :=
  ⟨nofun, nofun, fun h => absurd rfl h⟩

/-! ## What the cluster is told -/

variable {s : Schema} {v : Value} {members : List (MemberInfo × Schema)}

/-- All that the cluster is told of a member. -/
def describeMember (m : MemberInfo × Schema) : Members :=
  m.2.describe ++ defaultOf m.1.presence ++ nullableOf m.1.presence ++ annotationsOf m.1.annotations

theorem describeMembers_eq_map (members : List (MemberInfo × Schema)) :
    describeMembers members =
      members.map fun m => (m.1.name, .map (Members.ofList (describeMember m))) := by
  induction members with
  | nil => rfl
  | cons m members ih =>
    obtain ⟨info, schema⟩ := m
    rw [describeMembers, ih]
    rfl

theorem meets_type {type : String} (h : v = .null ∨ isOfType false (.str type) v) :
    Meets v [("type", .str type)] := by
  refine meets_singleton.mpr fun schema hnull => ?_
  rw [conformsTo_eq_holds (by decide)]
  exact isOfType_iff.mpr (h.imp_left fun hv => ⟨hv, hnull hv⟩)

/-- What only says something about a schema asks nothing of a value. -/
theorem meets_note {keyword : String} {argument : Value}
    (h : keyword ∈ ["title", "description", "default", "nullable"]) :
    Meets v [(keyword, argument)] := by
  simp only [List.mem_cons, List.not_mem_nil, or_false] at h
  rcases h with rfl | rfl | rfl | rfl <;> exact meets_holds (by decide) fun _ => rfl

/-- A member of which nothing is said asks for nothing. -/
theorem meets_ofMember {α : Type} {keyword : String} {f : α → Value} {o : Option α}
    (h : ∀ a ∈ o, Meets v [(keyword, f a)]) : Meets v (Value.ofMember keyword f o) := by
  cases o with
  | none => exact .nil
  | some a => exact h a rfl

theorem meets_defaultOf (p : Presence) : Meets v (defaultOf p) := by
  cases p with
  | required | omittable | nullable => exact .nil
  | whenAbsent | whenAbsentOrNull => exact meets_note (by decide)

theorem meets_nullableOf (p : Presence) : Meets v (nullableOf p) := by
  unfold nullableOf
  split_ifs
  · exact meets_note (by decide)
  · exact .nil

theorem meets_enum {texts : List String} {t : String} (h : t ∈ texts) :
    Meets (.str t) [("enum", Value.ofList .str texts)] :=
  meets_holds (by decide) fun _ => List.contains_iff_mem.mpr (List.mem_map_of_mem h)

theorem isNotLonger_of_forall {n : Nat} (h : ∀ t, v = .str t → t.length ≤ n) :
    isNotLonger (.int n) v := by
  cases v with
  | str t => exact decide_eq_true (Int.ofNat_le.mpr (h t rfl))
  | _ => rfl

theorem meets_annotationsOf {a : Annotations} (h : Allows a v) : Meets v (annotationsOf a) := by
  unfold annotationsOf
  refine (((Meets.append ?_ ?_).append ?_).append ?_).append ?_
  · exact meets_ofMember fun _ _ => meets_note (by decide)
  · exact meets_ofMember fun n hn =>
      meets_holds (by decide) fun _ => isNotLonger_of_forall (h.maxLength n hn)
  · refine meets_ofMember fun low hlow => ?_
    obtain ⟨b, hb, rfl⟩ := Option.map_eq_some_iff.mp hlow
    exact meets_holds (by decide) fun _ => (h.bounds b hb).1
  · refine meets_ofMember fun high hhigh => ?_
    obtain ⟨b, hb, rfl⟩ := Option.map_eq_some_iff.mp hhigh
    exact meets_holds (by decide) fun _ => (h.bounds b hb).2
  · split_ifs with hempty
    · exact .nil
    · obtain ⟨t, ht, rfl⟩ := h.listed fun hnil => hempty (by rw [hnil]; rfl)
      exact meets_enum ht

theorem meets_requiredOf {infos : List MemberInfo} {ms : Members}
    (h : ∀ info ∈ infos, info.presence = .required → (Members.get? ms info.name).isSome) :
    Meets (.map ms) (requiredOf infos) := by
  dsimp only [requiredOf]
  split_ifs
  · exact .nil
  · refine meets_holds (by decide) fun _ => List.all_eq_true.mpr fun x hx => ?_
    obtain ⟨name, hname, rfl⟩ := List.mem_map.mp hx
    obtain ⟨info, hinfo, rfl⟩ := List.mem_map.mp (List.mem_mergeSort.mp hname)
    obtain ⟨hmem, hrequired⟩ := List.mem_filter.mp hinfo
    exact h info hmem (of_decide_eq_true hrequired)

theorem isOfFormat_formatOf (kind : IntegerKind) (n : Int) :
    isOfFormat (.str (formatOf kind)) (.int n) = kind.holds n := by
  cases kind <;> rfl

/-! ## Keywords of a description -/

theorem keys_ofMember_sublist {α : Type} (keyword : String) (f : α → Value) (o : Option α) :
    (Value.ofMember keyword f o).keys.Sublist [keyword] := by
  cases o with
  | none => exact List.nil_sublist _
  | some a => exact .refl _

theorem keys_describe_record_sublist (info : RecordInfo) (members : List (MemberInfo × Schema)) :
    (Schema.record info members).describe.keys.Sublist
      ["type", "description", "properties", "required"] := by
  have hrequired : (requiredOf (members.map (·.1))).keys.Sublist ["required"] := by
    dsimp only [requiredOf]
    split_ifs
    · exact List.nil_sublist _
    · exact .refl _
  unfold describe Members.keys
  simp only [List.map_append]
  exact (((List.Sublist.refl ["type"]).append
    (keys_ofMember_sublist "description" Value.str info.description)).append
    (.refl ["properties"])).append hrequired

/-- The keywords of the description of a schema. Each stands there at most once. -/
theorem keys_describe_sublist (s : Schema) : s.describe.keys.Sublist
    ["type", "format", "enum", "items", "additionalProperties", "description", "properties",
      "required"] := by
  cases s with
  | record info members => exact (keys_describe_record_sublist info members).trans (by decide)
  | _ => exact List.isSublist_iff_sublist.mp rfl

theorem keys_defaultOf_sublist (p : Presence) : (defaultOf p).keys.Sublist ["default"] := by
  cases p <;> exact List.isSublist_iff_sublist.mp rfl

theorem keys_nullableOf_sublist (p : Presence) : (nullableOf p).keys.Sublist ["nullable"] := by
  unfold nullableOf
  split_ifs
  · exact .refl _
  · exact List.nil_sublist _

/-- The keywords of annotations. Each stands there at most once. -/
theorem keys_annotationsOf_sublist (a : Annotations) : (annotationsOf a).keys.Sublist
    (["description", "maxLength", "minimum", "maximum"] ++
      if a.listed.isEmpty then [] else ["enum"]) := by
  have hlisted : Members.keys (if a.listed.isEmpty then []
      else [("enum", Value.ofList .str a.listed)]) =
        if a.listed.isEmpty then [] else ["enum"] := by
    split_ifs <;> rfl
  unfold annotationsOf Members.keys
  simp only [List.map_append]
  exact ((((keys_ofMember_sublist _ _ _).append (keys_ofMember_sublist _ _ _)).append
    (keys_ofMember_sublist _ _ _)).append (keys_ofMember_sublist _ _ _)).append
      (hlisted ▸ .refl _)

/-- A schema by itself does not let `null` through. -/
theorem isNullable_describe (s : Schema) : isNullable (Members.ofList s.describe) = false := by
  have hmem : "nullable" ∉ s.describe.keys := fun h =>
    absurd ((keys_describe_sublist s).subset h) (by decide)
  unfold isNullable
  rw [Members.get?_ofList_of_not_mem hmem]
  rfl

/-- What the cluster is told of a member lets `null` through if reading it does. -/
theorem isNullable_describeMember (m : MemberInfo × Schema) :
    isNullable (Members.ofList (describeMember m)) = m.1.presence.acceptsNull := by
  have hannotations : "nullable" ∉ (annotationsOf m.1.annotations).keys := fun h =>
    absurd ((keys_annotationsOf_sublist _).subset h) (by split_ifs <;> decide)
  have hdefault : "nullable" ∉ (defaultOf m.1.presence).keys := fun h =>
    absurd ((keys_defaultOf_sublist _).subset h) (by decide)
  unfold isNullable describeMember
  rw [Members.get?_ofList_append_of_not_mem hannotations, Members.get?_ofList_append]
  cases hnull : m.1.presence.acceptsNull with
  | true =>
    unfold nullableOf
    rw [if_pos hnull]
    rfl
  | false =>
    unfold nullableOf
    rw [hnull, if_neg Bool.false_ne_true, Members.get?_ofList_append_of_not_mem hdefault]
    exact isNullable_describe m.2

/-! ## What obeys conforms -/

/-- What the cluster is told of a schema that lists no texts asks only for the right type of
`null`. -/
theorem meets_describe_null (h : s.listsTexts = false) : Meets .null s.describe := by
  have htype (type : String) : Meets .null [("type", .str type)] := meets_type (.inl rfl)
  cases s with
  | text | flag | quantity => exact htype _
  | integer kind =>
    have hformat : isOfFormat (.str (formatOf kind)) .null := by cases kind <;> rfl
    exact (htype _).append (meets_holds (by decide) fun _ => hformat)
  | choice variants | constant only => cases h
  | list item => exact (htype _).append (meets_items nofun)
  | dict value => exact (htype _).append (meets_additionalProperties nofun)
  | record info members =>
    have hrequired : Meets .null (requiredOf (members.map (·.1))) := by
      dsimp only [requiredOf]
      split_ifs
      · exact .nil
      · exact meets_holds (by decide) fun _ => rfl
    exact (((htype _).append (meets_ofMember fun _ _ => meets_note (by decide))).append
      (meets_properties nofun)).append hrequired

/-- A value that a member may be given as conforms to what the cluster is told of the member. -/
theorem conforms_describeMember {m : MemberInfo × Schema} (ha : Allows m.1.annotations v)
    (h : ¬StandsForNone m v → v ≠ .null ∧ Meets v m.2.describe) :
    conforms (.map (Members.ofList (describeMember m))) v := by
  have hmember (hdescribe : Meets v m.2.describe) : Meets v (describeMember m) :=
    ((hdescribe.append (meets_defaultOf _)).append (meets_nullableOf _)).append
      (meets_annotationsOf ha)
  by_cases hnone : StandsForNone m v
  · obtain ⟨rfl, haccepts, htexts⟩ := hnone
    exact conforms_ofList (hmember (meets_describe_null htexts)) fun _ =>
      (isNullable_describeMember m).trans haccepts
  · obtain ⟨hne, hdescribe⟩ := h hnone
    exact conforms_ofList (hmember hdescribe) fun hnull => absurd hnull hne

/-- What the cluster is told of a schema asks for nothing that a value which obeys it has not. -/
theorem meets_describe (h : Obeys s v) : Meets v s.describe := by
  induction h with
  | text | flag | quantity => exact meets_type (.inr rfl)
  | @integer kind n h =>
    have htype : Meets (.int n) [("type", .str "integer")] := meets_type (.inr rfl)
    exact htype.append (meets_holds (by decide) fun _ => (isOfFormat_formatOf kind n).trans h)
  | @choice variants t h =>
    have htype : Meets (.str t) [("type", .str "string")] := meets_type (.inr rfl)
    exact htype.append (meets_enum h)
  | @constant t =>
    have htype : Meets (.str t) [("type", .str "string")] := meets_type (.inr rfl)
    have henum : Meets (.str t) [("enum", Value.ofList .str [t])] := meets_enum List.mem_cons_self
    exact htype.append henum
  | @list item xs h ih =>
    have htype : Meets (.list xs) [("type", .str "array")] := meets_type (.inr rfl)
    exact htype.append (meets_items fun x hx =>
      conforms_ofList (ih x hx) fun hnull => absurd hnull (h x hx).ne_null)
  | @dict value ms h ih =>
    have htype : Meets (.map ms) [("type", .str "object")] := meets_type (.inr rfl)
    exact htype.append (meets_additionalProperties fun m hm =>
      conforms_ofList (ih m hm) fun hnull => absurd hnull (h m hm).ne_null)
  | @record info members ms required annotated h ih =>
    have htype : Meets (.map ms) [("type", .str "object")] := meets_type (.inr rfl)
    refine ((htype.append (meets_ofMember fun _ _ => meets_note (by decide))).append
      (meets_properties fun p hp x hx => ?_)).append
        (meets_requiredOf fun info hinfo hpresence => ?_)
    · have hp' := Members.mem_of_mem_ofList hp
      rw [describeMembers_eq_map] at hp'
      obtain ⟨m, hm, rfl⟩ := List.mem_map.mp hp'
      have hget : Members.get? ms m.1.name = some x := by simpa using hx
      exact conforms_describeMember (annotated m hm x hget) fun hgiven =>
        ⟨(h m hm x hget hgiven).ne_null, ih m hm x hget hgiven⟩
    · obtain ⟨m, hm, rfl⟩ := List.mem_map.mp hinfo
      exact required m hm hpresence

/-- **What obeys a schema conforms to what the cluster is told of it.** -/
theorem conforms_describe (h : Obeys s v) : conforms (.map (Members.ofList s.describe)) v :=
  conforms_ofList (meets_describe h) fun hnull => absurd hnull h.ne_null

end Schema

end LogForwarder
