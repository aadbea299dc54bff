import LogForwarder.Value.Record
import LogForwarder.Proofs.Schema.ReadBack

/-!
# Writing what was read

A type is read from canonical values and written as values. It loses nothing when it writes every
canonical value that it was read from (`Restores`).

1. The readers and writers of texts, flags, integers, lists and maps do.
2. A record does when there is a part of it for each member of its schema, which writes what the
   record holds for the member (`restores_record`).
-/

namespace LogForwarder.Schema

/-- Whether canonical values are written as they were read. -/
def Restores {α : Type} (s : Schema) (read : Value → α) (write : α → Value) : Prop :=
  ∀ v, s.isCanonical v → write (read v) = v

/-! ## Values without members of their own -/

theorem restores_text : Restores .text Value.asText .str := by
  intro v h
  cases v <;> first | rfl | cases h

theorem restores_flag : Restores .flag Value.asFlag .bool := by
  intro v h
  cases v <;> first | rfl | cases h

theorem restores_integer (kind : IntegerKind) : Restores (.integer kind) Value.asInt .int := by
  intro v h
  cases v <;> first | rfl | cases h

theorem restores_unsigned32 :
    Restores (.integer .unsigned32) (fun v => UInt32.ofNat v.asInt.toNat)
      (fun n : UInt32 => .int n.toNat) := by
  intro v h
  cases v with
  | int n =>
    have hn : 0 ≤ n ∧ n < UInt32.size := by
      have h : IntegerKind.unsigned32.holds n := h
      simpa [IntegerKind.holds] using h
    have hsize : n.toNat < UInt32.size := by omega
    show Value.int ((UInt32.ofNat n.toNat).toNat : Nat) = .int n
    rw [UInt32.toNat_ofNat_of_lt' hsize, Int.toNat_of_nonneg hn.1]
  | _ => cases h

/-- A text that names one thing only may be read as that thing. -/
theorem restores_choice {α : Type} {name : String} {read : String → α} {write : α → String}
    (h : write (read name) = name) :
    Restores (.choice [name]) (fun v => read v.asText) (fun a => .str (write a)) := by
  intro v hv
  cases v with
  | str s =>
    rw [List.mem_singleton.mp (of_decide_eq_true hv)]
    exact congrArg Value.str h
  | _ => cases hv

section

variable {α : Type} {s : Schema} {read : Value → α} {write : α → Value} (h : Restores s read write)

include h

theorem Restores.list : Restores (.list s) (Value.asList read) (Value.ofList write) := by
  intro v hv
  cases v with
  | list xs =>
    have hxs : ∀ x ∈ xs, write (read x) = x := fun x hx => h x (List.all_eq_true.mp hv x hx)
    show Value.list ((xs.map read).map write) = .list xs
    rw [List.map_map]
    exact congrArg Value.list ((List.map_congr_left hxs).trans (List.map_id' xs))
  | _ => cases hv

theorem Restores.dict : Restores (.dict s) (Value.asDict read) (Value.ofDict write) := by
  intro v hv
  cases v with
  | map ms =>
    obtain ⟨_, hall⟩ := Bool.and_eq_true_iff.mp hv
    have hms : ∀ m ∈ ms, (m.1, write (read m.2)) = m := fun m hm =>
      Prod.ext rfl (h m.2 (List.all_eq_true.mp hall m hm))
    show Value.map ((ms.map fun m => (m.1, read m.2)).map fun m => (m.1, write m.2)) = .map ms
    rw [List.map_map]
    exact congrArg Value.map ((List.map_congr_left hms).trans (List.map_id' ms))
  | _ => cases hv

end

/-! ## Records -/

/-- Whether a part of a record writes what the record holds for a member. -/
def Writes (m : MemberInfo × Schema) (part : Value → Members) : Prop :=
  ∀ ms, IsPiece m (pieceOf ms m) → part (.map ms) = pieceOf ms m

theorem member_map (ms : Members) (name : String) :
    (Value.map ms).member name = (ms.get? name).getD .null := by
  unfold Value.member
  rw [Value.get?_map_cons]
  cases ms.get? name <;> simp

section

variable {α : Type} {s : Schema} {read : Value → α} {write : α → Value} {info : MemberInfo}
  {ms : Members}

/-- A member has content, or is `null` or not there as its presence allows. -/
theorem IsPiece.get?_cases (h : IsPiece (info, s) (pieceOf ms (info, s))) :
    (∃ v, ms.get? info.name = some v ∧ s.isCanonical v) ∨
      (ms.get? info.name = some .null ∧ info.presence = .nullable) ∨
        (ms.get? info.name = none ∧ info.presence = .omittable) := by
  unfold pieceOf at h
  cases hv : ms.get? info.name with
  | none =>
    rw [hv] at h
    cases h with
    | leftOut ho => exact .inr (.inr ⟨rfl, ho⟩)
  | some v =>
    rw [hv] at h
    cases h with
    | given hv => exact .inl ⟨v, rfl, hv⟩
    | null hn => exact .inr (.inl ⟨rfl, hn⟩)

/-- A member that is always given a value is written with what its value was read as. -/
theorem Restores.writes (h : Restores s read write)
    (hp : info.presence ∉ [.omittable, .nullable]) :
    Writes (info, s) (fun v => [(info.name, write (read (v.member info.name)))]) := by
  intro ms hpiece
  rcases hpiece.get?_cases with ⟨v, hv, hcanonical⟩ | ⟨_, hn⟩ | ⟨_, ho⟩
  · simp only [pieceOf, member_map, hv, Option.getD_some, h v hcanonical]
    rfl
  · simp [hn] at hp
  · simp [ho] at hp

/-- A member that may be left out is written if it has content. -/
theorem Restores.writes_omittable (h : Restores s read write)
    (ho : info.presence = .omittable) :
    Writes (info, s)
      (fun v => Value.ofMember info.name write ((v.member info.name).asOption read)) := by
  intro ms hpiece
  rcases hpiece.get?_cases with ⟨v, hv, hcanonical⟩ | ⟨_, hp⟩ | ⟨hv, _⟩
  · simp only [pieceOf, member_map, hv, Option.getD_some, Value.ofMember, h v hcanonical,
      asOption_of_ne_null read (ne_null_of_isCanonical hcanonical)]
    rfl
  · rw [ho] at hp; cases hp
  · simp only [pieceOf, member_map, hv]
    rfl

/-- A member that may be `null` is always written. -/
theorem Restores.writes_nullable (h : Restores s read write) (hn : info.presence = .nullable) :
    Writes (info, s)
      (fun v => [(info.name, Value.ofOption write ((v.member info.name).asOption read))]) := by
  intro ms hpiece
  rcases hpiece.get?_cases with ⟨v, hv, hcanonical⟩ | ⟨hv, _⟩ | ⟨_, hp⟩
  · simp only [pieceOf, member_map, hv, Option.getD_some, Value.ofOption, h v hcanonical,
      asOption_of_ne_null read (ne_null_of_isCanonical hcanonical)]
    rfl
  · simp only [pieceOf, member_map, hv]
    rfl
  · rw [hn] at hp; cases hp

end

theorem flatMap_writes {members : List (MemberInfo × Schema)} {parts : List (Value → Members)}
    (h : List.Forall₂ Writes members parts) {ms : Members}
    (hpieces : ∀ m ∈ members, IsPiece m (pieceOf ms m)) :
    parts.flatMap (fun part => part (.map ms)) = members.flatMap (pieceOf ms) := by
  induction h with
  | nil => rfl
  | cons hm _ ih =>
    obtain ⟨hpiece, hpieces⟩ := List.forall_mem_cons.mp hpieces
    rw [List.flatMap_cons, List.flatMap_cons, hm ms hpiece, ih hpieces]

/-- **Records lose nothing.** What has a part for each member of a record restores the record. -/
theorem restores_record {α : Type} {info : RecordInfo} {members : List (MemberInfo × Schema)}
    {parts : List (Value → Members)} {read : Value → α} {write : α → Value}
    (hn : (names members).Nodup) (h : List.Forall₂ Writes members parts)
    (hwrite : ∀ v, write (read v) = .map (parts.flatMap (· v))) :
    Restores (.record info members) read write := by
  intro v hv
  cases v with
  | map ms =>
    obtain ⟨hpieces, hms⟩ := pieces_of_areCanonical hn hv
    rw [hwrite, flatMap_writes h hpieces, ← hms]
  | _ => cases hv

end LogForwarder.Schema
