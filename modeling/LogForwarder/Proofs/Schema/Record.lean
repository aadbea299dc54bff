import LogForwarder.Proofs.Schema.ReadBack

/-!
# Reading records by look-up

What a record reads as hangs on the look-ups of its members.

1. `Reads` says what a member comes out as that is given so, or not given at all.
2. A record is read exactly if every one of its members that is given fits, also one that is given
   again, and none is missed. What comes out are its members in the order of the schema
   (`ofValue_record_iff`).
3. A record with a member stored that fits is read with this member changed, and the same in every
   other respect (`ofValue_put`).
-/

namespace LogForwarder

/-- What stands for a member that is not given. A required one is missed. -/
def Presence.settled? : Presence → Option (Option Value)
  | required => none
  | whenAbsent default | whenAbsentOrNull default => some (some default)
  | omittable => some none
  | nullable => some (some .null)

namespace Schema

variable {members : List (MemberInfo × Schema)} {m : MemberInfo × Schema} {ms : Members}
  {given : GivenMembers} {info : RecordInfo}

/-! ## One member -/

/-- What a member comes out as that is given so, or not given. -/
inductive Reads (m : MemberInfo × Schema) : Option Value → Option Value → Prop
  | given {v w : Value} : m.2.ofValue v = .ok w → Reads m (some v) (some w)
  | null {out : Option Value} : m.1.presence.acceptsNull → m.1.presence.settled? = some out →
      Reads m (some .null) out
  | absent {out : Option Value} : m.1.presence.settled? = some out → Reads m none out

theorem reads_none_iff {out : Option Value} :
    Reads m none out ↔ m.1.presence.settled? = some out :=
  ⟨fun h => by cases h; assumption, .absent⟩

/-- What is no `null` is read by the schema of its member. -/
theorem reads_some_iff {v : Value} (hv : v ≠ .null) {out : Option Value} :
    Reads m (some v) out ↔ ∃ w, m.2.ofValue v = .ok w ∧ out = some w := by
  constructor
  · intro h
    cases h with
    | given hw => exact ⟨_, hw, rfl⟩
    | null => exact absurd rfl hv
  · rintro ⟨w, hw, rfl⟩
    exact .given hw

theorem memberOfValue_of_not_mem {key : String} {v : Value} :
    ∀ {members : List (MemberInfo × Schema)}, key ∉ names members →
      memberOfValue members key v = .ok none
  | [], _ => rfl
  | (info, schema) :: members, h => by
    have hne : info.name ≠ key := fun e => h (e ▸ List.mem_cons_self)
    rw [memberOfValue, if_neg hne]
    exact memberOfValue_of_not_mem fun hmem => h (List.mem_cons_of_mem _ hmem)

/-- Whether a member that is given so is taken for this: a value, or nothing for a `null`. -/
def Takes (m : MemberInfo × Schema) (v : Value) : Option Value → Prop
  | some w => m.2.ofValue v = .ok w
  | none => v = .null ∧ m.1.presence.acceptsNull

theorem memberOfValue_eq_ok_iff (hn : (names members).Nodup) (hm : m ∈ members) {v : Value}
    {taken : Option (String × Option Value)} :
    memberOfValue members m.1.name v = .ok taken ↔
      ∃ r, Takes m v r ∧ taken = some (m.1.name, r) := by
  rw [memberOfValue_of_mem hn hm]
  split_ifs with hnull
  · constructor
    · rintro ⟨⟩
      exact ⟨none, hnull, rfl⟩
    · rintro ⟨r | w, hr, rfl⟩
      · rfl
      · exact absurd (hnull.1 ▸ hr) (ofValue_null_ne_ok m.2 w)
  · rw [map_eq_ok]
    constructor
    · rintro ⟨w, hw, rfl⟩
      exact ⟨some w, hw, rfl⟩
    · rintro ⟨r | w, hr, rfl⟩
      · exact absurd hr hnull
      · exact ⟨w, hr, rfl⟩

/-- A member settles to what it reads as. -/
theorem settle_eq_ok_iff {o : Option Value}
    (h : Option.Rel (Takes m) o (given.lookup m.1.name)) {piece : Members} :
    m.1.settle given = .ok piece ↔
      ∃ out, Reads m o out ∧ piece = Value.ofMember m.1.name id out := by
  -- A member that is not there and one that is `null` are settled alike.
  have hnone : (given.lookup m.1.name).join = none → (m.1.settle given = .ok piece ↔
      ∃ out, m.1.presence.settled? = some out ∧ piece = Value.ofMember m.1.name id out) := by
    intro hl
    obtain ⟨⟨name, presence, annotations⟩, schema⟩ := m
    unfold MemberInfo.settle
    rcases Option.join_eq_none_iff.mp hl with hl | hl <;> rw [hl] <;>
      cases presence <;> simp [Presence.settled?, Value.ofMember, eq_comm]
  generalize hl : given.lookup m.1.name = l at h hnone
  cases h with
  | none =>
    rw [hnone rfl]
    simp only [reads_none_iff]
  | some ht =>
    rename_i v r
    cases r with
    | none =>
      obtain ⟨rfl, hnull⟩ := ht
      rw [hnone rfl]
      refine exists_congr fun out => and_congr_left fun _ => ⟨.null hnull, fun h => ?_⟩
      cases h with
      | given hw => exact absurd hw (ofValue_null_ne_ok m.2 _)
      | null _ h => exact h
    | some w =>
      have hv : v ≠ .null := by
        rintro rfl
        exact ofValue_null_ne_ok m.2 w ht
      have hsettle : m.1.settle given = .ok [(m.1.name, w)] := by
        unfold MemberInfo.settle
        rw [hl]
      rw [hsettle]
      constructor
      · rintro ⟨⟩
        exact ⟨some w, .given ht, rfl⟩
      · rintro ⟨out, hout, rfl⟩
        obtain ⟨w', hw', rfl⟩ := (reads_some_iff hv).mp hout
        cases ht.symm.trans hw'
        rfl

/-! ## All members -/

/-- The members of a record with these values, in the order of the schema. -/
def arranged (members : List (MemberInfo × Schema)) (o : String → Option Value) : Members :=
  members.flatMap fun m => Value.ofMember m.1.name id (o m.1.name)

theorem get?_arranged (o : String → Option Value) (key : String) :
    (arranged members o).get? key = if key ∈ names members then o key else none := by
  induction members with
  | nil => rfl
  | cons m members ih =>
    have hcons : arranged (m :: members) o =
        Value.ofMember m.1.name id (o m.1.name) ++ arranged members o := rfl
    rw [hcons, Members.get?_append, ih]
    by_cases hm : m.1.name = key
    · subst hm
      cases o m.1.name <;> simp [Value.ofMember]
    · have hfirst : Members.get? (Value.ofMember m.1.name id (o m.1.name)) key = none := by
        cases o m.1.name <;> simp [Value.ofMember, hm]
      have hmem : key ∈ names (m :: members) ↔ key ∈ names members := by simp [Ne.symm hm]
      rw [hfirst, Option.none_or]
      simp only [hmem]

theorem arranged_congr {o o' : String → Option Value} (h : ∀ key ∈ names members, o key = o' key) :
    arranged members o = arranged members o' := by
  refine List.flatMap_congr fun m hm => ?_
  rw [h m.1.name (List.mem_map_of_mem hm)]

theorem arranged_get?_arranged (o : String → Option Value) :
    arranged members (arranged members o).get? = arranged members o :=
  arranged_congr fun key hkey => by rw [get?_arranged, if_pos hkey]

/-- Members settle to what each of them reads as. -/
theorem settleMembers_eq_ok_iff {g : String → Option Value} :
    ∀ {members : List (MemberInfo × Schema)} {out : Members}, (names members).Nodup →
      (∀ m ∈ members, Option.Rel (Takes m) (g m.1.name) (given.lookup m.1.name)) →
      (settleMembers (members.map (·.1)) given = .ok out ↔
        ∃ o, (∀ m ∈ members, Reads m (g m.1.name) (o m.1.name)) ∧ out = arranged members o)
  | [], out, _, _ => by
    constructor
    · rintro ⟨⟩
      exact ⟨fun _ => none, nofun, rfl⟩
    · rintro ⟨_, _, rfl⟩
      rfl
  | m :: members, out, hn, hl => by
    obtain ⟨hm, hn⟩ := nodup_names_cons.mp hn
    obtain ⟨hfirst, hl⟩ := List.forall_mem_cons.mp hl
    constructor
    · intro h
      obtain ⟨piece, hpiece, h⟩ := bind_eq_ok.mp h
      obtain ⟨rest, hrest, h⟩ := bind_eq_ok.mp h
      cases h
      obtain ⟨first, hreads, rfl⟩ := (settle_eq_ok_iff hfirst).mp hpiece
      obtain ⟨o, ho, rfl⟩ := (settleMembers_eq_ok_iff hn hl).mp hrest
      let o' : String → Option Value := fun key => if key = m.1.name then first else o key
      have hother : ∀ key ∈ names members, o key = o' key := by
        intro key hkey
        have hne : key ≠ m.1.name := fun e => hm (e ▸ hkey)
        exact (if_neg hne).symm
      have hself : o' m.1.name = first := if_pos rfl
      refine ⟨o', List.forall_mem_cons.mpr ⟨hself.symm ▸ hreads, fun n hn => ?_⟩, ?_⟩
      · exact hother n.1.name (List.mem_map_of_mem hn) ▸ ho n hn
      · rw [arranged_congr hother, ← hself]
        rfl
    · rintro ⟨o, ho, rfl⟩
      have hsettle : ∀ n ∈ m :: members,
          n.1.settle given = .ok (Value.ofMember n.1.name id (o n.1.name)) := by
        intro n hmem
        have hrel : Option.Rel (Takes n) (g n.1.name) (given.lookup n.1.name) := by
          rcases List.mem_cons.mp hmem with rfl | hmem
          · exact hfirst
          · exact hl n hmem
        exact (settle_eq_ok_iff hrel).mpr ⟨_, ho n hmem, rfl⟩
      exact settleMembers_eq hsettle

/-! ## Records -/

/-- The members that are given of a record are those that it has, each as it is taken. -/
theorem rel_lookup_given (hn : (names members).Nodup) (hm : m ∈ members)
    (h : ms.filterMapM (fun n => memberOfValue members n.1 n.2) = .ok given) :
    Option.Rel (Takes m) (ms.get? m.1.name) (given.lookup m.1.name) := by
  induction ms generalizing given with
  | nil =>
    cases h
    exact .none
  | cons n ms ih =>
    obtain ⟨key, v⟩ := n
    rw [List.filterMapM_cons] at h
    obtain ⟨taken, htaken, h⟩ := bind_eq_ok.mp h
    rw [Members.get?_cons]
    by_cases hkey : key = m.1.name
    · subst hkey
      obtain ⟨r, hr, rfl⟩ := (memberOfValue_eq_ok_iff hn hm).mp htaken
      obtain ⟨rest, -, h⟩ := bind_eq_ok.mp h
      cases h
      simpa using Option.Rel.some hr
    · rw [if_neg hkey]
      -- What is taken for another member, or for none, is passed over.
      by_cases hmem : key ∈ names members
      · obtain ⟨m', hm', rfl⟩ := List.mem_map.mp hmem
        obtain ⟨r, -, rfl⟩ := (memberOfValue_eq_ok_iff hn hm').mp htaken
        obtain ⟨rest, hrest, h⟩ := bind_eq_ok.mp h
        cases h
        rw [List.lookup_cons, beq_false_of_ne (Ne.symm hkey)]
        exact ih hrest
      · rw [memberOfValue_of_not_mem hmem] at htaken
        cases htaken
        exact ih h

/-- Whether every member of a record that is given, also again, may be given so. -/
def Fits (members : List (MemberInfo × Schema)) (ms : Members) : Prop :=
  ∀ n ∈ ms, ∃ taken, memberOfValue members n.1 n.2 = .ok taken

/-- **Records are read by look-up.** -/
theorem ofValue_record_iff (hn : (names members).Nodup) {w : Value} :
    (Schema.record info members).ofValue (.map ms) = .ok w ↔
      Fits members ms ∧ ∃ o, (∀ m ∈ members, Reads m (ms.get? m.1.name) (o m.1.name)) ∧
        w = .map (arranged members o) := by
  rw [ofValue, bind_eq_ok]
  have hpass : Fits members ms ↔
      ∃ given, ms.filterMapM (fun n => memberOfValue members n.1 n.2) = .ok given :=
    exists_filterMapM_iff.symm
  constructor
  · rintro ⟨given, hgiven, h⟩
    obtain ⟨out, hout, h⟩ := bind_eq_ok.mp h
    obtain ⟨o, ho, rfl⟩ :=
      (settleMembers_eq_ok_iff hn fun m hm => rel_lookup_given hn hm hgiven).mp hout
    exact ⟨hpass.mpr ⟨given, hgiven⟩, o, ho, (pure_eq_ok.mp h).symm⟩
  · rintro ⟨hfits, o, ho, rfl⟩
    obtain ⟨given, hgiven⟩ := hpass.mp hfits
    have hout :=
      (settleMembers_eq_ok_iff hn fun m hm => rel_lookup_given hn hm hgiven).mpr ⟨o, ho, rfl⟩
    exact ⟨given, hgiven, bind_eq_ok.mpr ⟨_, hout, rfl⟩⟩

/-- What a record reads as holds what each of its members reads as. -/
theorem reads_of_ofValue (hn : (names members).Nodup) {w : Value}
    (h : (Schema.record info members).ofValue (.map ms) = .ok w) :
    ∃ out : Members, w = .map out ∧ arranged members out.get? = out ∧
      ∀ m ∈ members, Reads m (ms.get? m.1.name) (out.get? m.1.name) := by
  obtain ⟨-, o, ho, rfl⟩ := (ofValue_record_iff hn).mp h
  refine ⟨_, rfl, arranged_get?_arranged o, fun m hm => ?_⟩
  rw [get?_arranged, if_pos (List.mem_map_of_mem hm)]
  exact ho m hm

/-! ## One member changed -/

/-- The members of a record with another value for one of them. -/
def updated (members : List (MemberInfo × Schema)) (out : Members) (name : String) (z : Value) :
    Members :=
  arranged members fun key => if key = name then some z else out.get? key

section

variable {out : Members} {u z : Value} (hn : (names members).Nodup) (hm : m ∈ members)
  (h : (Schema.record info members).ofValue (.map ms) = .ok (.map out))
  (hu : m.2.ofValue u = .ok z)

include hn hm h hu

/-- A record with a member stored that fits reads as before but for this member. -/
theorem ofValue_put :
    (Schema.record info members).ofValue (.map (ms.put m.1.name u)) =
      .ok (.map (updated members out m.1.name z)) := by
  obtain ⟨hfits, -⟩ := (ofValue_record_iff hn).mp h
  obtain ⟨_, ⟨⟩, -, hreads⟩ := reads_of_ofValue hn h
  refine (ofValue_record_iff hn).mpr ⟨fun n hmem => ?_, _, fun m' hm' => ?_, rfl⟩
  · rcases Members.mem_of_mem_put hmem with rfl | hold
    · exact ⟨_, (memberOfValue_eq_ok_iff hn hm).mpr ⟨some z, hu, rfl⟩⟩
    · exact hfits n hold
  · by_cases hname : m'.1.name = m.1.name
    · obtain rfl := List.inj_on_of_nodup_map hn hm' hm hname
      rw [Members.get?_put_self, if_pos rfl]
      exact .given hu
    · rw [Members.get?_put_of_ne _ _ (Ne.symm hname), if_neg hname]
      exact hreads m' hm'

/-- What is stored changes nothing if it reads as the member did. -/
theorem ofValue_put_of_get? (hz : out.get? m.1.name = some z) :
    (Schema.record info members).ofValue (.map (ms.put m.1.name u)) = .ok (.map out) := by
  obtain ⟨_, ⟨⟩, harranged, -⟩ := reads_of_ofValue hn h
  have hsame : (fun key => if key = m.1.name then some z else out.get? key) = out.get? := by
    funext key
    split_ifs with hkey
    · rw [hkey, hz]
    · rfl
  rw [ofValue_put hn hm h hu, updated, hsame, harranged]

end

end Schema

end LogForwarder
