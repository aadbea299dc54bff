import LogForwarder.Proofs.Schema.Record
import LogForwarder.Proofs.Value.Record

/-!
# Places in records

How what stands at one place of nested records bears on how the whole of them is read.

1. A path of names leads to a place in a schema (`IsPlace`), where another schema may be put
   (`replaceAt`). The rest of the schema stays as it is.
2. Whatever schema is put there, the whole is read by putting what the place reads as into one and
   the same surroundings, if these can be read at all (`ReadsAround`).
3. So it is for a value that stands at a place of a map, with no other member of its name beside it
   (`Value.StandsAt`, `readsAround_ofValue`).
-/

namespace LogForwarder

/-! ## Surroundings -/

/-- What surrounds a member in a map. No member before it has its name. -/
structure Frame where
  before : Members
  name : String
  after : Members
  fresh : name ∉ before.keys

namespace Frame

variable {f : Frame} {v w : Value} {key : String}

/-- The members with a value for the one that is surrounded. -/
def members (f : Frame) (v : Value) : Members := f.before ++ (f.name, v) :: f.after

/-- The map with a value for the member. -/
def fill (f : Frame) (v : Value) : Value := .map (f.members v)

/-- What several frames make of a value, the outermost first. -/
def fillAll (fs : List Frame) (v : Value) : Value := fs.foldr fill v

theorem member_fill_self (f : Frame) (v : Value) : (f.fill v).member f.name = v := by
  rw [fill, members, Schema.member_map, Members.get?_append, Members.get?_eq_none_iff.mpr f.fresh,
    Members.get?_cons, if_pos rfl]
  rfl

theorem member_fill_of_ne (h : f.name ≠ key) : (f.fill v).member key = (f.fill w).member key := by
  rw [fill, fill, members, members, Schema.member_map, Schema.member_map,
    Members.get?_replace_of_ne h]

end Frame

namespace Schema

/-! ## Places -/

/-- Members with another schema for those of a name. -/
def withMember (members : List (MemberInfo × Schema)) (name : String) (s : Schema) :
    List (MemberInfo × Schema) :=
  members.map fun m => if m.1.name = name then (m.1, s) else m

/-- The schema with another one at a path of names through records. -/
def replaceAt : Schema → List String → Schema → Schema
  | _, [], new => new
  | .record info members, name :: path, new =>
    .record info (members.map fun m => if m.1.name = name then (m.1, m.2.replaceAt path new) else m)
  | s, _ :: _, _ => s

/-- Whether a path leads through records, to and past members that are never `null`. -/
inductive IsPlace : Schema → List String → Prop where
  | here {s : Schema} : IsPlace s []
  | member {info : RecordInfo} {members : List (MemberInfo × Schema)} {m : MemberInfo × Schema}
      {path : List String} (distinct : (names members).Nodup) (mem : m ∈ members)
      (solid : m.1.presence.acceptsNull = false) (rest : IsPlace m.2 path) :
      IsPlace (.record info members) (m.1.name :: path)

variable {info : RecordInfo} {members : List (MemberInfo × Schema)} {m : MemberInfo × Schema}
  {path : List String} {name key : String} {new : Schema}

theorem map_fst_withMember (members : List (MemberInfo × Schema)) (name : String) (s : Schema) :
    (withMember members name s).map (·.1) = members.map (·.1) := by
  unfold withMember
  rw [List.map_map]
  refine List.map_congr_left fun m _ => ?_
  show (if _ then _ else _ : MemberInfo × Schema).1 = m.1
  split_ifs <;> rfl

theorem names_eq (members : List (MemberInfo × Schema)) :
    names members = (members.map (·.1)).map (·.name) := by
  rw [List.map_map]
  rfl

theorem names_withMember (members : List (MemberInfo × Schema)) (name : String) (s : Schema) :
    names (withMember members name s) = names members := by
  rw [names_eq, map_fst_withMember, ← names_eq]

theorem mem_withMember (hm : m ∈ members) (s : Schema) :
    (m.1, s) ∈ withMember members m.1.name s :=
  List.mem_map.mpr ⟨m, hm, if_pos rfl⟩

theorem eq_of_name_eq (hn : (names members).Nodup) (hm : m ∈ members) {m' : MemberInfo × Schema}
    (hm' : m' ∈ members) (h : m'.1.name = m.1.name) : m' = m :=
  List.inj_on_of_nodup_map hn hm' hm h

theorem replaceAt_member (hn : (names members).Nodup) (hm : m ∈ members) :
    (Schema.record info members).replaceAt (m.1.name :: path) new =
      .record info (withMember members m.1.name (m.2.replaceAt path new)) := by
  rw [replaceAt, withMember]
  congr 1
  refine List.map_congr_left fun m' hm' => ?_
  split_ifs with h
  · rw [eq_of_name_eq hn hm hm' h]
  · rfl

theorem memberOfValue_withMember_of_ne (h : key ≠ name) (s : Schema) (v : Value) :
    memberOfValue (withMember members name s) key v = memberOfValue members key v := by
  induction members with
  | nil => rfl
  | cons m members ih =>
    obtain ⟨info, schema⟩ := m
    rw [withMember, List.map_cons, ← withMember]
    by_cases hinfo : info.name = name
    · have hne : info.name ≠ key := fun e => h (e.symm.trans hinfo)
      rw [if_pos hinfo, memberOfValue, memberOfValue, if_neg hne, if_neg hne, ih]
    · rw [if_neg hinfo, memberOfValue, memberOfValue, ih]

theorem memberOfValue_withMember_self (hn : (names members).Nodup) (hm : m ∈ members)
    (hsolid : m.1.presence.acceptsNull = false) (s : Schema) (v : Value)
    {taken : Option (String × Option Value)} :
    memberOfValue (withMember members m.1.name s) m.1.name v = .ok taken ↔
      ∃ y, s.ofValue v = .ok y ∧ taken = some (m.1.name, some y) := by
  have hn' : (names (withMember members m.1.name s)).Nodup := by rwa [names_withMember]
  have hread := memberOfValue_of_mem (m := (m.1, s)) (v := v) hn' (mem_withMember hm s)
  have hnull : ¬(v = .null ∧ m.1.presence.acceptsNull = true) := by
    rw [hsolid]
    exact fun h => absurd h.2 (by decide)
  rw [hread, if_neg hnull, map_eq_ok]
  exact exists_congr fun y => and_congr_right fun _ => eq_comm

/-! ## Members that are settled -/

theorem settle_congr {i : MemberInfo} {given given' : GivenMembers}
    (h : given.lookup i.name = given'.lookup i.name) : i.settle given = i.settle given' := by
  unfold MemberInfo.settle
  rw [h]

theorem settleMembers_congr {infos : List MemberInfo} {given given' : GivenMembers}
    (h : ∀ i ∈ infos, given.lookup i.name = given'.lookup i.name) :
    settleMembers infos given = settleMembers infos given' := by
  induction infos with
  | nil => rfl
  | cons i infos ih =>
    obtain ⟨hfirst, h⟩ := List.forall_mem_cons.mp h
    rw [settleMembers, settleMembers, settle_congr hfirst, ih h]

theorem keys_of_settle {i : MemberInfo} {given : GivenMembers} {piece : Members}
    (h : i.settle given = .ok piece) : piece.keys ⊆ [i.name] := by
  unfold MemberInfo.settle at h
  split at h <;> cases h <;> simp

/-- What was given of a record, with one member as something that may vary. -/
def around (before : GivenMembers) (name : String) (after : GivenMembers) (y : Value) :
    GivenMembers :=
  before ++ (name, some y) :: after

section

variable {before after : GivenMembers}

theorem lookup_eq_none_of_fresh (h : name ∉ before.map Prod.fst) : before.lookup name = none := by
  rw [List.lookup_eq_none_iff]
  intro p hp
  have hne : name ≠ p.1 := fun e => h (e ▸ List.mem_map_of_mem hp)
  simpa using hne

theorem lookup_around_self (h : name ∉ before.map Prod.fst) (y : Value) :
    (around before name after y).lookup name = some (some y) := by
  rw [around, List.lookup_append, lookup_eq_none_of_fresh h, List.lookup_cons_self]
  rfl

theorem lookup_around_of_ne (h : key ≠ name) (y z : Value) :
    (around before name after y).lookup key = (around before name after z).lookup key := by
  rw [around, around, List.lookup_append, List.lookup_append, List.lookup_cons, List.lookup_cons,
    beq_false_of_ne h]

/-- Whether the members of a record settle to the same surroundings of one of them, whatever it is
given as. -/
def SettlesAround (before : GivenMembers) (name : String) (after : GivenMembers)
    (infos : List MemberInfo) : Prop :=
  ∃ frame : Except Mismatch Frame, (∀ f, frame = .ok f → f.name = name) ∧
    ∀ y, settleMembers infos (around before name after y) = frame.map fun f => f.members y

variable {i : MemberInfo} {infos : List MemberInfo}

/-- The members after the one that varies do not look at it. -/
theorem settlesAround_self (hfresh : i.name ∉ before.map Prod.fst)
    (hi : i.name ∉ infos.map (·.name)) : SettlesAround before i.name after (i :: infos) := by
  have hsettle (y : Value) : i.settle (around before i.name after y) = .ok [(i.name, y)] := by
    unfold MemberInfo.settle
    rw [lookup_around_self hfresh]
  have hrest (y : Value) : settleMembers infos (around before i.name after y) =
      settleMembers infos (around before i.name after .null) := by
    refine settleMembers_congr fun j hj => lookup_around_of_ne (fun e => hi ?_) _ _
    exact List.mem_map.mpr ⟨j, hj, e⟩
  refine ⟨(settleMembers infos (around before i.name after .null)).map fun others =>
    ⟨[], i.name, others, List.not_mem_nil⟩, fun f hf => ?_, fun y => ?_⟩
  · obtain ⟨_, -, rfl⟩ := map_eq_ok.mp hf
    rfl
  · rw [settleMembers, hsettle, hrest]
    cases settleMembers infos (around before i.name after .null) <;> rfl

/-- A member before the one that varies stands among its surroundings. -/
theorem SettlesAround.cons (h : SettlesAround before name after infos) (hne : i.name ≠ name) :
    SettlesAround before name after (i :: infos) := by
  obtain ⟨frame, hnamed, hframe⟩ := h
  have hsettle (y : Value) : i.settle (around before name after y) =
      i.settle (around before name after .null) :=
    settle_congr (lookup_around_of_ne hne _ _)
  cases hpiece : i.settle (around before name after .null) with
  | error e =>
    refine ⟨.error e, nofun, fun y => ?_⟩
    rw [settleMembers, hsettle, hpiece]
    rfl
  | ok piece =>
    cases frame with
    | error e =>
      refine ⟨.error e, nofun, fun y => ?_⟩
      rw [settleMembers, hsettle, hpiece, hframe]
      rfl
    | ok f =>
      have hfresh : f.name ∉ Members.keys (piece ++ f.before) := by
        rw [Members.keys, List.map_append, List.mem_append]
        rintro (h | h)
        · have := keys_of_settle hpiece h
          rw [List.mem_singleton, hnamed f rfl] at this
          exact hne this.symm
        · exact f.fresh h
      refine ⟨.ok ⟨piece ++ f.before, f.name, f.after, hfresh⟩, ?_, fun y => ?_⟩
      · rintro _ ⟨⟩
        exact hnamed f rfl
      · rw [settleMembers, hsettle, hpiece, hframe]
        exact congrArg Except.ok (List.append_assoc _ _ _).symm

theorem settlesAround (hfresh : name ∉ before.map Prod.fst) (hn : (infos.map (·.name)).Nodup)
    (hname : name ∈ infos.map (·.name)) : SettlesAround before name after infos := by
  induction infos with
  | nil => cases hname
  | cons i infos ih =>
    obtain ⟨hi, hn⟩ := List.nodup_cons.mp hn
    by_cases hself : i.name = name
    · subst hself
      exact settlesAround_self hfresh hi
    · exact (ih hn ((List.mem_cons.mp hname).resolve_left (Ne.symm hself))).cons hself

end

/-! ## Reading around a place -/

/-- Whether reading by a schema for some place comes to reading what stands at the place, and
putting it into surroundings that hang on nothing else. There are none if they cannot be read. -/
def ReadsAround {ε ε' : Type} (path : List String) (read : Schema → Except ε Value)
    (inner : Schema → Except ε' Value) : Prop :=
  ∃ frames : Option (List Frame), (∀ fs ∈ frames, fs.map (·.name) = path) ∧
    ∀ new w, read new = .ok w ↔
      ∃ fs ∈ frames, ∃ y, inner new = .ok y ∧ w = Frame.fillAll fs y

section

variable {ε ε' ε'' : Type} {read : Schema → Except ε Value} {middle : Schema → Except ε' Value}
  {inner : Schema → Except ε'' Value}

theorem readsAround_nil (read : Schema → Except ε Value) : ReadsAround [] read read := by
  refine ⟨some [], ?_, fun new w => ?_⟩
  · rintro _ ⟨⟩
    rfl
  · simp [Frame.fillAll, eq_comm]

theorem ReadsAround.congr {ε₁ : Type} {read' : Schema → Except ε₁ Value}
    (h : ReadsAround path read inner) (hread : ∀ new w, read' new = .ok w ↔ read new = .ok w) :
    ReadsAround path read' inner := by
  obtain ⟨frames, hframes, h⟩ := h
  exact ⟨frames, hframes, fun new w => (hread new w).trans (h new w)⟩

/-- What surrounds a place in a member and what surrounds the member are put together. -/
theorem ReadsAround.cons (houter : ReadsAround [name] read middle) {f : Schema → Schema}
    (hinner : ReadsAround path (fun new => middle (f new)) inner) :
    ReadsAround (name :: path) (fun new => read (f new)) inner := by
  obtain ⟨outer, houter, hread⟩ := houter
  obtain ⟨frames, hframes, hmiddle⟩ := hinner
  refine ⟨outer.bind fun fs => frames.map fun gs => fs ++ gs, ?_, fun new w => ?_⟩
  · intro hs hmem
    obtain ⟨fs, hfs, hmem⟩ := Option.bind_eq_some_iff.mp hmem
    obtain ⟨gs, hgs, rfl⟩ := Option.map_eq_some_iff.mp hmem
    rw [List.map_append, houter fs hfs, hframes gs hgs]
    rfl
  · rw [hread]
    simp only [hmiddle, Option.mem_def, Option.bind_eq_some_iff, Option.map_eq_some_iff]
    constructor
    · rintro ⟨fs, hfs, _, ⟨gs, hgs, y, hy, rfl⟩, rfl⟩
      exact ⟨_, ⟨fs, hfs, gs, hgs, rfl⟩, y, hy, (List.foldr_append ..).symm⟩
    · rintro ⟨_, ⟨fs, hfs, gs, hgs, rfl⟩, y, hy, rfl⟩
      exact ⟨fs, hfs, _, ⟨gs, hgs, y, hy, rfl⟩, List.foldr_append ..⟩

/-- Whether a run over what is given of a record comes to reading one member among others that hang
on nothing else. -/
def RunsAround (name : String) (run : Schema → Except ε GivenMembers)
    (inner : Schema → Except ε' Value) : Prop :=
  ∃ given : Option (GivenMembers × GivenMembers), (∀ g ∈ given, name ∉ g.1.map Prod.fst) ∧
    ∀ new all, run new = .ok all ↔
      ∃ g ∈ given, ∃ y, inner new = .ok y ∧ all = around g.1 name g.2 y

/-- A record is read around a member as it is run over around it. -/
theorem RunsAround.readsAround {infos : List MemberInfo} {run : Schema → Except ε' GivenMembers}
    (hn : (infos.map (·.name)).Nodup) (hname : name ∈ infos.map (·.name))
    (hrun : RunsAround name run inner)
    (hread : ∀ new w, read new = .ok w ↔ ∃ given out, run new = .ok given ∧
      settleMembers infos given = .ok out ∧ w = .map out) :
    ReadsAround [name] read inner := by
  obtain ⟨given, hfresh, hrun⟩ := hrun
  cases given with
  | none =>
    refine ⟨none, nofun, fun new w => ?_⟩
    simp [hread, hrun]
  | some g =>
    obtain ⟨frame, hnamed, hframe⟩ : SettlesAround g.1 name g.2 infos :=
      settlesAround (hfresh g rfl) hn hname
    cases frame with
    | error e =>
      refine ⟨none, nofun, fun new w => ?_⟩
      rw [hread]
      constructor
      · rintro ⟨_, out, hall, hout, -⟩
        obtain ⟨_, ⟨⟩, y, -, rfl⟩ := (hrun _ _).mp hall
        cases (hframe y).symm.trans hout
      · rintro ⟨_, ⟨⟩, -⟩
    | ok f =>
      refine ⟨some [f], ?_, fun new w => ?_⟩
      · rintro _ ⟨⟩
        exact congrArg (fun n => [n]) (hnamed f rfl)
      · rw [hread]
        constructor
        · rintro ⟨_, out, hall, hout, rfl⟩
          obtain ⟨_, ⟨⟩, y, hy, rfl⟩ := (hrun _ _).mp hall
          cases (hframe y).symm.trans hout
          exact ⟨_, rfl, y, hy, rfl⟩
        · rintro ⟨_, ⟨⟩, y, hy, rfl⟩
          exact ⟨_, _, (hrun _ _).mpr ⟨g, rfl, y, hy, rfl⟩, hframe y, rfl⟩

end

/-! ## Values -/

theorem fst_of_memberOfValue {v : Value} {taken : String × Option Value} :
    ∀ {members : List (MemberInfo × Schema)},
      memberOfValue members key v = .ok (some taken) → taken.1 = key
  | [], h => by cases h
  | (i, s) :: members, h => by
    rw [memberOfValue] at h
    split_ifs at h
    · cases h
      rfl
    · obtain ⟨_, -, h⟩ := bind_eq_ok.mp h
      cases h
      rfl
    · exact fst_of_memberOfValue h

/-- The members of a map are run over around any one of them that has its name alone. -/
theorem runsAround_values (hn : (names members).Nodup) (hm : m ∈ members)
    (hsolid : m.1.presence.acceptsNull = false) {before after : Members} {u : Value}
    (hothers : ∀ n ∈ before ++ after, n.1 ≠ m.1.name) :
    RunsAround m.1.name
      (fun new => (before ++ (m.1.name, u) :: after).filterMapM fun n =>
        memberOfValue (withMember members m.1.name new) n.1 n.2)
      fun new => new.ofValue u := by
  obtain ⟨hbefore, hafter⟩ := List.forall_mem_append.mp hothers
  have hrest {ms : Members} (h : ∀ n ∈ ms, n.1 ≠ m.1.name) (new : Schema) :
      ms.filterMapM (fun n => memberOfValue (withMember members m.1.name new) n.1 n.2) =
        ms.filterMapM fun n => memberOfValue members n.1 n.2 :=
    filterMapM_congr fun n hn => memberOfValue_withMember_of_ne (h n hn) new n.2
  have hfresh {given : GivenMembers}
      (h : before.filterMapM (fun n => memberOfValue members n.1 n.2) = .ok given) :
      m.1.name ∉ given.map Prod.fst := by
    intro hmem
    obtain ⟨taken, htaken, hname⟩ := List.mem_map.mp hmem
    obtain ⟨n, hn, hread⟩ := exists_of_mem_filterMapM h htaken
    exact hbefore n hn ((fst_of_memberOfValue hread).symm.trans hname)
  cases hus : before.filterMapM fun n => memberOfValue members n.1 n.2 with
  | error e =>
    refine ⟨none, nofun, fun new all => ?_⟩
    rw [filterMapM_append_cons_eq_ok_iff, hrest hbefore, hus]
    simp
  | ok us =>
    cases hvs : after.filterMapM fun n => memberOfValue members n.1 n.2 with
    | error e =>
      refine ⟨none, nofun, fun new all => ?_⟩
      rw [filterMapM_append_cons_eq_ok_iff, hrest hafter, hvs]
      simp
    | ok vs =>
      refine ⟨some (us, vs), ?_, fun new all => ?_⟩
      · rintro _ ⟨⟩
        exact hfresh hus
      · rw [filterMapM_append_cons_eq_ok_iff, hrest hbefore, hrest hafter, hus, hvs]
        simp only [memberOfValue_withMember_self hn hm hsolid]
        constructor
        · rintro ⟨_, _, _, ⟨⟩, ⟨y, hy, rfl⟩, ⟨⟩, rfl⟩
          exact ⟨_, rfl, y, hy, rfl⟩
        · rintro ⟨_, ⟨⟩, y, hy, rfl⟩
          exact ⟨_, _, _, rfl, ⟨y, hy, rfl⟩, rfl, rfl⟩

end Schema

/-- Whether a value stands at a path of names in nested maps, each of which has one member of its
name. -/
inductive Value.StandsAt : Value → List String → Value → Prop where
  | here {x : Value} : StandsAt x [] x
  | member {before after : Members} {name : String} {u x : Value} {path : List String}
      (alone : ∀ n ∈ before ++ after, n.1 ≠ name) (rest : StandsAt u path x) :
      StandsAt (.map (before ++ (name, u) :: after)) (name :: path) x

namespace Schema

theorem ofValue_record_eq_ok_iff {ms : Members} {w : Value} :
    (Schema.record info members).ofValue (.map ms) = .ok w ↔ ∃ given out,
      ms.filterMapM (fun n => memberOfValue members n.1 n.2) = .ok given ∧
        settleMembers (members.map (·.1)) given = .ok out ∧ w = .map out := by
  rw [ofValue, bind_eq_ok]
  refine exists_congr fun given => ⟨fun ⟨hgiven, h⟩ => ?_, fun ⟨out, hgiven, hout, hw⟩ => ?_⟩
  · obtain ⟨out, hout, h⟩ := bind_eq_ok.mp h
    exact ⟨out, hgiven, hout, (pure_eq_ok.mp h).symm⟩
  · exact ⟨hgiven, bind_eq_ok.mpr ⟨out, hout, pure_eq_ok.mpr hw.symm⟩⟩

/-- **Values are read around what stands at a place.** -/
theorem readsAround_ofValue {s : Schema} {path : List String} {v x : Value} (hs : s.IsPlace path)
    (hx : v.StandsAt path x) :
    ReadsAround path (fun new => (s.replaceAt path new).ofValue v) fun new => new.ofValue x := by
  induction hx generalizing s with
  | @here x =>
    have hself : (fun new => (s.replaceAt [] new).ofValue x) = fun new => new.ofValue x := by
      funext new
      rw [replaceAt]
    rw [hself]
    exact readsAround_nil _
  | @member before after name u x path alone _ ih =>
    cases hs with
    | @member info members m _ distinct mem solid rest =>
      have hn := names_eq members
      have houter : ReadsAround [m.1.name]
          (fun new => (Schema.record info (withMember members m.1.name new)).ofValue
            (.map (before ++ (m.1.name, u) :: after))) fun new => new.ofValue u := by
        have hrun := runsAround_values distinct mem solid (u := u) alone
        refine hrun.readsAround (hn ▸ distinct) (hn ▸ List.mem_map_of_mem mem) fun new w => ?_
        rw [ofValue_record_eq_ok_iff, map_fst_withMember]
      have hcons := houter.cons (ih rest)
      simp only [replaceAt_member distinct mem]
      exact hcons

end Schema

end LogForwarder
