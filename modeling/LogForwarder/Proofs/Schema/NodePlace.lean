import LogForwarder.Proofs.Schema.Entries
import LogForwarder.Proofs.Schema.Place

/-!
# Places in documents

How what stands at one place of a document (`Node.at?`) bears on how the whole of it is read. A
document may reach the place through references, and what stands there may be reached in other ways
as well: all of it is read from the same document, whatever the schema for the place.

1. An entry of another name is taken as before, whatever a member was given as before it
   (`exists_takeEntry_around`).
2. So entries are run over around the one of a member, if there is one only
   (`runsAround_entries`), and nodes are read around what stands at a place
   (`readsAround_ofNode`).
-/

namespace LogForwarder

namespace Yaml.Node

variable {root node x : Node} {name : String} {path : List String}

/-- What stands at a path of names in nested maps, each of which has one entry of its name. -/
def at? (root : Node) : Node → List String → Option Node
  | node, [] => some node
  | node, name :: path =>
    match node.target root with
    | .mapping _ entries =>
      match valuesUnder root entries name with
      | [u] => at? root u path
      | _ => none
    | _ => none

theorem at?_cons_eq_some (h : at? root node (name :: path) = some x) :
    ∃ tag entries u, node.target root = .mapping tag entries ∧
      valuesUnder root entries name = [u] ∧ at? root u path = some x := by
  rw [at?] at h
  split at h
  · rename_i tag entries htarget
    split at h
    · rename_i u hone
      exact ⟨tag, entries, u, htarget, hone, h⟩
    · cases h
  · cases h

/-- The one entry of a name stands among entries of other names. -/
theorem exists_split_of_valuesUnder {entries : List (Node × Node)} {u : Node}
    (h : valuesUnder root entries name = [u]) :
    ∃ before key after, entries = before ++ (key, u) :: after ∧ key.text? root = some name ∧
      ∀ e ∈ before ++ after, e.1.text? root ≠ some name := by
  obtain ⟨⟨key, _⟩, hfilter, rfl⟩ := List.map_eq_singleton_iff.mp h
  obtain ⟨before, after, rfl, hbefore, hkey, hafter⟩ := List.filter_eq_cons_iff.mp hfilter
  have hafter := List.filter_eq_nil_iff.mp hafter
  refine ⟨before, key, after, rfl, by simpa using hkey, List.forall_mem_append.mpr ⟨?_, ?_⟩⟩
  · exact fun e he => by simpa using hbefore e he
  · exact fun e he => by simpa using hafter e he

end Yaml.Node

namespace Schema

open Yaml (Node)

variable {info : RecordInfo} {members : List (MemberInfo × Schema)} {m : MemberInfo × Schema}
  {name key : String} {root node x : Node} {path : List String}

/-! ## One member -/

theorem memberOfNode_withMember_of_ne (h : key ≠ name) (s : Schema) :
    memberOfNode root (withMember members name s) key x = memberOfNode root members key x := by
  induction members with
  | nil => rfl
  | cons m members ih =>
    obtain ⟨info, schema⟩ := m
    rw [withMember, List.map_cons, ← withMember]
    by_cases hinfo : info.name = name
    · have hne : info.name ≠ key := fun e => h (e.symm.trans hinfo)
      rw [if_pos hinfo, memberOfNode, memberOfNode, if_neg hne, if_neg hne, ih]
    · rw [if_neg hinfo, memberOfNode, memberOfNode, ih]

theorem memberOfNode_withMember_self (hn : (names members).Nodup) (hm : m ∈ members)
    (hsolid : m.1.presence.acceptsNull = false) (s : Schema)
    {taken : Option (String × Option Value)} :
    memberOfNode root (withMember members m.1.name s) m.1.name x = .ok taken ↔
      ∃ y, s.ofNode root x = .ok y ∧ taken = some (m.1.name, some y) := by
  have hn' : (names (withMember members m.1.name s)).Nodup := by rwa [names_withMember]
  have hread : memberOfNode root (withMember members m.1.name s) m.1.name x =
      memberOfNode root [(m.1, s)] m.1.name x :=
    memberOfNode_of_mem (m := (m.1, s)) hn' (mem_withMember hm s)
  rw [hread, memberOfNode, if_pos rfl]
  simp only [hsolid, Bool.false_eq_true, if_false, pure_bind]
  rw [bind_eq_ok]
  exact exists_congr fun y => and_congr_right fun _ => pure_eq_ok.trans eq_comm

theorem fst_of_memberOfNode {taken : String × Option Value} :
    ∀ {members : List (MemberInfo × Schema)},
      memberOfNode root members key x = .ok (some taken) → taken.1 = key
  | [], h => by
    rw [memberOfNode] at h
    cases h
  | (i, s) :: members, h => by
    rw [memberOfNode] at h
    split_ifs at h with hname hnull
    · obtain ⟨isNull, -, h⟩ := bind_eq_ok.mp h
      cases isNull with
      | true =>
        cases h
        rfl
      | false =>
        obtain ⟨_, -, h⟩ := bind_eq_ok.mp h
        cases h
        rfl
    · simp only [pure_bind, Bool.false_eq_true, if_false] at h
      obtain ⟨_, -, h⟩ := bind_eq_ok.mp h
      cases h
      rfl
    · exact fst_of_memberOfNode h

/-! ## One entry -/

variable {entry : Node × Node} {given before after all : GivenMembers}

/-- An entry whose key is a text is refused as given twice, or taken as its member is read. -/
theorem takeEntry_of_text (h : entry.1.text? root = some key) :
    takeEntry root info members given entry =
      if info.strict && (given.lookup key).isSome then .error (.here (.duplicate key))
      else ((memberOfNode root members key entry.2).under entry.1.step).map fun taken =>
        taken.toList ++ given := by
  unfold takeEntry
  rw [Node.keyText_eq_ok_iff.mpr h]
  show (if _ then _ else _) = _
  split_ifs
  · rfl
  · show (NodeResult.under _ _ >>= _) = _
    cases (memberOfNode root members key entry.2).under entry.1.step with
    | error e => rfl
    | ok taken => cases taken <;> rfl

variable (info) in
/-- An entry whose key is no text is refused as such. -/
theorem takeEntry_of_not_text (h : entry.1.text? root = none) :
    ∃ e, ∀ members given, takeEntry root info members given entry = .error e := by
  cases hkey : entry.1.keyText root "field identifier" with
  | error e =>
    refine ⟨.here e, fun members given => ?_⟩
    unfold takeEntry
    rw [hkey]
    rfl
  | ok key => exact absurd (h.symm.trans (Node.keyText_eq_ok_iff.mp hkey)) nofun

/-- What is taken for another name is given beside a member of this name. -/
theorem fresh_of_taken {step : PathStep} {taken : Option (String × Option Value)} (hne : key ≠ name)
    (htaken : (memberOfNode root members key x).under step = .ok taken)
    (hfresh : name ∉ given.map Prod.fst) : name ∉ (taken.toList ++ given).map Prod.fst := by
  rw [List.map_append, List.mem_append]
  rintro (hmem | hmem)
  · obtain ⟨t, ht, hname⟩ := List.mem_map.mp hmem
    obtain rfl := Option.mem_toList.mp ht
    exact hne ((fst_of_memberOfNode (NodeResult.under_eq_ok_iff.mp htaken)).symm.trans hname)
  · exact hfresh hmem

theorem takeEntry_withMember (h : entry.1.text? root ≠ some name) (s : Schema)
    (given : GivenMembers) :
    takeEntry root info (withMember members name s) given entry =
      takeEntry root info members given entry := by
  cases hkey : entry.1.text? root with
  | none =>
    obtain ⟨e, he⟩ := takeEntry_of_not_text info hkey
    rw [he, he]
  | some key =>
    have hne : key ≠ name := fun e => h (e ▸ hkey)
    rw [takeEntry_of_text hkey, takeEntry_of_text hkey, memberOfNode_withMember_of_ne hne]

/-- The entry of a member is read by the schema of the member. -/
theorem takeEntry_withMember_self (hn : (names members).Nodup) (hm : m ∈ members)
    (hsolid : m.1.presence.acceptsNull = false) (hkey : entry.1.text? root = some m.1.name)
    (hfresh : given.lookup m.1.name = none) (s : Schema) :
    takeEntry root info (withMember members m.1.name s) given entry = .ok all ↔
      ∃ y, s.ofNode root entry.2 = .ok y ∧ all = around [] m.1.name given y := by
  rw [takeEntry_of_text hkey, hfresh, Option.isSome_none, Bool.and_false,
    if_neg Bool.false_ne_true, map_eq_ok]
  simp only [NodeResult.under_eq_ok_iff, memberOfNode_withMember_self hn hm hsolid]
  constructor
  · rintro ⟨_, ⟨y, hy, rfl⟩, rfl⟩
    exact ⟨y, hy, rfl⟩
  · rintro ⟨y, hy, rfl⟩
    exact ⟨_, ⟨y, hy, rfl⟩, rfl⟩

variable (info members after) in
/-- An entry of another name is taken whatever the member was given as before. -/
theorem exists_takeEntry_around (h : entry.1.text? root ≠ some name)
    (hfresh : name ∉ before.map Prod.fst) :
    ∃ taken : NodeResult GivenMembers, (∀ b, taken = .ok b → name ∉ b.map Prod.fst) ∧
      ∀ y, takeEntry root info members (around before name after y) entry =
        taken.map fun b => around b name after y := by
  cases hkey : entry.1.text? root with
  | none =>
    obtain ⟨e, he⟩ := takeEntry_of_not_text info hkey
    exact ⟨.error e, nofun, fun y => he _ _⟩
  | some key =>
    have hne : key ≠ name := fun e => h (e ▸ hkey)
    have hlookup (y : Value) : (around before name after y).lookup key =
        (around before name after .null).lookup key := lookup_around_of_ne hne _ _
    simp only [takeEntry_of_text hkey, hlookup]
    split_ifs
    · exact ⟨.error _, nofun, fun y => rfl⟩
    · cases htaken : (memberOfNode root members key entry.2).under entry.1.step with
      | error e => exact ⟨.error e, nofun, fun y => rfl⟩
      | ok taken =>
        refine ⟨.ok (taken.toList ++ before), ?_, fun y => ?_⟩
        · rintro _ ⟨⟩
          exact fresh_of_taken hne htaken hfresh
        · exact congrArg Except.ok (List.append_assoc _ _ _).symm

/-! ## All entries -/

variable (info members after) in
/-- Entries of other names are taken whatever the member was given as before. -/
theorem exists_takeEntries_around {entries : List (Node × Node)}
    (h : ∀ e ∈ entries, e.1.text? root ≠ some name) (hfresh : name ∉ before.map Prod.fst) :
    ∃ taken : NodeResult GivenMembers, (∀ b, taken = .ok b → name ∉ b.map Prod.fst) ∧
      ∀ y, entries.foldlM (takeEntry root info members) (around before name after y) =
        taken.map fun b => around b name after y := by
  induction entries generalizing before with
  | nil =>
    refine ⟨.ok before, ?_, fun y => rfl⟩
    rintro _ ⟨⟩
    exact hfresh
  | cons e entries ih =>
    obtain ⟨he, h⟩ := List.forall_mem_cons.mp h
    obtain ⟨taken, hfresh', htaken⟩ := exists_takeEntry_around info members after he hfresh
    cases taken with
    | error e =>
      refine ⟨.error e, nofun, fun y => ?_⟩
      rw [List.foldlM_cons, htaken]
      rfl
    | ok b =>
      obtain ⟨all, hall, hrest⟩ := ih h (hfresh' b rfl)
      refine ⟨all, hall, fun y => ?_⟩
      rw [List.foldlM_cons, htaken]
      exact hrest y

theorem takeEntries_withMember {entries : List (Node × Node)}
    (h : ∀ e ∈ entries, e.1.text? root ≠ some name) (s : Schema) (given : GivenMembers) :
    entries.foldlM (takeEntry root info (withMember members name s)) given =
      entries.foldlM (takeEntry root info members) given := by
  induction entries generalizing given with
  | nil => rfl
  | cons e entries ih =>
    obtain ⟨he, h⟩ := List.forall_mem_cons.mp h
    rw [List.foldlM_cons, List.foldlM_cons, takeEntry_withMember he]
    exact congrArg (bind _) (funext fun given => ih h given)

theorem fresh_of_takeEntries {entries : List (Node × Node)}
    (h : ∀ e ∈ entries, e.1.text? root ≠ some name) (hfresh : name ∉ given.map Prod.fst)
    (htaken : entries.foldlM (takeEntry root info members) given = .ok all) :
    name ∉ all.map Prod.fst := by
  induction entries generalizing given with
  | nil =>
    cases htaken
    exact hfresh
  | cons e entries ih =>
    obtain ⟨he, h⟩ := List.forall_mem_cons.mp h
    rw [List.foldlM_cons] at htaken
    obtain ⟨given', htake, hrest⟩ := bind_eq_ok.mp htaken
    refine ih h ?_ hrest
    cases hkey : e.1.text? root with
    | none =>
      obtain ⟨error, herror⟩ := takeEntry_of_not_text info hkey
      cases (herror members given).symm.trans htake
    | some key =>
      rw [takeEntry_of_text hkey] at htake
      split_ifs at htake
      obtain ⟨taken, htaken, rfl⟩ := map_eq_ok.mp htake
      exact fresh_of_taken (fun e => he (e ▸ hkey)) htaken hfresh

/-- The entries of a map are run over around the only one of a member. -/
theorem runsAround_entries (info : RecordInfo) (hn : (names members).Nodup) (hm : m ∈ members)
    (hsolid : m.1.presence.acceptsNull = false) {before after : List (Node × Node)}
    {keyNode u : Node} (hkey : keyNode.text? root = some m.1.name)
    (hothers : ∀ e ∈ before ++ after, e.1.text? root ≠ some m.1.name) :
    RunsAround m.1.name
      (fun new => (before ++ (keyNode, u) :: after).foldlM
        (takeEntry root info (withMember members m.1.name new)) [])
      fun new => new.ofNode root u := by
  obtain ⟨hbefore, hafter⟩ := List.forall_mem_append.mp hothers
  have hsplit (new : Schema) (all : GivenMembers) :
      (before ++ (keyNode, u) :: after).foldlM
          (takeEntry root info (withMember members m.1.name new)) [] = .ok all ↔
        ∃ given, before.foldlM (takeEntry root info members) [] = .ok given ∧
        ∃ taken, takeEntry root info (withMember members m.1.name new) given (keyNode, u) =
          .ok taken ∧ after.foldlM (takeEntry root info members) taken = .ok all := by
    rw [List.foldlM_append, takeEntries_withMember hbefore, bind_eq_ok]
    refine exists_congr fun given => and_congr_right fun _ => ?_
    rw [List.foldlM_cons, bind_eq_ok]
    refine exists_congr fun taken => and_congr_right fun _ => ?_
    rw [takeEntries_withMember hafter]
  cases hgiven : before.foldlM (takeEntry root info members) [] with
  | error e =>
    refine ⟨none, nofun, fun new all => ?_⟩
    rw [hsplit, hgiven]
    simp
  | ok given =>
    have hfresh : m.1.name ∉ given.map Prod.fst :=
      fresh_of_takeEntries hbefore List.not_mem_nil hgiven
    have hself (new : Schema) (t : GivenMembers) :
        takeEntry root info (withMember members m.1.name new) given (keyNode, u) = .ok t ↔
          ∃ y, new.ofNode root u = .ok y ∧ t = around [] m.1.name given y :=
      takeEntry_withMember_self hn hm hsolid hkey (lookup_eq_none_of_fresh hfresh) new
    have hnil : m.1.name ∉ ([] : GivenMembers).map Prod.fst := List.not_mem_nil
    obtain ⟨taken, hfresh', htaken⟩ := exists_takeEntries_around info members given hafter hnil
    cases taken with
    | error e =>
      refine ⟨none, nofun, fun new all => (hsplit new all).trans ⟨?_, nofun⟩⟩
      rintro ⟨_, hgiven', t, ht, hall⟩
      cases hgiven.symm.trans hgiven'
      obtain ⟨y, -, rfl⟩ := (hself new t).mp ht
      cases (htaken y).symm.trans hall
    | ok b =>
      refine ⟨some (b, given), ?_, fun new all => (hsplit new all).trans ⟨?_, ?_⟩⟩
      · rintro _ ⟨⟩
        exact hfresh' b rfl
      · rintro ⟨_, hgiven', t, ht, hall⟩
        cases hgiven.symm.trans hgiven'
        obtain ⟨y, hy, rfl⟩ := (hself new t).mp ht
        cases (htaken y).symm.trans hall
        exact ⟨_, rfl, y, hy, rfl⟩
      · rintro ⟨_, ⟨⟩, y, hy, rfl⟩
        exact ⟨_, hgiven, _, (hself new _).mpr ⟨y, hy, rfl⟩, htaken y⟩

theorem ofNode_record_eq_ok_iff {tag : Option String} {entries : List (Node × Node)} {w : Value}
    (h : node.target root = .mapping tag entries) :
    (Schema.record info members).ofNode root node = .ok w ↔ ∃ given out,
      entries.foldlM (takeEntry root info members) [] = .ok given ∧
        settleMembers (members.map (·.1)) given = .ok out ∧ w = .map out := by
  rw [ofNode_record_of_target info members h, bind_eq_ok]
  refine exists_congr fun given => ⟨fun ⟨hgiven, h⟩ => ?_, fun ⟨out, hgiven, hout, hw⟩ => ?_⟩
  · obtain ⟨out, hout, h⟩ := bind_eq_ok.mp h
    exact ⟨out, hgiven, NodeResult.of_eq_ok_iff.mp hout, (pure_eq_ok.mp h).symm⟩
  · exact ⟨hgiven, bind_eq_ok.mpr ⟨out, NodeResult.of_eq_ok_iff.mpr hout, pure_eq_ok.mpr hw.symm⟩⟩

/-- **Nodes are read around what stands at a place.** -/
theorem readsAround_ofNode {s : Schema} (hs : s.IsPlace path)
    (hx : Node.at? root node path = some x) :
    ReadsAround path (fun new => (s.replaceAt path new).ofNode root node)
      fun new => new.ofNode root x := by
  induction path generalizing s node with
  | nil =>
    cases hx
    have hself : (fun new => (s.replaceAt [] new).ofNode root x) =
        fun new => new.ofNode root x := by
      funext new
      rw [replaceAt]
    rw [hself]
    exact readsAround_nil _
  | cons name path ih =>
    obtain ⟨tag, entries, u, htarget, hone, hrest⟩ := Node.at?_cons_eq_some hx
    obtain ⟨before, key, after, rfl, hkey, hothers⟩ := Node.exists_split_of_valuesUnder hone
    cases hs with
    | @member info members m _ distinct mem solid rest =>
      have hn := names_eq members
      have houter : ReadsAround [m.1.name]
          (fun new => (Schema.record info (withMember members m.1.name new)).ofNode root node)
          fun new => new.ofNode root u := by
        have hrun := runsAround_entries info distinct mem solid (u := u) hkey hothers
        refine hrun.readsAround (hn ▸ distinct) (hn ▸ List.mem_map_of_mem mem) fun new w => ?_
        rw [ofNode_record_eq_ok_iff htarget, map_fst_withMember]
      have hcons := houter.cons (ih rest hrest)
      simp only [replaceAt_member distinct mem]
      exact hcons

end Schema

end LogForwarder
