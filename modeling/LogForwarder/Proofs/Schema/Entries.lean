import LogForwarder.Proofs.Schema.Record
import LogForwarder.Proofs.Schema.Written

/-!
# Records of texts in documents

What a strict record whose members are all required texts is read from: a map with texts as its
keys, in which every member has exactly one entry, and this holds a text. Its other entries are
passed over, whatever they hold.

1. One entry is taken if its key is a text, and if this names a member, the member was not given
   before and the entry holds a text (`takeEntry_texts_eq_ok_iff`).
2. A run over the entries gives every member at most once (`exists_takeEntries_texts_iff`).
3. A member is missed unless it was given (`ofNode_texts_eq_ok_iff`).
-/

namespace LogForwarder

namespace Yaml.Node

/-- The text that a node stands for. -/
def text? (node root : Node) : Option String :=
  match node.target root with
  | .scalar _ _ s => some s
  | _ => none

/-- The values of the entries of a map that stand under a key. -/
def valuesUnder (root : Node) (entries : List (Node × Node)) (key : String) : List Node :=
  (entries.filter fun entry => entry.1.text? root = some key).map Prod.snd

/-- Whether all keys of a map are texts. -/
def KeysAreTexts (root : Node) (entries : List (Node × Node)) : Prop :=
  ∀ entry ∈ entries, ∃ key, entry.1.text? root = some key

variable {root : Node} {entry : Node × Node} {key : String}

theorem valuesUnder_cons_self (h : entry.1.text? root = some key) (entries : List (Node × Node)) :
    valuesUnder root (entry :: entries) key = entry.2 :: valuesUnder root entries key := by
  unfold valuesUnder
  rw [List.filter_cons_of_pos (by simpa using h), List.map_cons]

theorem valuesUnder_cons_of_ne {name : String} (h : entry.1.text? root = some name)
    (hne : name ≠ key) (entries : List (Node × Node)) :
    valuesUnder root (entry :: entries) key = valuesUnder root entries key := by
  unfold valuesUnder
  rw [List.filter_cons_of_neg (by simpa [h] using hne)]

theorem keyText_eq_ok_iff {node : Node} {expected s : String} :
    node.keyText root expected = .ok s ↔ node.text? root = some s := by
  unfold keyText text?
  cases node.target root <;> simp

end Yaml.Node

theorem NodeResult.of_eq_ok_iff {α : Type} {x : Except Mismatch α} {a : α} :
    NodeResult.of x = .ok a ↔ x = .ok a := by
  cases x <;> simp [NodeResult.of]

theorem NodeResult.under_eq_ok_iff {α : Type} {step : PathStep} {x : NodeResult α} {a : α} :
    x.under step = .ok a ↔ x = .ok a := by
  cases x <;> simp [NodeResult.under]

namespace Schema

open Yaml (Node)
open Yaml.Node (valuesUnder valuesUnder_cons_self valuesUnder_cons_of_ne KeysAreTexts)

variable {root node x : Node} {entries : List (Node × Node)} {title name : String}
  {ns : List String} {given : GivenMembers}

/-! ## One entry -/

theorem ofNode_text_eq_ok_iff {w : Value} :
    Schema.text.ofNode root node = .ok w ↔ ∃ s, node.text? root = some s ∧ w = .str s := by
  rw [ofNode]
  unfold Node.text?
  cases node.target root <;> simp [NodeResult.refuse, eq_comm]

/-- Required members that are texts. -/
def textMembers (ns : List String) : List (MemberInfo × Schema) :=
  ns.map fun name => (⟨name, .required, {}⟩, .text)

theorem names_textMembers (ns : List String) : names (textMembers ns) = ns := by
  unfold names textMembers
  rw [List.map_map]
  exact List.map_id ns

theorem memberOfNode_textMembers (hname : name ∈ ns) {taken : Option (String × Option Value)} :
    memberOfNode root (textMembers ns) name x = .ok taken ↔
      ∃ s, x.text? root = some s ∧ taken = some (name, some (.str s)) := by
  induction ns with
  | nil => cases hname
  | cons first ns ih =>
    rw [textMembers, List.map_cons, ← textMembers, memberOfNode]
    by_cases hfirst : first = name
    · -- A required member is read as it stands, also where nothing is spelled.
      simp only [hfirst, Presence.acceptsNull, Bool.false_eq_true, if_true, if_false, pure_bind]
      rw [bind_eq_ok]
      constructor
      · rintro ⟨w, hw, h⟩
        obtain ⟨s, hs, rfl⟩ := ofNode_text_eq_ok_iff.mp hw
        exact ⟨s, hs, (pure_eq_ok.mp h).symm⟩
      · rintro ⟨s, hs, rfl⟩
        exact ⟨_, ofNode_text_eq_ok_iff.mpr ⟨s, hs, rfl⟩, rfl⟩
    · rw [if_neg hfirst]
      exact ih ((List.mem_cons.mp hname).resolve_left (Ne.symm hfirst))

/-- How a record of texts reads an entry. -/
abbrev takeText (root : Node) (title : String) (ns : List String) (given : GivenMembers)
    (entry : Node × Node) : NodeResult GivenMembers :=
  takeEntry root ⟨title, true, none⟩ (textMembers ns) given entry

/-- What was given after an entry of this name. -/
inductive TakesText (root : Node) (ns : List String) (given : GivenMembers) (name : String)
    (x : Node) : GivenMembers → Prop
  | passedOver : name ∉ ns → TakesText root ns given name x given
  | taken {s : String} : name ∈ ns → x.text? root = some s →
      TakesText root ns given name x ((name, some (.str s)) :: given)

/-- What is given twice is refused, and so is what is no text. -/
theorem takeText_eq_ok_iff {entry : Node × Node} {taken : GivenMembers} :
    takeText root title ns given entry = .ok taken ↔
      ∃ name, entry.1.text? root = some name ∧ given.lookup name = none ∧
        TakesText root ns given name entry.2 taken := by
  unfold takeText takeEntry
  rw [bind_eq_ok]
  refine exists_congr fun name => ?_
  rw [NodeResult.of_eq_ok_iff, Node.keyText_eq_ok_iff]
  refine and_congr_right fun _ => ?_
  cases hgiven : given.lookup name with
  | some v =>
    simp only [Option.isSome_some, Bool.and_self, if_true, reduceCtorEq, false_and, iff_false]
    intro h
    cases h
  | none =>
    simp only [Option.isSome_none, Bool.and_false, Bool.false_eq_true, if_false, true_and]
    by_cases hname : name ∈ ns
    · constructor
      · intro h
        obtain ⟨_, hmember, h⟩ := bind_eq_ok.mp h
        obtain ⟨s, hs, rfl⟩ := (memberOfNode_textMembers hname).mp
          (NodeResult.under_eq_ok_iff.mp hmember)
        cases h
        exact .taken hname hs
      · rintro (hnot | ⟨-, hs⟩)
        · exact absurd hname hnot
        · exact bind_eq_ok.mpr ⟨_, NodeResult.under_eq_ok_iff.mpr
            ((memberOfNode_textMembers hname).mpr ⟨_, hs, rfl⟩), rfl⟩
    · have hnot : name ∉ names (textMembers ns) := by rwa [names_textMembers]
      rw [memberOfNode_of_not_mem hnot]
      constructor
      · rintro ⟨⟩
        exact .passedOver hname
      · rintro (_ | ⟨hmem, -⟩)
        · rfl
        · exact absurd hmem hname

/-! ## All entries -/

/-- What was given for a member before and after some entries: at most one of them is of this
name, and it holds a text. -/
inductive GivesText (root : Node) (entries : List (Node × Node)) (name : String) :
    Option (Option Value) → Option (Option Value) → Prop
  | passedOver {o : Option (Option Value)} : valuesUnder root entries name = [] →
      GivesText root entries name o o
  | taken {x : Node} {s : String} : valuesUnder root entries name = [x] → x.text? root = some s →
      GivesText root entries name none (some (some (.str s)))

theorem givesText_cons_of_ne {key : String} {entry : Node × Node} (h : entry.1.text? root = some key)
    (hne : key ≠ name) {o o' : Option (Option Value)} :
    GivesText root (entry :: entries) name o o' ↔ GivesText root entries name o o' := by
  have hsame := valuesUnder_cons_of_ne h hne entries
  constructor
  · rintro (hnone | ⟨hone, hs⟩)
    · exact .passedOver (hsame ▸ hnone)
    · exact .taken (hsame ▸ hone) hs
  · rintro (hnone | ⟨hone, hs⟩)
    · exact .passedOver (hsame.trans hnone)
    · exact .taken (hsame.trans hone) hs

theorem givesText_cons_self {entry : Node × Node} (h : entry.1.text? root = some name)
    {o o' : Option (Option Value)} :
    GivesText root (entry :: entries) name o o' ↔ o = none ∧ ∃ s, entry.2.text? root = some s ∧
      GivesText root entries name (some (some (.str s))) o' := by
  have hfirst := valuesUnder_cons_self h entries
  constructor
  · rintro (hnone | ⟨hone, hs⟩)
    · exact absurd (hfirst.symm.trans hnone) (List.cons_ne_nil _ _)
    · obtain ⟨rfl, hrest⟩ := List.cons_eq_cons.mp (hfirst.symm.trans hone)
      exact ⟨rfl, _, hs, .passedOver hrest⟩
  · rintro ⟨rfl, s, hs, hrest | _⟩
    exact .taken (hfirst.trans (congrArg _ hrest)) hs

theorem givesText_nil {o o' : Option (Option Value)} : GivesText root [] name o o' ↔ o = o' := by
  constructor
  · rintro (_ | ⟨hone, -⟩)
    · rfl
    · cases hone
  · rintro rfl
    exact .passedOver rfl

section

variable {entry : Node × Node} {key : String} {taken : GivenMembers}

theorem TakesText.lookup_of_not_mem (h : TakesText root ns given key x taken)
    (hothers : ∀ other ∉ ns, given.lookup other = none) :
    ∀ other ∉ ns, taken.lookup other = none := by
  cases h with
  | passedOver _ => exact hothers
  | taken hkey _ =>
    intro other hother
    have hne : other ≠ key := fun e => hother (e ▸ hkey)
    rw [List.lookup_cons, beq_false_of_ne hne]
    exact hothers other hother

/-- What entries give is what the rest of them give after the first. -/
theorem TakesText.givesText_iff (hkey : entry.1.text? root = some key)
    (hfresh : given.lookup key = none) (h : TakesText root ns given key entry.2 taken)
    (hname : name ∈ ns) {o : Option (Option Value)} :
    GivesText root (entry :: entries) name (given.lookup name) o ↔
      GivesText root entries name (taken.lookup name) o := by
  by_cases he : key = name
  · subst he
    cases h with
    | passedOver hnot => exact absurd hname hnot
    | taken _ hs =>
      rw [givesText_cons_self hkey, List.lookup_cons_self, hfresh]
      simp [hs]
  · rw [givesText_cons_of_ne hkey he]
    cases h with
    | passedOver _ => rfl
    | taken _ _ => rw [List.lookup_cons, beq_false_of_ne (Ne.symm he)]

theorem exists_takesText (hkey : entry.1.text? root = some key) {t : String → Option (Option Value)}
    (hothers : ∀ other ∉ ns, given.lookup other = none)
    (hgives : ∀ name ∈ ns, GivesText root (entry :: entries) name (given.lookup name) (t name)) :
    given.lookup key = none ∧ ∃ taken, TakesText root ns given key entry.2 taken := by
  by_cases hmem : key ∈ ns
  · obtain ⟨hfresh, s, hs, -⟩ := (givesText_cons_self hkey).mp (hgives key hmem)
    exact ⟨hfresh, _, .taken hmem hs⟩
  · exact ⟨hothers key hmem, _, .passedOver hmem⟩

end

/-- **Each member is given once.** A run over entries succeeds if all keys are texts and each member
is given at most once, as a text, and not before. -/
theorem exists_takeEntries_texts_iff {t : String → Option (Option Value)} :
    ∀ {entries : List (Node × Node)} {given : GivenMembers},
      (∀ other ∉ ns, given.lookup other = none) →
      ((∃ taken, entries.foldlM (takeText root title ns) given = .ok taken ∧
          ∀ name ∈ ns, taken.lookup name = t name) ↔
        KeysAreTexts root entries ∧
          ∀ name ∈ ns, GivesText root entries name (given.lookup name) (t name))
  | [], given, _ => by
    simp only [givesText_nil]
    constructor
    · rintro ⟨_, ⟨⟩, hlookup⟩
      exact ⟨nofun, hlookup⟩
    · rintro ⟨-, hlookup⟩
      exact ⟨given, rfl, hlookup⟩
  | entry :: entries, given, hothers => by
    -- What all entries give is what the rest of them give after the first, in both directions.
    simp only [List.foldlM_cons, KeysAreTexts, List.forall_mem_cons]
    constructor
    · rintro ⟨taken, hrun, hlookup⟩
      obtain ⟨mid, hstep, hrest⟩ := bind_eq_ok.mp hrun
      obtain ⟨key, hkey, hfresh, htakes⟩ := takeText_eq_ok_iff.mp hstep
      have hmid := htakes.lookup_of_not_mem hothers
      obtain ⟨hkeys, hgives⟩ := (exists_takeEntries_texts_iff hmid).mp ⟨taken, hrest, hlookup⟩
      refine ⟨⟨⟨key, hkey⟩, hkeys⟩, fun name hname => ?_⟩
      exact (htakes.givesText_iff hkey hfresh hname).mpr (hgives name hname)
    · rintro ⟨⟨⟨key, hkey⟩, hkeys⟩, hgives⟩
      obtain ⟨hfresh, mid, htakes⟩ := exists_takesText hkey hothers hgives
      have hmid := htakes.lookup_of_not_mem hothers
      have hrest : ∀ name ∈ ns, GivesText root entries name (mid.lookup name) (t name) :=
        fun name hname => (htakes.givesText_iff hkey hfresh hname).mp (hgives name hname)
      obtain ⟨taken, hrun, hlookup⟩ := (exists_takeEntries_texts_iff hmid).mpr ⟨hkeys, hrest⟩
      have hstep : takeText root title ns given entry = .ok mid :=
        takeText_eq_ok_iff.mpr ⟨key, hkey, hfresh, htakes⟩
      exact ⟨taken, bind_eq_ok.mpr ⟨mid, hstep, hrun⟩, hlookup⟩

/-! ## Records -/

theorem settle_required_eq_ok_iff {annotations : Annotations} {piece : Members} :
    (⟨name, .required, annotations⟩ : MemberInfo).settle given = .ok piece ↔
      ∃ v, given.lookup name = some (some v) ∧ piece = [(name, v)] := by
  unfold MemberInfo.settle
  rcases given.lookup name with _ | _ | v <;> simp [eq_comm]

/-- Required members settle to what was given for them. -/
theorem settleMembers_textMembers_eq_ok_iff {out : Members} :
    settleMembers ((textMembers ns).map (·.1)) given = .ok out ↔
      (∀ name ∈ ns, ∃ v, given.lookup name = some (some v)) ∧
        out = ns.map fun name => (name, (given.lookup name).join.getD .null) := by
  induction ns generalizing out with
  | nil =>
    constructor
    · rintro ⟨⟩
      exact ⟨nofun, rfl⟩
    · rintro ⟨-, rfl⟩
      rfl
  | cons name ns ih =>
    rw [textMembers, List.map_cons, List.map_cons, ← textMembers, settleMembers, bind_eq_ok]
    rw [List.forall_mem_cons, List.map_cons]
    constructor
    · rintro ⟨_, hpiece, h⟩
      obtain ⟨v, hv, rfl⟩ := settle_required_eq_ok_iff.mp hpiece
      obtain ⟨rest, hrest, ⟨⟩⟩ := bind_eq_ok.mp h
      obtain ⟨hgiven, rfl⟩ := ih.mp hrest
      refine ⟨⟨⟨v, hv⟩, hgiven⟩, ?_⟩
      rw [hv]
      rfl
    · rintro ⟨⟨⟨v, hv⟩, hgiven⟩, rfl⟩
      refine ⟨_, settle_required_eq_ok_iff.mpr ⟨v, hv, rfl⟩, ?_⟩
      refine bind_eq_ok.mpr ⟨_, ih.mpr ⟨hgiven, rfl⟩, ?_⟩
      rw [hv]
      rfl

/-- Whether a node gives the texts of a record: it is a map with texts as keys, and has exactly one
entry for each of the names, which holds the text. -/
def GivesTexts (root node : Node) (ns : List String) (o : String → String) : Prop :=
  ∃ tag entries, node.target root = .mapping tag entries ∧ KeysAreTexts root entries ∧
    ∀ name ∈ ns, (valuesUnder root entries name).map (·.text? root) = [some (o name)]

theorem givesText_none_iff {s : String} :
    GivesText root entries name none (some (some (.str s))) ↔
      (valuesUnder root entries name).map (·.text? root) = [some s] := by
  rw [List.map_eq_singleton_iff]
  constructor
  · rintro (_ | ⟨hone, hs⟩)
    exact ⟨_, hone, hs⟩
  · rintro ⟨x, hone, hs⟩
    exact .taken hone hs

/-- Without entries a record of texts misses its members. -/
theorem ofNode_texts_ne_ok {w : Value} (hne : ns ≠ [])
    (hnode : ∀ tag entries, node.target root ≠ .mapping tag entries) :
    (Schema.record ⟨title, true, none⟩ (textMembers ns)).ofNode root node ≠ .ok w := by
  obtain ⟨name, rest, rfl⟩ := List.exists_cons_of_ne_nil hne
  rw [ofNode]
  cases htarget : node.target root with
  | scalar tag style s =>
    simp only
    split_ifs
    · intro h
      obtain ⟨out, hout, -⟩ := bind_eq_ok.mp h
      obtain ⟨hgiven, -⟩ :=
        settleMembers_textMembers_eq_ok_iff.mp (NodeResult.of_eq_ok_iff.mp hout)
      obtain ⟨v, hv⟩ := hgiven name List.mem_cons_self
      cases hv
    · exact nofun
  | mapping tag entries => exact absurd htarget (hnode tag entries)
  | sequence | anchored | reference => exact nofun

/-- **Records of texts are read from maps of texts.** -/
theorem ofNode_texts_eq_ok_iff {w : Value} (hne : ns ≠ []) :
    (Schema.record ⟨title, true, none⟩ (textMembers ns)).ofNode root node = .ok w ↔
      ∃ o : String → String, GivesTexts root node ns o ∧
        w = .map (ns.map fun name => (name, .str (o name))) := by
  have hnothing : ∀ other ∉ ns, ([] : GivenMembers).lookup other = none := fun _ _ => rfl
  constructor
  · intro h
    obtain ⟨tag, entries, htarget⟩ : ∃ tag entries, node.target root = .mapping tag entries := by
      by_contra hnot
      push Not at hnot
      exact ofNode_texts_ne_ok hne hnot h
    rw [ofNode_record_of_target _ _ htarget] at h
    obtain ⟨given, hrun, h⟩ := bind_eq_ok.mp h
    obtain ⟨out, hout, ⟨⟩⟩ := bind_eq_ok.mp h
    obtain ⟨hgiven, rfl⟩ := settleMembers_textMembers_eq_ok_iff.mp (NodeResult.of_eq_ok_iff.mp hout)
    obtain ⟨hkeys, hgives⟩ :=
      (exists_takeEntries_texts_iff hnothing).mp ⟨given, hrun, fun _ _ => rfl⟩
    have htexts : ∀ name ∈ ns, ∃ s, given.lookup name = some (some (.str s)) ∧
        (valuesUnder root entries name).map (·.text? root) = [some s] := by
      intro name hname
      obtain ⟨v, hv⟩ := hgiven name hname
      have hone := hgives name hname
      rw [hv] at hone
      obtain _ | ⟨hvalue, hs⟩ := hone
      exact ⟨_, hv, givesText_none_iff.mp (.taken hvalue hs)⟩
    choose! o hlookup hvalues using htexts
    refine ⟨o, ⟨tag, entries, htarget, hkeys, hvalues⟩, ?_⟩
    refine congrArg Value.map (List.map_congr_left fun name hname => ?_)
    rw [hlookup name hname]
    rfl
  · rintro ⟨o, ⟨tag, entries, htarget, hkeys, hvalues⟩, rfl⟩
    have hgives : ∀ name ∈ ns, GivesText root entries name none (some (some (.str (o name)))) :=
      fun name hname => givesText_none_iff.mpr (hvalues name hname)
    obtain ⟨given, hrun, hlookup⟩ :=
      (exists_takeEntries_texts_iff hnothing).mpr ⟨hkeys, hgives⟩
    have hout := settleMembers_textMembers_eq_ok_iff.mpr
      ⟨fun name hname => ⟨_, hlookup name hname⟩, rfl⟩
    rw [ofNode_record_of_target _ _ htarget]
    refine bind_eq_ok.mpr ⟨given, hrun, ?_⟩
    refine bind_eq_ok.mpr ⟨_, NodeResult.of_eq_ok_iff.mpr hout, ?_⟩
    refine congrArg (fun ms => Except.ok (Value.map ms)) (List.map_congr_left fun name hname => ?_)
    rw [hlookup name hname]
    rfl

end Schema

end LogForwarder
