import LogForwarder.Proofs.Cluster.Identifier
import Mathlib.Data.Char

/-!
# Grammars of identifiers

What the cluster takes for a name, said without the checks. A name is cut at its dots; every piece
of it, and every namespace, is of small letters, digits and hyphens, with no hyphen at an end.

1. A name is read piece by piece (`isNameFrom_iff_of_splitOn`), and a piece one character after the
   other (`isNameFrom_false_iff`).
2. So each check accepts exactly its grammar: `checkName_accepts_iff`, `checkNamespace_accepts_iff`,
   `checkLabel_accepts_iff` and `checkImageTag_accepts_iff`.
3. The form of a name is one of a label as well (`isLabel_of_isName`), so that for a name in place
   of a label only the length remains to be looked at (`checkLabel_and_checkName_iff`).
-/

namespace LogForwarder.Identifier

/-! ## The grammars -/

/-- Whether a character is a digit or a letter from `a` to `z`. -/
def IsSmall (c : Char) : Prop := 'a' ≤ c ∧ c ≤ 'z' ∨ '0' ≤ c ∧ c ≤ '9'

/-- Whether a character may begin an image tag: a digit, a letter of either case or an
underscore. -/
def IsWord (c : Char) : Prop := 'A' ≤ c ∧ c ≤ 'Z' ∨ IsSmall c ∨ c = '_'

/-- What stands between the dots of a name. -/
structure IsPiece (cs : List Char) : Prop where
  nonempty : cs ≠ []
  chars : ∀ c ∈ cs, IsSmall c ∨ c = '-'
  first : cs.head? ≠ some '-'
  last : cs.getLast? ≠ some '-'

/-- A name of an object: a subdomain as RFC 1123 has it. -/
structure IsSubdomain (s : String) : Prop where
  size : 1 ≤ s.utf8ByteSize ∧ s.utf8ByteSize ≤ 253
  pieces : ∀ piece ∈ s.toList.splitOn '.', IsPiece piece

/-- A name of a namespace: a label as RFC 1123 has it. -/
structure IsDnsLabel (s : String) : Prop where
  size : 1 ≤ s.utf8ByteSize ∧ s.utf8ByteSize ≤ 63
  piece : IsPiece s.toList

/-- A value of a label. -/
structure IsLabelValue (s : String) : Prop where
  size : 1 ≤ s.utf8ByteSize ∧ s.utf8ByteSize ≤ 63
  chars : ∀ c ∈ s.toList, IsSmall c ∨ c = '-' ∨ c = '_' ∨ c = '.'
  first : ∀ c ∈ s.toList.head?, IsSmall c
  last : ∀ c ∈ s.toList.getLast?, IsSmall c

/-- A tag of an image. -/
structure IsTag (s : String) : Prop where
  length : 1 ≤ s.length ∧ s.length ≤ 128
  chars : ∀ c ∈ s.toList, IsWord c ∨ c = '.' ∨ c = '-'
  first : s.toList.head? ≠ some '.' ∧ s.toList.head? ≠ some '-'

/-! ## Characters -/

theorem isPlain_iff {c : Char} : isPlain c ↔ IsSmall c := by
  have hlower : c.isLower ↔ 'a' ≤ c ∧ c ≤ 'z' :=
    Bool.and_eq_true_iff.trans (and_congr decide_eq_true_iff decide_eq_true_iff)
  have hdigit : c.isDigit ↔ '0' ≤ c ∧ c ≤ '9' :=
    Bool.and_eq_true_iff.trans (and_congr decide_eq_true_iff decide_eq_true_iff)
  rw [isPlain, Bool.or_eq_true, hlower, hdigit, IsSmall]

theorem isInLabel_iff {c : Char} :
    isInLabel c ↔ IsSmall c ∨ c = '-' ∨ c = '_' ∨ c = '.' := by
  simp only [isInLabel, Bool.or_eq_true, beq_iff_eq, isPlain_iff, or_assoc]

theorem isTagStart_iff {c : Char} : isTagStart c ↔ IsWord c := by
  have hsmall : c.isLower ∨ c.isDigit ↔ IsSmall c := by
    rw [← isPlain_iff, isPlain, Bool.or_eq_true]
  have hupper : c.isUpper ↔ 'A' ≤ c ∧ c ≤ 'Z' := decide_eq_true_iff
  have halpha : c.isAlpha ↔ c.isUpper ∨ c.isLower := Bool.or_eq_true_iff
  simp only [isTagStart, Char.isAlphanum, Bool.or_eq_true, beq_iff_eq, halpha, hupper,
    or_assoc, IsWord, ← hsmall]

theorem isInTag_iff {c : Char} : isInTag c ↔ IsWord c ∨ c = '.' ∨ c = '-' := by
  simp only [isInTag, Bool.or_eq_true, beq_iff_eq, isTagStart_iff, or_assoc]

theorem not_isSmall_hyphen : ¬IsSmall '-' := by
  unfold IsSmall
  decide

theorem not_isSmall_dot : ¬IsSmall '.' := by
  unfold IsSmall
  decide

/-! ## Names -/

/-- A piece is read as the characters before it allow: a hyphen does not come first, and something
other than a hyphen comes last. -/
theorem isNameFrom_false_iff {before : Before} {cs : List Char} :
    isNameFrom false before cs ↔
      (∀ c ∈ cs, IsSmall c ∨ c = '-') ∧ (before = .start → cs.head? ≠ some '-') ∧
        cs.getLast? ≠ some '-' ∧ (cs = [] → before = .plain) := by
  induction cs generalizing before with
  | nil => cases before <;> simp [isNameFrom]
  | cons c cs ih =>
    rw [isNameFrom, List.forall_mem_cons, List.head?_cons, List.getLast?_cons]
    by_cases hplain : isPlain c
    · -- After a letter anything may follow, or nothing.
      have hsmall : IsSmall c := isPlain_iff.mp hplain
      have hne : c ≠ '-' := fun e => not_isSmall_hyphen (e ▸ hsmall)
      rw [if_pos hplain, ih]
      cases hlast : cs.getLast? <;> simp [hsmall, hne]
    · have hsmall : ¬IsSmall c := fun h => hplain (isPlain_iff.mpr h)
      rw [if_neg hplain]
      by_cases hhyphen : c = '-'
      · rw [if_pos hhyphen, Bool.and_eq_true, ih]
        cases cs with
        | nil => simp [hhyphen]
        | cons d ds =>
          simp only [hhyphen, List.getLast?_cons, List.head?_cons, Option.getD_some]
          simp [and_left_comm]
      · simp [hhyphen, hsmall]

theorem isNameFrom_start_iff {cs : List Char} : isNameFrom false .start cs ↔ IsPiece cs := by
  rw [isNameFrom_false_iff]
  constructor
  · rintro ⟨hchars, hfirst, hlast, hempty⟩
    exact ⟨fun h => absurd (hempty h) nofun, hchars, hfirst rfl, hlast⟩
  · rintro ⟨hempty, hchars, hfirst, hlast⟩
    exact ⟨hchars, fun _ => hfirst, hlast, fun h => absurd h hempty⟩

/-- A name is read piece by piece. What comes before it is before its first piece, and a dot before
every other. -/
theorem isNameFrom_iff_of_splitOn {before : Before} {cs piece : List Char}
    {pieces : List (List Char)} (h : cs.splitOn '.' = piece :: pieces) :
    isNameFrom true before cs ↔ isNameFrom false before piece ∧ ∀ p ∈ pieces, IsPiece p := by
  induction cs generalizing before piece pieces with
  | nil =>
    rw [List.splitOn_nil] at h
    cases h
    cases before <;> simp [isNameFrom]
  | cons c cs ih =>
    rw [List.splitOn_cons_eq_if_modifyHead] at h
    obtain ⟨next, others, hcs⟩ := List.exists_cons_of_ne_nil (List.splitOn_ne_nil '.' cs)
    rw [hcs] at h
    rw [isNameFrom]
    by_cases hdot : c = '.'
    · -- The piece before the dot has come to its end.
      subst hdot
      cases h
      have hplain : isPlain '.' = false := by decide
      rw [List.forall_mem_cons, ← isNameFrom_start_iff, ← ih hcs]
      cases before <;> simp [isNameFrom, hplain]
    · rw [if_neg (by simpa using hdot)] at h
      cases h
      rw [isNameFrom]
      split_ifs with hplain hhyphen
      · exact ih hcs
      · rw [Bool.and_eq_true, Bool.and_eq_true, ih hcs, and_assoc]
      · simp [hdot]

theorem isName_iff {s : String} : isName s ↔ ∀ piece ∈ s.toList.splitOn '.', IsPiece piece := by
  obtain ⟨piece, pieces, h⟩ := List.exists_cons_of_ne_nil (List.splitOn_ne_nil '.' s.toList)
  rw [isName, isNameFrom_iff_of_splitOn h, h, List.forall_mem_cons, isNameFrom_start_iff]

theorem isNamespace_iff {s : String} : isNamespace s ↔ IsPiece s.toList := isNameFrom_start_iff

/-! ## Labels -/

theorem isLabelFrom_iff {ends : Bool} {cs : List Char} :
    isLabelFrom ends cs ↔
      (∀ c ∈ cs, isInLabel c) ∧ (∀ c ∈ cs.getLast?, IsSmall c) ∧ (cs = [] → ends) := by
  induction cs generalizing ends with
  | nil => simp [isLabelFrom]
  | cons c cs ih =>
    rw [isLabelFrom, Bool.and_eq_true, ih, List.forall_mem_cons, List.getLast?_cons, and_assoc]
    cases cs with
    | nil => simp [isPlain_iff]
    | cons d ds => simp [List.getLast?_cons]

theorem isLabel_iff {s : String} :
    isLabel s ↔ s ≠ "" ∧ (∀ c ∈ s.toList, isInLabel c) ∧ (∀ c ∈ s.toList.head?, IsSmall c) ∧
      ∀ c ∈ s.toList.getLast?, IsSmall c := by
  rw [isLabel, ne_eq, ← String.toList_eq_nil_iff]
  cases hcs : s.toList with
  | nil => simp
  | cons c cs =>
    have hin : IsSmall c → isInLabel c := fun h => isInLabel_iff.mpr (.inl h)
    rw [Bool.and_eq_true, isLabelFrom_iff, isPlain_iff, List.forall_mem_cons, List.getLast?_cons]
    cases cs with
    | nil => simpa using hin
    | cons d ds =>
      simp only [List.getLast?_cons, List.head?_cons, Option.mem_some_iff, forall_eq',
        reduceCtorEq, not_false_eq_true, true_and, Option.getD_some, false_imp_iff, and_true]
      constructor
      · rintro ⟨hc, hcs, hlast⟩
        exact ⟨⟨hin hc, hcs⟩, hc, hlast⟩
      · rintro ⟨⟨-, hcs⟩, hc, hlast⟩
        exact ⟨hc, hcs, hlast⟩

/-! ## Image tags -/

theorem isImageTag_iff {s : String} :
    isImageTag s ↔ s ≠ "" ∧ (∀ c ∈ s.toList, isInTag c) ∧ (∀ c ∈ s.toList.head?, IsWord c) ∧
      s.length ≤ 128 := by
  rw [isImageTag, ne_eq, ← String.toList_eq_nil_iff, ← String.length_toList]
  cases hcs : s.toList with
  | nil => simp
  | cons c cs =>
    have hin : IsWord c → isInTag c := fun h => isInTag_iff.mpr (.inl h)
    simp only [Bool.and_eq_true, isTagStart_iff, List.all_eq_true, decide_eq_true_eq,
      List.forall_mem_cons, List.head?_cons, Option.mem_some_iff, forall_eq', List.length_cons]
    constructor
    · rintro ⟨⟨hc, hcs⟩, hlength⟩
      exact ⟨nofun, ⟨hin hc, hcs⟩, hc, by omega⟩
    · rintro ⟨-, ⟨-, hcs⟩, hc, hlength⟩
      exact ⟨⟨hc, hcs⟩, by omega⟩

/-! ## The checks -/

theorem one_le_utf8ByteSize_iff {s : String} : 1 ≤ s.utf8ByteSize ↔ s ≠ "" := by
  rw [Nat.one_le_iff_ne_zero, ne_eq, String.utf8ByteSize_eq_zero_iff]

theorem checkName_accepts_iff {s : String} : checkName s = .ok () ↔ IsSubdomain s := by
  rw [checkName, check_eq_ok_iff, isName_iff, ← one_le_utf8ByteSize_iff]
  exact ⟨fun ⟨hleast, hmost, h⟩ => ⟨⟨hleast, hmost⟩, h⟩, fun h => ⟨h.size.1, h.size.2, h.pieces⟩⟩

theorem checkNamespace_accepts_iff {s : String} : checkNamespace s = .ok () ↔ IsDnsLabel s := by
  rw [checkNamespace, check_eq_ok_iff, isNamespace_iff, ← one_le_utf8ByteSize_iff]
  exact ⟨fun ⟨hleast, hmost, h⟩ => ⟨⟨hleast, hmost⟩, h⟩, fun h => ⟨h.size.1, h.size.2, h.piece⟩⟩

theorem checkLabel_accepts_iff {s : String} : checkLabel s = .ok () ↔ IsLabelValue s := by
  simp only [checkLabel, check_eq_ok_iff, isLabel_iff, isInLabel_iff, ← one_le_utf8ByteSize_iff]
  constructor
  · rintro ⟨hleast, hmost, -, hchars, hfirst, hlast⟩
    exact ⟨⟨hleast, hmost⟩, hchars, hfirst, hlast⟩
  · rintro ⟨⟨hleast, hmost⟩, hchars, hfirst, hlast⟩
    exact ⟨hleast, hmost, hleast, hchars, hfirst, hlast⟩

theorem not_isWord_of_eq {c : Char} (h : c = '.' ∨ c = '-') : ¬IsWord c := by
  unfold IsWord IsSmall
  rcases h with rfl | rfl <;> decide

theorem checkImageTag_accepts_iff {s : String} : checkImageTag s = .ok () ↔ IsTag s := by
  have hok : checkImageTag s = .ok () ↔ isImageTag s := by
    unfold checkImageTag
    split_ifs with h <;> simp [h]
  simp only [hok, isImageTag_iff, isInTag_iff, ne_eq, ← String.length_eq_zero_iff]
  constructor
  · rintro ⟨hleast, hchars, hfirst, hmost⟩
    refine ⟨by omega, hchars, fun h => ?_, fun h => ?_⟩
    · exact not_isWord_of_eq (.inl rfl) (hfirst _ h)
    · exact not_isWord_of_eq (.inr rfl) (hfirst _ h)
  · rintro ⟨⟨hleast, hmost⟩, hchars, hdot, hhyphen⟩
    refine ⟨by omega, hchars, fun c hc => ?_, hmost⟩
    rcases hchars c (List.mem_of_mem_head? hc) with hword | rfl | rfl
    · exact hword
    · exact absurd hc hdot
    · exact absurd hc hhyphen

/-! ## Names as labels -/

/-- What goes on as a name goes on as a label. -/
theorem isLabelFrom_of_isNameFrom {before : Before} {cs : List Char}
    (h : isNameFrom true before cs) : isLabelFrom (before = .plain) cs := by
  induction cs generalizing before with
  | nil => cases before <;> first | rfl | cases h
  | cons c cs ih =>
    rw [isNameFrom] at h
    rw [isLabelFrom, Bool.and_eq_true, isInLabel_iff]
    split_ifs at h with hplain hhyphen
    · refine ⟨.inl (isPlain_iff.mp hplain), ?_⟩
      rw [hplain]
      exact ih h
    · subst hhyphen
      exact ⟨.inr (.inl rfl), ih (Bool.and_eq_true_iff.mp h).2⟩
    · simp only [Bool.and_true, Bool.and_eq_true, decide_eq_true_eq] at h
      obtain ⟨⟨rfl, -⟩, h⟩ := h
      exact ⟨.inr (.inr (.inr rfl)), ih h⟩

theorem isLabel_of_isName {s : String} (h : isName s) : isLabel s := by
  rw [isName] at h
  rw [isLabel]
  cases hcs : s.toList with
  | nil =>
    rw [hcs] at h
    cases h
  | cons c cs =>
    rw [hcs] at h
    -- Neither a hyphen nor a dot begins a name.
    have hplain : isPlain c := by
      rw [isNameFrom] at h
      split_ifs at h with hplain hhyphen
      · exact hplain
      · simp at h
      · simp at h
    have hlabel := isLabelFrom_of_isNameFrom h
    rw [isLabelFrom, hplain, Bool.and_eq_true] at hlabel
    exact Bool.and_eq_true_iff.mpr ⟨hplain, hlabel.2⟩

/-- A name in place of a label may have only as many bytes as the label. -/
theorem checkLabel_and_checkName_iff {s : String} :
    checkLabel s = .ok () ∧ checkName s = .ok () ↔ IsSubdomain s ∧ s.utf8ByteSize ≤ 63 := by
  rw [checkName_accepts_iff, and_comm]
  refine and_congr_right fun hname => ?_
  rw [← checkName_accepts_iff, checkName, check_eq_ok_iff] at hname
  rw [checkLabel, check_eq_ok_iff]
  exact ⟨fun h => h.2.1, fun h => ⟨hname.1, h, isLabel_of_isName hname.2.2⟩⟩

end LogForwarder.Identifier
