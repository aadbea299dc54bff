import LogForwarder.Proofs.Cluster.Grammar
import Mathlib.Computability.RegularExpressions

/-!
# Patterns of identifiers

The patterns that identifiers are to match from end to end, as regular expressions.

1. The words of each pattern are those of its grammar: `mem_piecePattern`, `mem_namePattern`,
   `mem_labelPattern` and `mem_tagPattern`. That of a name is one of pieces with dots between them,
   which is how a name is cut.
2. So the checks, the patterns and the grammars agree on every text (`checks_decide_grammars`).
-/

namespace LogForwarder.Identifier

open RegularExpression

/-! ## Classes of characters -/

/-- The characters from one to another. -/
def charRange (first last : Char) : List Char :=
  (List.range' first.toNat (last.toNat + 1 - first.toNat)).map Char.ofNat

/-- The class `[a-z0-9]`. -/
def smallClass : List Char := charRange 'a' 'z' ++ charRange '0' '9'

/-- The class `[A-Za-z0-9_]`. -/
def wordClass : List Char := charRange 'A' 'Z' ++ smallClass ++ ['_']

/-- One of some characters. -/
def oneOf (chars : List Char) : RegularExpression Char := (chars.map char).sum

/-- Something, or nothing. -/
def perhaps (P : RegularExpression Char) : RegularExpression Char := 1 + P

variable {chars ends : List Char} {w : List Char}

/-- The characters up to one before the surrogates are those in between. -/
theorem mem_charRange {first last c : Char} (h : last.toNat < 0xD800) :
    c ∈ charRange first last ↔ first ≤ c ∧ c ≤ last := by
  have hle : ∀ a b : Char, a ≤ b ↔ a.toNat ≤ b.toNat := fun _ _ => Iff.rfl
  rw [charRange, List.mem_map, hle, hle]
  constructor
  · rintro ⟨n, hn, rfl⟩
    rw [List.mem_range'_1] at hn
    have hvalid : n.isValidChar := .inl (by omega)
    have hn' : (Char.ofNat n).toNat = n := by
      rw [Char.ofNat, dif_pos hvalid]
      rfl
    omega
  · rintro ⟨hfirst, hlast⟩
    exact ⟨c.toNat, List.mem_range'_1.mpr (by omega), Char.ofNat_toNat c⟩

theorem mem_smallClass {c : Char} : c ∈ smallClass ↔ IsSmall c := by
  rw [smallClass, List.mem_append, mem_charRange (by decide), mem_charRange (by decide)]
  rfl

theorem mem_wordClass {c : Char} : c ∈ wordClass ↔ IsWord c := by
  rw [wordClass, List.mem_append, List.mem_append, mem_charRange (by decide), mem_smallClass,
    List.mem_singleton, or_assoc]
  rfl

/-! ## Words -/

theorem mem_oneOf : w ∈ (oneOf chars).matches' ↔ ∃ c ∈ chars, w = [c] := by
  induction chars with
  | nil =>
    constructor
    · rintro ⟨⟩
    · rintro ⟨_, ⟨⟩, _⟩
  | cons c chars ih =>
    have hsum : oneOf (c :: chars) = char c + oneOf chars := List.sum_cons
    rw [hsum, matches'_add, Language.mem_add, ih, matches'_char, List.exists_mem_cons_iff]
    rfl

theorem mem_perhaps {P : RegularExpression Char} :
    w ∈ (perhaps P).matches' ↔ w = [] ∨ w ∈ P.matches' := by
  rw [perhaps, matches'_add, Language.mem_add, matches'_epsilon, Language.mem_one]

theorem mem_star_oneOf : w ∈ (oneOf chars).star.matches' ↔ ∀ c ∈ w, c ∈ chars := by
  rw [matches'_star, Language.mem_kstar]
  constructor
  · rintro ⟨parts, rfl, hparts⟩ c hc
    obtain ⟨part, hpart, hc⟩ := List.mem_flatten.mp hc
    obtain ⟨d, hd, rfl⟩ := mem_oneOf.mp (hparts part hpart)
    exact List.mem_singleton.mp hc ▸ hd
  · intro h
    -- A word is put together of its characters.
    have hparts : w = (w.map fun c => [c]).flatten := by
      rw [← List.flatMap_def, List.flatMap_singleton']
    refine ⟨w.map fun c => [c], hparts, fun part hpart => ?_⟩
    obtain ⟨c, hc, rfl⟩ := List.mem_map.mp hpart
    exact mem_oneOf.mpr ⟨c, h c hc, rfl⟩

/-- Repetition at will up to a bound gives the words that are not longer. -/
theorem mem_perhaps_oneOf_pow {n : ℕ} :
    w ∈ (perhaps (oneOf chars) ^ n).matches' ↔ w.length ≤ n ∧ ∀ c ∈ w, c ∈ chars := by
  rw [matches'_pow]
  induction n generalizing w with
  | zero =>
    rw [pow_zero, Language.mem_one, Nat.le_zero, List.length_eq_zero_iff]
    exact ⟨fun h => ⟨h, by rw [h]; exact nofun⟩, And.left⟩
  | succ n ih =>
    rw [pow_succ', Language.mem_mul]
    constructor
    · rintro ⟨a, ha, b, hb, rfl⟩
      obtain ⟨hlength, hb⟩ := ih.mp hb
      rcases mem_perhaps.mp ha with rfl | ha
      · exact ⟨by simpa using hlength.trans n.le_succ, hb⟩
      · obtain ⟨c, hc, rfl⟩ := mem_oneOf.mp ha
        exact ⟨by simpa using hlength, List.forall_mem_cons.mpr ⟨hc, hb⟩⟩
    · rintro ⟨hlength, h⟩
      cases w with
      | nil => exact ⟨[], mem_perhaps.mpr (.inl rfl), [], ih.mpr ⟨n.zero_le, h⟩, rfl⟩
      | cons c w =>
        obtain ⟨hc, hw⟩ := List.forall_mem_cons.mp h
        exact ⟨[c], mem_perhaps.mpr (.inr (mem_oneOf.mpr ⟨c, hc, rfl⟩)), w,
          ih.mpr ⟨Nat.le_of_succ_le_succ hlength, hw⟩, rfl⟩

/-! ## Words with ends -/

/-- The pattern of words of one class whose ends are of another. -/
def framed (ends chars : List Char) : RegularExpression Char :=
  oneOf ends * perhaps ((oneOf chars).star * oneOf ends)

theorem mem_framed (hends : ∀ c ∈ ends, c ∈ chars) :
    w ∈ (framed ends chars).matches' ↔
      w ≠ [] ∧ (∀ c ∈ w, c ∈ chars) ∧ (∀ c ∈ w.head?, c ∈ ends) ∧ ∀ c ∈ w.getLast?, c ∈ ends := by
  rw [framed, matches'_mul, Language.mem_mul]
  constructor
  · rintro ⟨_, hfirst, rest, hrest, rfl⟩
    obtain ⟨a, ha, rfl⟩ := mem_oneOf.mp hfirst
    rcases mem_perhaps.mp hrest with rfl | hrest
    · simpa [ha] using hends a ha
    · rw [matches'_mul, Language.mem_mul] at hrest
      obtain ⟨middle, hmiddle, _, hlast, rfl⟩ := hrest
      obtain ⟨b, hb, rfl⟩ := mem_oneOf.mp hlast
      refine ⟨nofun, fun c hc => ?_, by simpa using ha, by simpa [List.getLast?_cons] using hb⟩
      simp only [List.singleton_append, List.mem_cons, List.mem_append, List.not_mem_nil,
        or_false] at hc
      rcases hc with rfl | hc | rfl
      · exact hends _ ha
      · exact mem_star_oneOf.mp hmiddle c hc
      · exact hends _ hb
  · rintro ⟨hne, hchars, hfirst, hlast⟩
    obtain ⟨a, rest, rfl⟩ := List.exists_cons_of_ne_nil hne
    have ha := mem_oneOf.mpr ⟨a, hfirst a rfl, rfl⟩
    rcases List.eq_nil_or_concat rest with rfl | ⟨middle, b, rfl⟩
    · exact ⟨[a], ha, [], mem_perhaps.mpr (.inl rfl), rfl⟩
    · rw [List.concat_eq_append] at hchars hlast ⊢
      have hb := mem_oneOf.mpr ⟨b, hlast b (by simp [List.getLast?_cons]), rfl⟩
      have hmiddle := mem_star_oneOf.mpr fun c hc =>
        hchars c (List.mem_cons_of_mem a (List.mem_append_left [b] hc))
      refine ⟨[a], ha, middle ++ [b], mem_perhaps.mpr (.inr ?_), rfl⟩
      rw [matches'_mul]
      exact Language.append_mem_mul hmiddle hb

/-! ## The patterns -/

/-- The pattern of a namespace, `[a-z0-9]([-a-z0-9]*[a-z0-9])?`. -/
def piecePattern : RegularExpression Char := framed smallClass ('-' :: smallClass)

/-- The pattern of a name, `[a-z0-9]([-a-z0-9]*[a-z0-9])?(\.[a-z0-9]([-a-z0-9]*[a-z0-9])?)*`. -/
def namePattern : RegularExpression Char := piecePattern * (char '.' * piecePattern).star

/-- The pattern of the value of a label, `[a-z0-9]([-a-z0-9_.]*[a-z0-9])?`. -/
def labelPattern : RegularExpression Char :=
  framed smallClass ('-' :: smallClass ++ ['_', '.'])

/-- The pattern of an image tag, `[A-Za-z0-9_][A-Za-z0-9_.-]{0,127}`. -/
def tagPattern : RegularExpression Char :=
  oneOf wordClass * perhaps (oneOf (wordClass ++ ['.', '-'])) ^ 127

theorem mem_piecePattern : w ∈ piecePattern.matches' ↔ IsPiece w := by
  have hclass : ∀ c, c ∈ '-' :: smallClass ↔ IsSmall c ∨ c = '-' := fun c => by
    rw [List.mem_cons, mem_smallClass, or_comm]
  -- At an end, only the hyphen is excluded.
  have hend : ∀ {o : Option Char}, (∀ c ∈ o, IsSmall c ∨ c = '-') →
      ((∀ c ∈ o, IsSmall c) ↔ o ≠ some '-') := by
    intro o ho
    constructor
    · rintro h rfl
      exact not_isSmall_hyphen (h '-' rfl)
    · intro hne c hc
      exact (ho c hc).resolve_right fun e => hne (e ▸ hc)
  rw [piecePattern, mem_framed fun c => List.mem_cons_of_mem '-']
  simp only [hclass, mem_smallClass]
  constructor
  · rintro ⟨hne, hchars, hfirst, hlast⟩
    exact ⟨hne, hchars, (hend fun c hc => .inl (hfirst c hc)).mp hfirst,
      (hend fun c hc => .inl (hlast c hc)).mp hlast⟩
  · rintro ⟨hne, hchars, hfirst, hlast⟩
    exact ⟨hne, hchars, (hend fun c hc => hchars c (List.mem_of_mem_head? hc)).mpr hfirst,
      (hend fun c hc => hchars c (List.mem_of_mem_getLast? hc)).mpr hlast⟩

theorem IsPiece.not_mem_dot {piece : List Char} (h : IsPiece piece) : '.' ∉ piece := fun hdot =>
  (h.chars '.' hdot).elim not_isSmall_dot (by decide)

theorem mem_dot_piece {part : List Char} :
    part ∈ (char '.' * piecePattern).matches' ↔ ∃ p, IsPiece p ∧ part = '.' :: p := by
  rw [matches'_mul, Language.mem_mul, matches'_char]
  constructor
  · rintro ⟨_, rfl, p, hp, rfl⟩
    exact ⟨p, mem_piecePattern.mp hp, rfl⟩
  · rintro ⟨p, hp, rfl⟩
    exact ⟨['.'], rfl, p, mem_piecePattern.mpr hp, rfl⟩

/-- Pieces with a dot before each are what follows the first piece of a name. -/
theorem isPiece_of_mem_splitOn {p : List Char} {parts : List (List Char)} (hp : IsPiece p)
    (hparts : ∀ part ∈ parts, part ∈ (char '.' * piecePattern).matches') :
    ∀ q ∈ (p ++ parts.flatten).splitOn '.', IsPiece q := by
  induction parts generalizing p with
  | nil =>
    rw [List.flatten_nil, List.append_nil, List.splitOn_eq_singleton hp.not_mem_dot]
    exact List.forall_mem_singleton.mpr hp
  | cons part parts ih =>
    obtain ⟨hpart, hrest⟩ := List.forall_mem_cons.mp hparts
    obtain ⟨next, hnext, rfl⟩ := mem_dot_piece.mp hpart
    rw [List.flatten_cons, List.cons_append,
      List.splitOn_append_cons_self_of_not_mem hp.not_mem_dot]
    exact List.forall_mem_cons.mpr ⟨hp, ih hnext hrest⟩

theorem intercalate_dot (p : List Char) (pieces : List (List Char)) :
    ['.'].intercalate (p :: pieces) = p ++ (pieces.map ('.' :: ·)).flatten := by
  induction pieces generalizing p with
  | nil => rw [List.intercalate_singleton, List.map_nil, List.flatten_nil, List.append_nil]
  | cons q pieces ih =>
    rw [List.intercalate_cons_cons, ih, List.map_cons, List.flatten_cons, List.append_assoc]
    rfl

theorem mem_namePattern :
    w ∈ namePattern.matches' ↔ ∀ piece ∈ w.splitOn '.', IsPiece piece := by
  rw [namePattern, matches'_mul, Language.mem_mul, matches'_star]
  constructor
  · rintro ⟨p, hp, _, hrest, rfl⟩
    obtain ⟨parts, rfl, hparts⟩ := Language.mem_kstar.mp hrest
    exact isPiece_of_mem_splitOn (mem_piecePattern.mp hp) hparts
  · intro h
    obtain ⟨p, pieces, hsplit⟩ := List.exists_cons_of_ne_nil (List.splitOn_ne_nil '.' w)
    rw [hsplit] at h
    obtain ⟨hp, hpieces⟩ := List.forall_mem_cons.mp h
    refine ⟨p, mem_piecePattern.mpr hp, _, Language.mem_kstar.mpr ⟨_, rfl, fun part hpart => ?_⟩,
      (intercalate_dot p pieces).symm.trans (hsplit ▸ List.intercalate_splitOn '.')⟩
    obtain ⟨q, hq, rfl⟩ := List.mem_map.mp hpart
    exact mem_dot_piece.mpr ⟨q, hpieces q hq, rfl⟩

theorem mem_labelPattern :
    w ∈ labelPattern.matches' ↔
      w ≠ [] ∧ (∀ c ∈ w, isInLabel c) ∧ (∀ c ∈ w.head?, IsSmall c) ∧
        ∀ c ∈ w.getLast?, IsSmall c := by
  have hclass : ∀ c, c ∈ '-' :: smallClass ++ ['_', '.'] ↔ isInLabel c := fun c => by
    rw [isInLabel_iff, List.mem_append, List.mem_cons, mem_smallClass, List.mem_pair,
      or_comm (a := c = '-'), or_assoc]
  rw [labelPattern, mem_framed fun c h => List.mem_append_left _ (List.mem_cons_of_mem _ h)]
  simp only [hclass, mem_smallClass]

theorem mem_tagPattern :
    w ∈ tagPattern.matches' ↔
      w ≠ [] ∧ (∀ c ∈ w, isInTag c) ∧ (∀ c ∈ w.head?, IsWord c) ∧ w.length ≤ 128 := by
  have hclass : ∀ c, c ∈ wordClass ++ ['.', '-'] ↔ isInTag c := fun c => by
    rw [isInTag_iff, List.mem_append, mem_wordClass, List.mem_pair]
  rw [tagPattern, matches'_mul, Language.mem_mul]
  simp only [mem_oneOf, mem_perhaps_oneOf_pow, hclass, mem_wordClass]
  constructor
  · rintro ⟨_, ⟨c, hc, rfl⟩, rest, ⟨hlength, hrest⟩, rfl⟩
    exact ⟨nofun, List.forall_mem_cons.mpr ⟨isInTag_iff.mpr (.inl hc), hrest⟩, by simpa using hc,
      Nat.succ_le_succ hlength⟩
  · rintro ⟨hne, hchars, hfirst, hlength⟩
    obtain ⟨c, rest, rfl⟩ := List.exists_cons_of_ne_nil hne
    exact ⟨[c], ⟨c, hfirst c rfl, rfl⟩, rest,
      ⟨Nat.le_of_succ_le_succ hlength, (List.forall_mem_cons.mp hchars).2⟩, rfl⟩

/-! ## The checks -/

section

variable {t : String} {c : Char}

theorem getLast?_append_singleton : (t ++ String.singleton c).toList.getLast? = some c := by
  rw [String.toList_append, String.toList_singleton, List.getLast?_concat]

/-- What comes last in a name may come last in a label. -/
theorem isSmall_of_checkName (h : checkName (t ++ String.singleton c) = .ok ()) : IsSmall c := by
  obtain ⟨-, -, hname⟩ := check_eq_ok_iff.mp h
  obtain ⟨-, -, -, hlast⟩ := isLabel_iff.mp (isLabel_of_isName hname)
  exact hlast c getLast?_append_singleton

/-- No identifier ends with a line end. -/
theorem checks_refuse_lineEnd (t : String) :
    ∀ check ∈ [checkName, checkNamespace, checkLabel, checkImageTag],
      check (t ++ String.singleton '\n') ≠ .ok () := by
  have hsmall : ¬IsSmall '\n' := by
    unfold IsSmall
    decide
  have hname : checkName (t ++ String.singleton '\n') ≠ .ok () := fun h =>
    hsmall (isSmall_of_checkName h)
  have htag : ¬(IsWord '\n' ∨ '\n' = '.' ∨ '\n' = '-') := by
    unfold IsWord IsSmall
    decide
  simp only [List.forall_mem_cons, List.not_mem_nil, false_imp_iff, implies_true, and_true]
  refine ⟨hname, fun h => hname (checkName_of_checkNamespace h), fun h => hsmall ?_,
    fun h => htag ?_⟩
  · exact (checkLabel_accepts_iff.mp h).last '\n' getLast?_append_singleton
  · exact (checkImageTag_accepts_iff.mp h).chars '\n'
      (List.mem_of_mem_getLast? getLast?_append_singleton)

/-- Between two dots in a row there is no piece. -/
theorem not_isSubdomain_of_dots (t u : String) : ¬IsSubdomain (t ++ ".." ++ u) := by
  intro h
  refine (h.pieces [] ?_).nonempty rfl
  have hdots : (t ++ ".." ++ u).toList = t.toList ++ '.' :: ([] ++ '.' :: u.toList) := by
    rw [String.toList_append, String.toList_append, List.append_assoc]
    rfl
  rw [hdots, List.splitOn_append_cons_self, List.splitOn_append_cons_self, List.splitOn_nil]
  exact List.mem_append_right _ List.mem_cons_self

end

/-- **The checks decide their grammars.** Each check accepts exactly the texts of its grammar, and
the form that it looks at is its pattern. So a line end behind an identifier is refused, and in a
name so are a dot at the end, two dots in a row, and a piece that begins with a hyphen. -/
theorem checks_decide_grammars (s : String) :
    (checkName s = .ok () ↔ IsSubdomain s) ∧ (isName s ↔ s.toList ∈ namePattern.matches') ∧
    (checkNamespace s = .ok () ↔ IsDnsLabel s) ∧
    (isNamespace s ↔ s.toList ∈ piecePattern.matches') ∧
    (checkLabel s = .ok () ↔ IsLabelValue s) ∧ (isLabel s ↔ s.toList ∈ labelPattern.matches') ∧
    (checkImageTag s = .ok () ↔ IsTag s) ∧ (isImageTag s ↔ s.toList ∈ tagPattern.matches') ∧
    (∀ t, s = t ++ "\n" →
      ∀ check ∈ [checkName, checkNamespace, checkLabel, checkImageTag], check s ≠ .ok ()) ∧
    (∀ t, s = t ++ "." → checkName s ≠ .ok ()) ∧
    (∀ t u, s = t ++ ".." ++ u → checkName s ≠ .ok ()) ∧ (s = "a.-b" → checkName s ≠ .ok ()) := by
  refine ⟨checkName_accepts_iff, ?_, checkNamespace_accepts_iff, ?_, checkLabel_accepts_iff, ?_,
    checkImageTag_accepts_iff, ?_, ?_, ?_, ?_, ?_⟩
  · rw [isName_iff, mem_namePattern]
  · rw [isNamespace_iff, mem_piecePattern]
  · rw [isLabel_iff, mem_labelPattern, ne_eq, ne_eq, String.toList_eq_nil_iff]
  · rw [isImageTag_iff, mem_tagPattern, ne_eq, ne_eq, String.toList_eq_nil_iff,
      String.length_toList]
  · rintro t rfl
    exact checks_refuse_lineEnd t
  · rintro t rfl h
    exact not_isSmall_dot (isSmall_of_checkName h)
  · rintro t u rfl h
    exact not_isSubdomain_of_dots t u (checkName_accepts_iff.mp h)
  · rintro rfl
    decide

end LogForwarder.Identifier
