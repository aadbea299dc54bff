import LogForwarder.Proofs.Yaml.Char
import LogForwarder.Yaml.Scalar.Block
import Mathlib.Data.List.Basic

/-!
# Literal blocks read back

A text with line feeds, written as a literal block, is read back from its lines.

1. Every text is some full lines and what stands after the last line end (`exists_lines`), and the
   writer indents each line on its own (`indented_join`).
2. `readLines_map_indentBy` passes full lines, `readLines_outside` ends at a line further left.
3. `readBlock_literal` puts the header and the lines together.
-/

namespace LogForwarder.Yaml

/-! ## Full lines -/

namespace Line

/-- A line with its end. -/
structure IsFull (line : Line) : Prop where
  noBreak : ∀ c ∈ line.chars, isBreak c = false
  ending : ∃ d, isBreak d = true ∧ line.ending = [d]

/-- A line as the writer indents it. -/
def indentBy (indentation : Nat) (line : Line) : Line :=
  if line.chars = [] then line else { line with chars := pad indentation ++ line.chars }

theorem IsFull.indentBy {line : Line} (h : line.IsFull) (n : Nat) : (line.indentBy n).IsFull := by
  unfold Line.indentBy
  split
  · exact h
  · exact ⟨noBreak_pad_append h.noBreak, h.ending⟩

theorem isFull_map_indentBy {lines : List Line} (h : ∀ line ∈ lines, IsFull line) {n : Nat} :
    ∀ line ∈ lines.map (Line.indentBy n), IsFull line := by
  rw [List.forall_mem_map]
  exact fun line mem => (h line mem).indentBy n

theorem join_cons (line : Line) (lines : List Line) :
    join (line :: lines) = line.chars ++ line.ending ++ join lines := rfl

/-- Every text is full lines and what stands after the last line end. -/
theorem exists_lines (cs : List Char) :
    ∃ lines last, (∀ line ∈ lines, IsFull line) ∧ (∀ c ∈ last, isBreak c = false) ∧
      cs = join lines ++ last := by
  induction cs with
  | nil => exact ⟨[], [], by simp, by simp, rfl⟩
  | cons c cs ih =>
    obtain ⟨lines, last, full, noBreak, rfl⟩ := ih
    by_cases ends : isBreak c = true
    · refine ⟨⟨[], [c]⟩ :: lines, last, ?_, noBreak, rfl⟩
      simpa using ⟨⟨by simp, c, ends, rfl⟩, full⟩
    rw [Bool.not_eq_true] at ends
    cases lines with
    | nil => exact ⟨[], c :: last, by simp, by simpa [ends] using noBreak, rfl⟩
    | cons line lines =>
      rw [List.forall_mem_cons] at full
      refine ⟨{ line with chars := c :: line.chars } :: lines, last, ?_, noBreak, rfl⟩
      rw [List.forall_mem_cons]
      exact ⟨⟨by simpa [ends] using full.1.noBreak, full.1.ending⟩, full.2⟩

/-! ## Splitting -/

theorem join_split (cs : List Char) : join (split cs) = cs := by
  induction cs with
  | nil => rfl
  | cons c cs ih =>
    unfold split
    split
    · simp [join_cons, ih]
    · split
      · next none =>
        rw [none] at ih
        simp [join, ← ih]
      · next line lines eq =>
        rw [eq] at ih
        simp [join_cons, ← ih]

theorem split_noBreak {x : List Char} (hx : ∀ c ∈ x, isBreak c = false) (ne : x ≠ [])
    (rest : List Char) :
    ∃ more ending lines, split (x ++ rest) = ⟨x ++ more, ending⟩ :: lines := by
  induction x with
  | nil => exact absurd rfl ne
  | cons c x ih =>
    rw [List.forall_mem_cons] at hx
    rw [List.cons_append, split, if_neg (by simp [hx.1])]
    by_cases last : x = []
    · subst last
      cases h : split rest with
      | nil => exact ⟨[], [], [], by simp [h]⟩
      | cons line lines => exact ⟨line.chars, line.ending, lines, by simp [h]⟩
    · obtain ⟨more, ending, lines, eq⟩ := ih hx.2 last
      exact ⟨more, ending, lines, by simp [eq]⟩

theorem split_full {line : Line} (h : line.IsFull) (rest : List Char) :
    split (line.chars ++ line.ending ++ rest) = line :: split rest := by
  obtain ⟨chars, ending⟩ := line
  obtain ⟨noBreak, d, ends, rfl⟩ := h
  induction chars with
  | nil => simp [split, ends]
  | cons c chars ih =>
    rw [List.forall_mem_cons] at noBreak
    have tail : split (chars ++ d :: rest) = ⟨chars, [d]⟩ :: split rest := by
      simpa using ih noBreak.2
    simp [split, noBreak.1, tail]

theorem split_join {lines : List Line} (h : ∀ line ∈ lines, IsFull line) (rest : List Char) :
    split (join lines ++ rest) = lines ++ split rest := by
  induction lines with
  | nil => rfl
  | cons line lines ih =>
    rw [List.forall_mem_cons] at h
    rw [join_cons, List.append_assoc, split_full h.1, ih h.2, List.cons_append]

end Line

open Line

/-! ## Indented lines -/

section Indented

variable {n : Nat}

theorem indented_noBreak {x : List Char} (hx : ∀ c ∈ x, isBreak c = false) (rest : List Char) :
    indented n false (x ++ rest) = x ++ indented n false rest := by
  induction x with
  | nil => rfl
  | cons c x ih =>
    rw [List.forall_mem_cons] at hx
    simp [indented, hx.1, ih hx.2]

theorem indented_fresh {x : List Char} (hx : ∀ c ∈ x, isBreak c = false) (ne : x ≠ [])
    (rest : List Char) :
    indented n true (x ++ rest) = pad n ++ x ++ indented n false rest := by
  cases x with
  | nil => exact absurd rfl ne
  | cons c x =>
    rw [List.forall_mem_cons] at hx
    simp [indented, hx.1, indented_noBreak hx.2]

theorem indented_append_break {d : Char} (ends : isBreak d = true) (fresh : Bool) (cs : List Char) :
    indented n fresh (cs ++ [d]) = indented n fresh cs ++ [d] := by
  induction cs generalizing fresh with
  | nil => simp [indented, ends]
  | cons c cs ih =>
    rw [List.cons_append, indented, indented]
    split <;> simp [ih]

theorem indented_full {line : Line} (h : line.IsFull) (rest : List Char) :
    indented n true (line.chars ++ line.ending ++ rest) =
      (line.indentBy n).chars ++ (line.indentBy n).ending ++ indented n true rest := by
  obtain ⟨d, ends, ending⟩ := h.ending
  by_cases empty : line.chars = []
  · simp [indentBy, empty, ending, indented, ends]
  · rw [List.append_assoc, indented_fresh h.noBreak empty]
    simp [indentBy, empty, ending, indented, ends]

theorem indented_join {lines : List Line} (h : ∀ line ∈ lines, IsFull line) (rest : List Char) :
    indented n true (join lines ++ rest) =
      join (lines.map (indentBy n)) ++ indented n true rest := by
  induction lines with
  | nil => rfl
  | cons line lines ih =>
    rw [List.forall_mem_cons] at h
    rw [join_cons, List.append_assoc, indented_full h.1, ih h.2, List.map_cons, join_cons,
      List.append_assoc _ (join _)]

end Indented

/-! ## Reading lines -/

section Lines

variable {n : Nat} {chomping : Chomping}

theorem indent_pad_append (column : Nat) (chars ending : List Char) :
    Line.indent ⟨pad column ++ chars, ending⟩ = column + Line.indent ⟨chars, ending⟩ := by
  have all : ∀ c ∈ pad column, (c == ' ') = true := by
    intro c hc
    rw [List.eq_of_mem_replicate hc]
    rfl
  rw [Line.indent, List.takeWhile_append_of_pos all]
  simp [Line.indent, pad]

theorem indent_pad {chars : List Char} (column : Nat) (h : chars.head? ≠ some ' ')
    (ending : List Char) : Line.indent ⟨pad column ++ chars, ending⟩ = column := by
  rw [indent_pad_append]
  cases chars with
  | nil => rfl
  | cons c chars =>
    have first : c ≠ ' ' := by simpa using h
    simp [Line.indent, first]

theorem role_indented {chars : List Char} (h : chars ≠ []) (ending : List Char) :
    Line.role ⟨pad n ++ chars, ending⟩ n = .content chars := by
  obtain ⟨c, cs, rfl⟩ := List.exists_cons_of_ne_nil h
  simp [Line.role, indent_pad_append, drop_pad]

/-- Full lines are passed: what they hold is in the text or in the gap after them. -/
theorem readLines_map_indentBy (chomping : Chomping) (lines rest : List Line) (gap : BlockGap) :
    ∃ text gap', readLines true chomping n gap (lines.map (indentBy n) ++ rest) =
        (readLines true chomping n gap' rest).map (fun read => (text ++ read.1, read.2)) ∧
      gap.first ++ gap.more ++ join lines = text ++ gap'.first ++ gap'.more := by
  induction lines generalizing gap with
  | nil => exact ⟨[], gap, by simp, by simp [join]⟩
  | cons line lines ih =>
    rw [List.map_cons, List.cons_append, readLines, join_cons]
    by_cases empty : line.chars = []
    · obtain ⟨text, gap', read, eq⟩ := ih { gap with more := gap.more ++ line.ending }
      refine ⟨text, gap', ?_, ?_⟩
      · simpa [indentBy, empty, Line.role] using read
      · simpa [empty] using eq
    · obtain ⟨text, gap', read, eq⟩ := ih ⟨line.ending, [], line.chars.head?.any isBlank⟩
      refine ⟨gap.first ++ gap.more ++ line.chars ++ text, gap', ?_, ?_⟩
      · have role := role_indented (n := n) empty line.ending
        rw [indentBy, if_neg empty, role]
        simp [read, BlockGap.text, Function.comp_def]
      · simpa using eq

/-- Where a text goes on with a line further left, or ends. -/
def StopsBlock (n : Nat) (rest : List Char) : Prop :=
  rest = [] ∨ ∃ column c cs, rest = pad column ++ c :: cs ∧ column < n ∧ isGap c = false

theorem readLines_outside {rest : List Char} (h : StopsBlock n rest) (gap : BlockGap) :
    readLines true chomping n gap (split rest) = some (gap.tail chomping, split rest) := by
  rcases h with rfl | ⟨column, c, cs, rfl, left, word⟩
  · rfl
  obtain ⟨space, tab, noBreak⟩ := of_isGap_eq_false word
  have chars : ∀ d ∈ pad column ++ [c], isBreak d = false :=
    noBreak_pad_append (List.forall_mem_singleton.2 noBreak)
  obtain ⟨more, ending, lines, eq⟩ := split_noBreak chars (by simp) cs
  rw [List.append_assoc, List.singleton_append] at eq
  rw [eq, List.append_assoc, List.singleton_append, readLines]
  have indent : Line.indent ⟨pad column ++ c :: more, ending⟩ = column :=
    indent_pad column (by simpa using space) ending
  have role : Line.role ⟨pad column ++ c :: more, ending⟩ n = .outside := by
    have spaces : min column n = column := by omega
    simp [Line.role, indent, spaces, drop_pad, tab]
    omega
  rw [role]

end Lines

/-! ## The header -/

/-- The indicator of what becomes of the last line ends, as the writer sets it. -/
def Chomping.mark : Chomping → List Char
  | strip => ['-']
  | clip => []
  | keep => ['+']

/-- Whether the writer gives the indentation of a text. -/
def givesIndent (cs : List Char) : Bool := cs.head?.any fun c => isSpace c || isBreak c

theorem literalHeader_append (cs : List Char) (d : Char) :
    literalHeader (cs ++ [d]) = (if givesIndent (cs ++ [d]) then ['2'] else []) ++
      (if isBreak d then if cs.isEmpty || cs.getLast?.any isBreak then .keep else .clip
        else .strip : Chomping).mark := by
  unfold literalHeader givesIndent
  rw [List.reverse_append, List.reverse_singleton, List.singleton_append]
  simp only [List.isEmpty_reverse, List.head?_reverse]
  cases isBreak d <;> cases cs.isEmpty || cs.getLast?.any isBreak <;> rfl

theorem read?_header (given : Bool) (chomping : Chomping) (cs : List Char) :
    BlockHeader.read? ((if given then ['2'] else []) ++ chomping.mark ++ '\n' :: cs) =
      some (⟨chomping, if given then some 2 else none⟩, cs) := by
  cases given <;> cases chomping <;> rfl

section Literal

variable {n least : Nat} {cs : List Char}

/-- The indentation is found by the header, or else by the first line. -/
theorem blockIndent?_indented (hn : least - 1 + 2 = n) (printable : ∀ c ∈ cs, isPrintable c = true)
    (nonempty : cs ≠ []) (chomping : Chomping) (rest : List Char) :
    blockIndent? ⟨chomping, if givesIndent cs then some 2 else none⟩ least
      (split (indented n true cs ++ rest)) = some n := by
  obtain ⟨c, cs, rfl⟩ := List.exists_cons_of_ne_nil nonempty
  by_cases given : givesIndent (c :: cs) = true
  · simp [blockIndent?, given, hn]
  have tab : c ≠ '\t' := ne_of_isPrintable (printable c List.mem_cons_self) (by decide)
  rw [Bool.not_eq_true] at given
  have first : c ≠ ' ' ∧ isBreak c = false := by simpa [givesIndent, isSpace] using given
  have chars : ∀ d ∈ pad n ++ [c], isBreak d = false :=
    noBreak_pad_append (List.forall_mem_singleton.2 first.2)
  obtain ⟨more, ending, lines, eq⟩ := split_noBreak chars (by simp) (indented n false cs ++ rest)
  have text : indented n true (c :: cs) ++ rest =
      pad n ++ [c] ++ (indented n false cs ++ rest) := by
    simp [indented, first.2]
  have indent : Line.indent ⟨pad n ++ c :: more, ending⟩ = n :=
    indent_pad n (by simpa using first.1) ending
  rw [text, eq, List.append_assoc, List.singleton_append]
  simp [blockIndent?, given, widest?, indent, drop_pad, tab]
  omega

/-- A block scalar is read from the lines of its text. -/
theorem readBlock_of_readLines (hn : least - 1 + 2 = n)
    (printable : ∀ c ∈ cs, isPrintable c = true) (nonempty : cs ≠ []) {chomping : Chomping}
    (header : literalHeader cs = (if givesIndent cs then ['2'] else []) ++ chomping.mark)
    {tail rest : List Char}
    (read : readLines true chomping n {} (split (indented n true cs ++ tail)) =
      some (cs, split rest)) :
    readBlock true least (literalHeader cs ++ '\n' :: (indented n true cs ++ tail)) =
      some (cs, rest) := by
  rw [readBlock, header, read?_header]
  simp [blockIndent?_indented hn printable nonempty, read, join_split]

section Shapes

variable {lines : List Line} {rest : List Char} (full : ∀ line ∈ lines, IsFull line)
  (outside : StopsBlock n rest)

include full outside

/-- A text that ends with a line end, all line ends kept. -/
theorem readLines_full :
    readLines true .keep n {} (split (indented n true (join lines) ++ rest)) =
      some (join lines, split rest) := by
  have written : indented n true (join lines) = join (lines.map (indentBy n)) := by
    simpa [indented] using indented_join full []
  obtain ⟨text, gap, read, eq⟩ := readLines_map_indentBy (n := n) .keep lines
    (split rest) {}
  rw [written, split_join (isFull_map_indentBy full), read, readLines_outside outside]
  simpa [BlockGap.tail] using eq.symm

/-- A text whose last line is not empty, with what is kept of the end of that line. -/
theorem readLines_last (chomping : Chomping) {line : Line} (h : line.IsFull)
    (ne : line.chars ≠ []) :
    readLines true chomping n {}
        (split (indented n true (join lines ++ line.chars) ++ (line.ending ++ rest))) =
      some (join lines ++ line.chars ++ BlockGap.tail ⟨line.ending, [], false⟩ chomping,
        split rest) := by
  have last : indented n true line.chars = pad n ++ line.chars := by
    simpa [indented] using indented_fresh h.noBreak ne (n := n) []
  have indented : (line.indentBy n) = ⟨pad n ++ line.chars, line.ending⟩ := if_neg ne
  have splitLast := split_full (h.indentBy n) rest
  rw [indented] at splitLast
  obtain ⟨text, gap, read, eq⟩ := readLines_map_indentBy (n := n) chomping lines
    (⟨pad n ++ line.chars, line.ending⟩ :: split rest) {}
  rw [indented_join full, last, List.append_assoc, ← List.append_assoc _ line.ending,
    split_join (isFull_map_indentBy full), splitLast, read, readLines, role_indented ne]
  simp only [readLines_outside outside, Option.map_some, BlockGap.text]
  simp at eq
  simp [eq]
  cases chomping <;> rfl

end Shapes

/-- Full lines end with a line end, if there are any. -/
theorem ends_join {lines : List Line} (full : ∀ line ∈ lines, IsFull line) :
    ((join lines).isEmpty || (join lines).getLast?.any isBreak) = true := by
  rcases List.eq_nil_or_concat' lines with rfl | ⟨lines, line, rfl⟩
  · rfl
  obtain ⟨d, ends, ending⟩ := (full line (by simp)).ending
  simp [ending, join, ends]

/-- A text with line feeds is read back from its block. -/
theorem readBlock_literal (hn : least - 1 + 2 = n) (printable : ∀ c ∈ cs, isPrintable c = true)
    (nonempty : cs ≠ []) {rest : List Char} (outside : StopsBlock n rest) :
    readBlock true least (literalHeader cs ++ '\n' :: (indented n true cs ++
      ((if cs.getLast?.any isBreak then [] else ['\n']) ++ rest))) = some (cs, rest) := by
  obtain ⟨lines, last, full, noBreak, text⟩ := exists_lines cs
  rcases List.eq_nil_or_concat' last with rfl | ⟨init, d, rfl⟩
  · rw [List.append_nil] at text
    rcases List.eq_nil_or_concat' lines with rfl | ⟨lines, line, rfl⟩
    · exact absurd text nonempty
    have lineFull : line.IsFull := full line (by simp)
    have linesFull : ∀ line ∈ lines, IsFull line := fun line h => full line (by simp [h])
    obtain ⟨d, ends, ending⟩ := lineFull.ending
    have shape : cs = join lines ++ line.chars ++ [d] := by
      simp [text, ending, join]
    have header := literalHeader_append (join lines ++ line.chars) d
    have kept : cs.getLast?.any isBreak = true := by simp [shape, ends]
    rw [← shape, ends, if_pos rfl] at header
    rw [kept, if_pos rfl, List.nil_append]
    by_cases empty : line.chars = []
    · rw [empty, List.append_nil, ends_join linesFull, if_pos rfl] at header
      refine readBlock_of_readLines hn printable nonempty header ?_
      rw [text]
      exact readLines_full full outside
    · have inner : ((join lines ++ line.chars).isEmpty ||
          (join lines ++ line.chars).getLast?.any isBreak) = false := by
        obtain ⟨chars, c, last⟩ := (List.eq_nil_or_concat' line.chars).resolve_left empty
        have noBreak := lineFull.noBreak c (by simp [last])
        simp [last, noBreak]
      rw [inner, if_neg Bool.false_ne_true] at header
      refine readBlock_of_readLines hn printable nonempty header ?_
      have read := readLines_last (n := n) linesFull outside .clip lineFull empty
      rw [shape, indented_append_break ends, List.append_assoc, List.append_assoc]
      simpa [ending, BlockGap.tail] using read
  · -- the last line has no end, so the writer adds one
    have ends : isBreak d = false := noBreak d (by simp)
    have header := literalHeader_append (join lines ++ init) d
    rw [List.append_assoc, ← text] at header
    refine readBlock_of_readLines hn printable nonempty (by simpa [ends] using header) ?_
    have line : Line.IsFull ⟨init ++ [d], ['\n']⟩ := ⟨noBreak, '\n', by decide, rfl⟩
    have read := readLines_last full outside .strip line (by simp)
    have kept : cs.getLast?.any isBreak = false := by simp [text, ends]
    rw [kept, text]
    simpa [BlockGap.tail] using read

end Literal

end LogForwarder.Yaml
