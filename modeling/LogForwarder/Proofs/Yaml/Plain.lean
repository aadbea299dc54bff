import LogForwarder.Proofs.Yaml.Char
import LogForwarder.Yaml.Scalar.Plain

/-!
# Unquoted scalars read back

A text that needs no quotes is read back from what is written of it.
-/

namespace LogForwarder.Yaml

/-- What a text has to be to stand without quotes. -/
structure Unquoted (cs : List Char) : Prop where
  nonempty : cs ≠ []
  printable : ∀ c ∈ cs, isPrintable c = true
  noBreak : ∀ c ∈ cs, isBreak c = false
  noIndicator : hasIndicator cs = false
  first : cs.head? ≠ some ' '
  last : cs.getLast? ≠ some ' '

theorem Unquoted.of_plainAllowed {cs : List Char} (nonempty : cs ≠ [])
    (h : plainAllowed cs = true) : Unquoted cs := by
  simp only [plainAllowed, singleAllowed, needsEscapes, Bool.and_eq_true, Bool.not_eq_true',
    Bool.or_eq_false_iff, Option.any_eq_false] at h
  obtain ⟨⟨⟨⟨⟨⟨printable, -⟩, -⟩, noBreak⟩, noIndicator⟩, first⟩, last⟩ := h
  refine ⟨nonempty, ?_, ?_, noIndicator, ?_, ?_⟩
  · simpa using printable
  · simpa using noBreak
  · exact fun h => by simpa [isSpace] using first ' ' h
  · exact fun h => by simpa [isSpace] using last ' ' h

theorem readPlain_append {indent : Nat} {broken : Bool} {tail rest : List Char}
    (htail : readPlain false indent {} tail = some ⟨[], rest, broken⟩) {cs : List Char} :
    (∀ c ∈ cs, isPrintable c = true) → (∀ c ∈ cs, isBreak c = false) →
    hasInnerIndicator cs = false → cs.getLast? ≠ some ' ' → ∀ blanks : List Char,
    (blanks ≠ [] → cs ≠ [] ∧ cs.head? ≠ some '#') →
    readPlain false indent { blanks } (cs ++ tail) = some ⟨blanks ++ cs, rest, broken⟩ := by
  induction cs with
  | nil =>
    intro _ _ _ _ blanks gap
    obtain rfl : blanks = [] := by simpa using gap
    exact htail
  | cons c cs ih =>
    intro printable noBreak noIndicator last blanks gap
    simp only [hasInnerIndicator, Bool.or_eq_false_iff] at noIndicator
    obtain ⟨⟨noColon, noHash⟩, noIndicator⟩ := noIndicator
    replace ih := ih (fun d hd => printable d (List.mem_cons_of_mem c hd))
      (fun d hd => noBreak d (List.mem_cons_of_mem c hd)) noIndicator
    by_cases space : c = ' '
    · subst space
      -- a blank extends the gap, and a word follows
      have more : cs ≠ [] := by
        rintro rfl
        exact last rfl
      have last' : cs.getLast? ≠ some ' ' := by
        rwa [List.getLast?_cons_of_ne_nil more] at last
      have hash : cs.head? ≠ some '#' := by simpa [isBlank] using noHash
      have read := ih last' (blanks ++ [' ']) fun _ => ⟨more, hash⟩
      rw [List.cons_append, readPlain]
      simpa [isGap, isBlank, isBreak, Gap.push] using read
    · -- a word resets the gap
      have noGap : isGap c = false := by
        rw [Bool.eq_false_iff]
        exact fun h => space ((isGap_iff (printable c List.mem_cons_self)
          (noBreak c List.mem_cons_self)).1 h)
      have goesOn : endsBeforeWord false indent { blanks } (c :: (cs ++ tail)) = false := by
        by_cases empty : blanks = []
        · subst empty
          simp [endsBeforeWord, Gap.atLineStart]
        · have hash : c ≠ '#' := by simpa using (gap empty).2
          simp [endsBeforeWord, Gap.atLineStart, hash]
      have noMark : (c == ':' && atBlankOrEnd (cs ++ tail)) = false := by
        by_cases empty : cs = []
        · subst empty
          simpa [atBlankOrEnd] using fun h => absurd h (by simpa [atBlankOrEnd] using noColon)
        · rwa [atBlankOrEnd_append empty]
      have last' : cs.getLast? ≠ some ' ' := by
        by_cases empty : cs = []
        · simp [empty]
        · rwa [List.getLast?_cons_of_ne_nil empty] at last
      have read := ih last' [] (by simp)
      rw [List.cons_append, readPlain]
      simp [noGap, goesOn, noMark, read, Gap.text]

/-- A text that needs no quotes is read up to where what follows it ends a scalar. -/
theorem Unquoted.readPlain {indent : Nat} {broken : Bool} {cs tail rest : List Char}
    (h : Unquoted cs)
    (htail : Yaml.readPlain false indent {} tail = some ⟨[], rest, broken⟩) :
    Yaml.readPlain false indent {} (cs ++ tail) = some ⟨cs, rest, broken⟩ := by
  have inner : hasInnerIndicator cs = false := by
    have := h.noIndicator
    simp only [hasIndicator, Bool.or_eq_false_iff] at this
    exact this.2
  have read := readPlain_append htail h.printable h.noBreak inner h.last [] (by simp)
  simpa using read

end LogForwarder.Yaml
