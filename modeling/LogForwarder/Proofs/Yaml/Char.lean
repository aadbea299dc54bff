import LogForwarder.Yaml.Gap
import LogForwarder.Yaml.Writer

/-!
# Printable characters

What is known of a character that is written as it is, and of the texts made of such characters.
-/

namespace LogForwarder.Yaml

variable {c : Char}

theorem isAllowed_of_isPrintable (h : isPrintable c = true) : isAllowed c = true := by
  simp only [isPrintable, isAllowed, Bool.or_eq_true] at h ⊢
  grind

theorem ne_of_isPrintable {d : Char} (h : isPrintable c = true) (hd : isPrintable d = false) :
    c ≠ d := by
  rintro rfl
  simp [hd] at h

/-- The only printable character that separates words on a line is the space. -/
theorem isGap_iff (printable : isPrintable c = true) (noBreak : isBreak c = false) :
    isGap c = true ↔ c = ' ' := by
  have tab : c ≠ '\t' := ne_of_isPrintable printable (by decide)
  simp [isGap, isBlank, noBreak, tab]

/-- A character within a word is no blank and no line end. -/
theorem of_isGap_eq_false (h : isGap c = false) : c ≠ ' ' ∧ c ≠ '\t' ∧ isBreak c = false := by
  simpa [isGap, isBlank, and_assoc] using h

theorem isBreak_of_mem_pad {n : Nat} (h : c ∈ pad n) : isBreak c = false := by
  rw [List.eq_of_mem_replicate h]
  decide

theorem noBreak_pad_append {n : Nat} {cs : List Char} (h : ∀ c ∈ cs, isBreak c = false) :
    ∀ c ∈ pad n ++ cs, isBreak c = false := by
  rw [List.forall_mem_append]
  exact ⟨fun _ => isBreak_of_mem_pad, h⟩

theorem drop_pad (n : Nat) (cs : List Char) : (pad n ++ cs).drop n = cs := by
  simp [pad]

theorem atBlankOrEnd_append {cs : List Char} (h : cs ≠ []) (tail : List Char) :
    atBlankOrEnd (cs ++ tail) = atBlankOrEnd cs := by
  cases cs with
  | nil => exact absurd rfl h
  | cons c cs => rfl

theorem head?_isBlank {cs : List Char} (h : atBlankOrEnd cs = false) :
    cs.head?.any isBlank = false := by
  cases cs with
  | nil => rfl
  | cons c cs =>
    rw [atBlankOrEnd, Bool.or_eq_false_iff] at h
    simpa using h.1

/-! ## Line ends -/

/-- A text without carriage returns and next-line characters has line feeds for all its line
ends. -/
theorem lineFeeds_eq_self {cs : List Char} (h : ∀ c ∈ cs, isPrintable c = true) :
    lineFeeds cs = cs := by
  induction cs with
  | nil => rfl
  | cons c cs ih =>
    have printable : isPrintable c = true := h c List.mem_cons_self
    have cr : c ≠ '\r' := ne_of_isPrintable printable (by decide)
    have nel : c.toNat ≠ 0x85 := by
      intro code
      have : c = Char.ofNat 0x85 := by rw [← code, Char.ofNat_toNat]
      exact ne_of_isPrintable printable (by decide) this
    unfold lineFeeds
    split
    · simp_all
    · simp_all
    · rename_i d ds _ eq
      obtain ⟨rfl, rfl⟩ := List.cons.inj eq
      simp [cr, nel, ih fun d hd => h d (List.mem_cons_of_mem c hd)]

end LogForwarder.Yaml
