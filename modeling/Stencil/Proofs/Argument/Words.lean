import Stencil.Argument
import Stencil.Proofs.Text.Blank

/-! The words of a helper tag beside the words that blanks alone separate. -/

namespace Stencil.Argument

open Text (isBlank leadingRun consWord words)

theorem isQuote_of_isBlank {c : Char} (h : isBlank c = true) : isQuote c = false := by
  cases hquote : isQuote c with
  | false => rfl
  | true =>
    simp only [isQuote, Bool.or_eq_true, beq_iff_eq] at hquote
    rcases hquote with rfl | rfl <;> exact absurd h (by decide)

theorem leadingWord_blank {c : Char} (h : isBlank c = true) (rest : List Char) :
    leadingWord none (c :: rest) =
      (leadingWord none rest).map fun (run, later) => ([], consWord run later) := by
  rw [leadingWord, if_neg (by simp [isQuote_of_isBlank h]), if_pos h]

theorem words?_blank {c : Char} (h : isBlank c = true) (rest : List Char) :
    words? (c :: rest) = words? rest := by
  rw [words?, leadingWord_blank h, Option.map_map]
  rfl

/-- Nothing is open in a text without words, and none are found. -/
theorem words?_of_words_eq_nil {content : List Char} (h : words content = []) :
    words? content = some [] := by
  induction content with
  | nil => rfl
  | cons c rest ih =>
    by_cases hc : isBlank c = true
    · rw [words?_blank hc]
      rw [Text.words_blank hc] at h
      exact ih h
    · simp only [Bool.not_eq_true] at hc
      rw [Text.words_of_not_blank hc] at h
      contradiction

/-- A text with words has words outside of quotes too. -/
theorem words?_ne_nil {content : List Char} (h : words content ≠ []) :
    words? content ≠ some [] := by
  induction content with
  | nil => exact absurd rfl h
  | cons c rest ih =>
    by_cases hc : isBlank c = true
    · rw [words?_blank hc]
      rw [Text.words_blank hc] at h
      exact ih h
    · intro hnil
      rw [words?, Option.map_eq_some_iff] at hnil
      obtain ⟨⟨run, later⟩, hread, hwords⟩ := hnil
      rw [leadingWord] at hread
      simp only [hc, Bool.false_eq_true, if_false] at hread
      -- Whether a quote or another character starts the word, the word is not empty.
      split at hread <;>
      · rw [Option.map_eq_some_iff] at hread
        obtain ⟨⟨inner, further⟩, -, hrun⟩ := hread
        obtain ⟨rfl, -⟩ := Prod.mk.inj hrun
        simp [Text.consWord] at hwords

/-- A run that no quote interrupts is read in the same way by both. -/
theorem leadingWord_run {content run : List Char} {later : List (List Char)}
    (h : leadingWord none content = some (run, later))
    (hplain : ∀ c ∈ (leadingRun content).1, isQuote c = false) : run = (leadingRun content).1 := by
  induction content generalizing run later with
  | nil =>
    rw [leadingWord, Option.some.injEq, Prod.mk.injEq] at h
    exact h.1.symm
  | cons c rest ih =>
    by_cases hc : isBlank c = true
    · rw [leadingWord_blank hc, Option.map_eq_some_iff] at h
      obtain ⟨_, -, hrun⟩ := h
      rw [Text.leadingRun_blank hc]
      exact (Prod.mk.inj hrun).1.symm
    · rw [Text.leadingRun_of_not_blank (by simpa using hc)] at hplain ⊢
      have hquote : ¬ isQuote c = true := by simp [hplain c (by simp)]
      rw [leadingWord, if_neg hquote, if_neg hc, Option.map_eq_some_iff] at h
      obtain ⟨⟨inner, _⟩, hinner, hrun⟩ := h
      obtain ⟨rfl, -⟩ := Prod.mk.inj hrun
      rw [ih hinner fun d hd => hplain d (by simp [hd])]

/-- A first word without quotes is also the first word of the tag. -/
theorem words?_head? {content : List Char} {all : List (List Char)} (h : words? content = some all)
    (hplain : ∀ word ∈ (words content).head?, ∀ c ∈ word, isQuote c = false) :
    all.head? = (words content).head? := by
  induction content with
  | nil =>
    obtain rfl := Option.some.inj h
    rfl
  | cons c rest ih =>
    by_cases hc : isBlank c = true
    · rw [words?_blank hc] at h
      rw [Text.words_blank hc] at hplain ⊢
      exact ih h hplain
    · simp only [Bool.not_eq_true] at hc
      rw [Text.words_of_not_blank hc] at hplain ⊢
      rw [words?, Option.map_eq_some_iff] at h
      obtain ⟨⟨run, later⟩, hread, rfl⟩ := h
      obtain rfl : run = (leadingRun (c :: rest)).1 := leadingWord_run hread (hplain _ rfl)
      rw [Text.leadingRun_of_not_blank hc]
      rfl

end Stencil.Argument
