import Stencil.Text.Blank

/-! Trimmed texts and the words of a text. -/

namespace Stencil.Text

theorem trimStart_cons_of_not_blank {c : Char} {rest : List Char} (h : isBlank c = false) :
    trimStart (c :: rest) = c :: rest := by
  simp [trimStart, h]

/-- A text without blanks in front starts with another character, or is empty. -/
theorem trimStart_cases (text : List Char) :
    trimStart text = [] ∨ ∃ c rest, trimStart text = c :: rest ∧ isBlank c = false := by
  induction text with
  | nil => exact .inl rfl
  | cons c rest ih =>
    by_cases hc : isBlank c = true
    · simpa [trimStart, hc] using ih
    · simp only [Bool.not_eq_true] at hc
      exact .inr ⟨c, rest, trimStart_cons_of_not_blank hc, hc⟩

theorem trimEnd_cons_of_not_blank {c : Char} {rest : List Char} (h : isBlank c = false) :
    trimEnd (c :: rest) = c :: trimEnd rest := by
  rw [trimEnd]
  split
  · rename_i hrest
    simp [h, hrest]
  · rfl

theorem trimEnd_trimEnd (text : List Char) : trimEnd (trimEnd text) = trimEnd text := by
  induction text with
  | nil => rfl
  | cons c rest ih =>
    cases hrest : trimEnd rest with
    | nil =>
      by_cases hc : isBlank c = true <;> simp [trimEnd, hrest, hc]
    | cons d later =>
      rw [hrest] at ih
      have hkept : trimEnd (c :: rest) = c :: d :: later := by simp [trimEnd, hrest]
      rw [hkept, trimEnd, ih]

/-- Trimming a trimmed text changes nothing. -/
theorem trim_trim (text : List Char) : trim (trim text) = trim text := by
  rcases trimStart_cases text with hnil | ⟨c, rest, hcons, hc⟩
  · rw [trim, trim, hnil]
    rfl
  · rw [trim, trim, hcons, trimEnd_cons_of_not_blank hc, trimStart_cons_of_not_blank hc,
      trimEnd_cons_of_not_blank hc, trimEnd_trimEnd]

theorem trimEnd_append_of_not_blank (text : List Char) {last : Char} (h : isBlank last = false) :
    trimEnd (text ++ [last]) = text ++ [last] := by
  induction text with
  | nil => simp [trimEnd, h]
  | cons c text ih =>
    rw [List.cons_append, trimEnd, ih]
    split
    · rename_i hnil
      simp at hnil
    · rfl

def IsWord (run : List Char) : Prop := run ≠ [] ∧ ∀ c ∈ run, isBlank c = false

instance (run : List Char) : Decidable (IsWord run) :=
  have : Decidable (∀ c ∈ run, isBlank c = false) := List.decidableBAll _ _
  inferInstanceAs (Decidable (_ ∧ _))

/-- There is nothing to trim on a text between two words. -/
theorem trim_between {first last : List Char} (hfirst : IsWord first) (hlast : IsWord last)
    (middle : List Char) : trim (first ++ middle ++ last) = first ++ middle ++ last := by
  obtain ⟨c, rest, rfl⟩ := List.exists_cons_of_ne_nil hfirst.1
  obtain ⟨front, d, rfl⟩ : ∃ front d, last = front ++ [d] :=
    ⟨_, _, (List.dropLast_concat_getLast hlast.1).symm⟩
  have hc : isBlank c = false := hfirst.2 c (by simp)
  have hd : isBlank d = false := hlast.2 d (by simp)
  rw [trim, List.cons_append, List.cons_append, trimStart_cons_of_not_blank hc,
    ← List.append_assoc, ← List.cons_append]
  exact trimEnd_append_of_not_blank _ hd

theorem trim_eq_self {text : List Char} (hfirst : ∀ c ∈ text.head?, isBlank c = false)
    (hlast : ∀ c ∈ text.getLast?, isBlank c = false) : trim text = text := by
  rcases text.eq_nil_or_concat with rfl | ⟨front, d, rfl⟩
  · rfl
  · rw [List.concat_eq_append] at hfirst hlast ⊢
    obtain ⟨c, rest, hcons⟩ := List.exists_cons_of_ne_nil (show front ++ [d] ≠ [] by simp)
    have hc : isBlank c = false := hfirst c (by simp [hcons])
    rw [trim, hcons, trimStart_cons_of_not_blank hc, ← hcons]
    exact trimEnd_append_of_not_blank front (hlast d (by simp))

theorem mem_consWord {run word : List Char} {later : List (List Char)}
    (hrun : ∀ c ∈ run, isBlank c = false) (hlater : ∀ word ∈ later, IsWord word)
    (h : word ∈ consWord run later) : IsWord word := by
  unfold consWord at h
  split at h
  · exact hlater word h
  · rename_i hne
    rcases List.mem_cons.mp h with rfl | hmem
    · exact ⟨by simpa using hne, hrun⟩
    · exact hlater word hmem

theorem leadingRun_blank {c : Char} (hc : isBlank c = true) (rest : List Char) :
    leadingRun (c :: rest) = ([], words rest) := by
  simp [leadingRun, hc, words]

theorem leadingRun_of_not_blank {c : Char} (hc : isBlank c = false) (rest : List Char) :
    leadingRun (c :: rest) = (c :: (leadingRun rest).1, (leadingRun rest).2) := by
  simp [leadingRun, hc]

theorem words_blank {c : Char} (hc : isBlank c = true) (rest : List Char) :
    words (c :: rest) = words rest := by
  rw [words, leadingRun_blank hc]
  rfl

theorem words_of_not_blank {c : Char} (hc : isBlank c = false) (rest : List Char) :
    words (c :: rest) = (leadingRun (c :: rest)).1 :: (leadingRun (c :: rest)).2 := by
  rw [words, leadingRun_of_not_blank hc]
  rfl

theorem leadingRun_words (text : List Char) :
    (∀ c ∈ (leadingRun text).1, isBlank c = false) ∧
      ∀ word ∈ (leadingRun text).2, IsWord word := by
  induction text with
  | nil => simp [leadingRun]
  | cons c rest ih =>
    simp only [leadingRun]
    split
    · exact ⟨by simp, fun word hword => mem_consWord ih.1 ih.2 hword⟩
    · rename_i hc
      simp only [Bool.not_eq_true] at hc
      exact ⟨by simpa using ⟨hc, ih.1⟩, ih.2⟩

theorem isWord_of_mem_words {text word : List Char} (h : word ∈ words text) : IsWord word :=
  mem_consWord (leadingRun_words text).1 (leadingRun_words text).2 h

theorem leadingRun_append {run : List Char} (h : ∀ c ∈ run, isBlank c = false)
    (rest : List Char) :
    leadingRun (run ++ rest) = (run ++ (leadingRun rest).1, (leadingRun rest).2) := by
  induction run with
  | nil => rfl
  | cons c run ih =>
    have hc : isBlank c = false := h c (by simp)
    rw [List.cons_append, leadingRun, ih fun d hd => h d (by simp [hd])]
    simp [hc]

theorem leadingRun_eq_takeWhile (text : List Char) :
    (leadingRun text).1 = text.takeWhile fun c => !isBlank c := by
  induction text with
  | nil => rfl
  | cons c rest ih =>
    by_cases hc : isBlank c = true <;> simp [leadingRun, hc, ih]

/-- The first word is the first of the words, and empty if there is none. -/
theorem firstWord_eq (text : List Char) : firstWord text = (words text).head?.getD [] := by
  induction text with
  | nil => rfl
  | cons c rest ih =>
    by_cases hc : isBlank c = true
    · rw [words_blank hc, ← ih]
      simp [firstWord, trimStart, hc]
    · simp only [Bool.not_eq_true] at hc
      rw [firstWord, trimStart_cons_of_not_blank hc, ← leadingRun_eq_takeWhile,
        words_of_not_blank hc]
      rfl

theorem words_of_isWord {word : List Char} (h : IsWord word) : words word = [word] := by
  have hrun := leadingRun_append h.2 []
  rw [List.append_nil] at hrun
  simp [words, hrun, leadingRun, consWord, h.1]

/-- A word that a blank follows is the first of the words. -/
theorem words_append_blank {word : List Char} (h : IsWord word) {c : Char}
    (hc : isBlank c = true) (rest : List Char) :
    words (word ++ c :: rest) = word :: words rest := by
  simp [words, leadingRun_append h.2, leadingRun, hc, consWord, h.1]

theorem head?_words_append {word rest : List Char} (h : IsWord word)
    (hrest : ∀ c ∈ rest.head?, isBlank c = true) : (words (word ++ rest)).head? = some word := by
  cases rest with
  | nil =>
    rw [List.append_nil, words_of_isWord h]
    rfl
  | cons c rest =>
    rw [words_append_blank h (hrest c rfl)]
    rfl

end Stencil.Text
