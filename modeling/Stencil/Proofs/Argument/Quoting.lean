import Mathlib.Data.List.Basic
import Stencil.Proofs.Argument.Printing

/-! Where quotes open and close in a tag, and the cut of a tag into words and the blanks between
them. Splitting fails exactly where a quote stays open, and it finds the words of the cut. -/

namespace Stencil.Argument

open Text (isBlank)

/-- A text in which every quote that opens outside of quotes is closed, by the next one of its
kind. -/
inductive ClosesQuotes : List Char → Prop where
  | nil : ClosesQuotes []
  | plain {c : Char} {rest : List Char} : isQuote c = false → ClosesQuotes rest →
      ClosesQuotes (c :: rest)
  | quoted {q : Char} {inside rest : List Char} : isQuote q = true → q ∉ inside →
      ClosesQuotes rest → ClosesQuotes (q :: (inside ++ q :: rest))

def LeavesOpen (content : List Char) : Prop :=
  ∃ front q rest, content = front ++ q :: rest ∧ ClosesQuotes front ∧ isQuote q = true ∧ q ∉ rest

/-- A text is read from the left: a plain character, a quote that stays open, or a quoted part. -/
theorem quote_induction {motive : List Char → Prop} (nil : motive [])
    (plain : ∀ c rest, isQuote c = false → motive rest → motive (c :: rest))
    (opened : ∀ q rest, isQuote q = true → q ∉ rest → motive (q :: rest))
    (quoted : ∀ q inside rest, isQuote q = true → q ∉ inside → motive rest →
      motive (q :: (inside ++ q :: rest)))
    (content : List Char) : motive content := by
  -- The next text to look at may start behind a whole quoted part.
  induction hlength : content.length using Nat.strong_induction_on generalizing content with
  | _ length ih =>
    subst hlength
    cases content with
    | nil => exact nil
    | cons c rest =>
      cases hquote : isQuote c with
      | false => exact plain c rest hquote (ih _ (by simp) rest rfl)
      | true =>
        by_cases hmem : c ∈ rest
        · obtain ⟨inside, later, rfl, hinside⟩ := List.eq_append_cons_of_mem hmem
          exact quoted c inside later hquote hinside
            (ih _ (by simp only [List.length_cons, List.length_append]; omega) later rfl)
        · exact opened c rest hquote hmem

theorem closesQuotes_or_leavesOpen (content : List Char) :
    ClosesQuotes content ∨ LeavesOpen content := by
  induction content using quote_induction with
  | nil => exact .inl .nil
  | plain c rest hquote ih =>
    rcases ih with hcloses | ⟨front, q, later, rfl, hfront, hq, hopen⟩
    · exact .inl (.plain hquote hcloses)
    · exact .inr ⟨c :: front, q, later, rfl, .plain hquote hfront, hq, hopen⟩
  | opened q rest hquote hopen => exact .inr ⟨[], q, rest, rfl, .nil, hquote, hopen⟩
  | quoted q inside rest hquote hinside ih =>
    rcases ih with hcloses | ⟨front, p, later, rfl, hfront, hp, hopen⟩
    · exact .inl (.quoted hquote hinside hcloses)
    · exact .inr ⟨q :: (inside ++ q :: front), p, later, by simp,
        .quoted hquote hinside hfront, hp, hopen⟩

theorem ClosesQuotes.append {front back : List Char} (hfront : ClosesQuotes front)
    (hback : ClosesQuotes back) : ClosesQuotes (front ++ back) := by
  induction hfront with
  | nil => exact hback
  | plain hquote _ ih => exact .plain hquote ih
  | quoted hquote hinside _ ih =>
    rw [List.cons_append, List.append_assoc]
    exact .quoted hquote hinside ih

theorem closesQuotes_of_blank {blanks : List Char} (h : ∀ c ∈ blanks, isBlank c = true) :
    ClosesQuotes blanks := by
  induction blanks with
  | nil => exact .nil
  | cons c blanks ih =>
    obtain ⟨hc, hrest⟩ := List.forall_mem_cons.mp h
    exact .plain (isQuote_of_isBlank hc) (ih hrest)

theorem leadingWord_opened {q : Char} {text : List Char} (h : q ∉ text) :
    leadingWord (some q) text = none := by
  induction text with
  | nil => rfl
  | cons c text ih =>
    obtain ⟨hc, htext⟩ := not_or.mp (List.mem_cons.not.mp h)
    rw [leadingWord, if_neg fun heq => hc heq.symm, ih htext]
    rfl

/-- The inside of a quoted part stays in its word as it stands. -/
theorem leadingWord_quoted {q : Char} {inside : List Char} (h : q ∉ inside) (rest : List Char) :
    leadingWord (some q) (inside ++ q :: rest) =
      (leadingWord none rest).map fun (run, later) => (inside ++ q :: run, later) := by
  induction inside with
  | nil =>
    rw [List.nil_append, leadingWord, if_pos rfl]
    rfl
  | cons c inside ih =>
    obtain ⟨hc, hinside⟩ := not_or.mp (List.mem_cons.not.mp h)
    rw [List.cons_append, leadingWord, if_neg fun heq => hc heq.symm, ih hinside, Option.map_map]
    rfl

theorem leadingWord_quote {q : Char} (h : isQuote q = true) (rest : List Char) :
    leadingWord none (q :: rest) =
      (leadingWord (some q) rest).map fun (run, later) => (q :: run, later) := by
  rw [leadingWord, if_pos h]

theorem leadingWord_isSome_cons {c : Char} (h : isQuote c = false) (rest : List Char) :
    (leadingWord none (c :: rest)).isSome = (leadingWord none rest).isSome := by
  rw [leadingWord, if_neg (by simp [h])]
  split <;> rw [Option.isSome_map]

/-- What stands in front with its quotes closed does not decide whether a word is read. -/
theorem ClosesQuotes.leadingWord_isSome {front : List Char} (h : ClosesQuotes front)
    (back : List Char) :
    (leadingWord none (front ++ back)).isSome = (leadingWord none back).isSome := by
  induction h with
  | nil => rfl
  | plain hquote _ ih => rw [List.cons_append, leadingWord_isSome_cons hquote, ih]
  | quoted hquote hinside _ ih =>
    rw [List.cons_append, List.append_assoc, List.cons_append, leadingWord_quote hquote,
      leadingWord_quoted hinside, Option.isSome_map, Option.isSome_map, ih]

theorem words?_isSome (content : List Char) :
    (words? content).isSome = (leadingWord none content).isSome := Option.isSome_map ..

theorem ClosesQuotes.words?_isSome {content : List Char} (h : ClosesQuotes content) :
    (words? content).isSome = true := by
  rw [Argument.words?_isSome, ← List.append_nil content, h.leadingWord_isSome]
  rfl

theorem LeavesOpen.words?_eq_none {content : List Char} (h : LeavesOpen content) :
    words? content = none := by
  obtain ⟨front, q, rest, rfl, hfront, hquote, hopen⟩ := h
  rw [← Option.not_isSome_iff_eq_none, Bool.not_eq_true, words?_isSome, hfront.leadingWord_isSome,
    leadingWord_quote hquote, leadingWord_opened hopen]
  rfl

theorem words?_eq_none_iff (content : List Char) : words? content = none ↔ LeavesOpen content := by
  refine ⟨fun hnone => ?_, LeavesOpen.words?_eq_none⟩
  refine (closesQuotes_or_leavesOpen content).resolve_left fun hcloses => ?_
  simpa [hnone] using hcloses.words?_isSome

/-- A text that no blank outside of quotes interrupts and that leaves no quote open. -/
structure IsUnbroken (word : List Char) : Prop where
  ne_nil : word ≠ []
  closes : ClosesQuotes word
  blanks_quoted : ∀ front c back, word = front ++ c :: back → ClosesQuotes front →
    isBlank c = false

theorem uncut_plain_iff {c : Char} (h : isQuote c = false) {rest : List Char} :
    Uncut none (c :: rest) ↔ isBlank c = false ∧ Uncut none rest := by
  rw [uncut_cons_iff, quoteBehind, if_neg (by simp [h])]
  simp

theorem uncut_quoted_iff {q : Char} (hquote : isQuote q = true) {inside : List Char}
    (h : q ∉ inside) {rest : List Char} :
    Uncut none (q :: (inside ++ q :: rest)) ↔ Uncut none rest := by
  unfold Uncut
  rw [leadingWord_quote hquote, leadingWord_quoted h, Option.map_map]
  cases leadingWord none rest <;> simp [Prod.ext_iff]

theorem Uncut.of_append {front back : List Char} (hfront : ClosesQuotes front)
    (h : Uncut none (front ++ back)) : Uncut none back := by
  induction hfront with
  | nil => exact h
  | plain hquote _ ih => exact ih ((uncut_plain_iff hquote).mp h).2
  | quoted hquote hinside _ ih =>
    rw [List.cons_append, List.append_assoc] at h
    exact ih ((uncut_quoted_iff hquote hinside).mp h)

theorem IsUnbroken.uncut {word : List Char} (h : IsUnbroken word) : Uncut none word := by
  obtain ⟨-, hcloses, hblanks⟩ := h
  induction hcloses with
  | nil => rfl
  | @plain c rest hquote _ ih =>
    refine (uncut_plain_iff hquote).mpr ⟨hblanks [] c rest rfl .nil, ih ?_⟩
    rintro front d back rfl hfront
    exact hblanks (c :: front) d back rfl (.plain hquote hfront)
  | @quoted q inside rest hquote hinside _ ih =>
    refine (uncut_quoted_iff hquote hinside).mpr (ih ?_)
    rintro front d back rfl hfront
    exact hblanks (q :: (inside ++ q :: front)) d back (by simp) (.quoted hquote hinside hfront)

/-- What is read as one word is described without reading it. -/
theorem isWord_iff {word : List Char} : IsWord word ↔ IsUnbroken word := by
  constructor
  · intro h
    refine ⟨h.ne_nil, ?_, ?_⟩
    · refine (closesQuotes_or_leavesOpen word).resolve_right fun hopen => ?_
      simpa [hopen.words?_eq_none] using h.words?_eq
    · rintro front c back rfl hfront
      exact (uncut_cons_iff.mp (h.uncut.of_append hfront)).1 rfl
  · exact fun h => ⟨h.ne_nil, h.uncut⟩

structure Part where
  gap : List Char
  word : List Char

def spread (parts : List Part) : List Char := parts.flatMap fun part => part.gap ++ part.word

theorem spread_cons (part : Part) (later : List Part) :
    spread (part :: later) = part.gap ++ (part.word ++ spread later) := by
  simp [spread]

/-- Gaps and a rest of blanks, where only the gap of the first word may be empty. -/
structure Gaps (parts : List Part) (trail : List Char) : Prop where
  blank : ∀ part ∈ parts, ∀ c ∈ part.gap, isBlank c = true
  parted : ∀ part ∈ parts.tail, part.gap ≠ []
  trail_blank : ∀ c ∈ trail, isBlank c = true

/-- A text as words with gaps between them, and blanks behind the last one. -/
structure Cut (content : List Char) (parts : List Part) (trail : List Char) : Prop where
  restores : content = spread parts ++ trail
  gaps : Gaps parts trail
  unbroken : ∀ part ∈ parts, IsUnbroken part.word

theorem Gaps.tail {part : Part} {later : List Part} {trail : List Char}
    (h : Gaps (part :: later) trail) : Gaps later trail where
  blank next hmem := h.blank next (List.mem_cons_of_mem _ hmem)
  parted next hmem := h.parted next (List.mem_of_mem_tail hmem)
  trail_blank := h.trail_blank

/-- Only a blank can come behind the first word. -/
theorem Gaps.head_blank {part : Part} {later : List Part} {trail : List Char}
    (h : Gaps (part :: later) trail) : ∀ c ∈ (spread later ++ trail).head?, isBlank c = true := by
  cases later with
  | nil => exact fun c hc => h.trail_blank c (List.mem_of_mem_head? hc)
  | cons next later =>
    obtain ⟨c, gap, hgap⟩ := List.exists_cons_of_ne_nil (h.parted next List.mem_cons_self)
    have hc := h.blank next (List.mem_cons_of_mem _ List.mem_cons_self) c (by simp [hgap])
    simpa [spread_cons, hgap] using hc

theorem IsWord.words?_append_blank {word : List Char} (h : IsWord word) {rest : List Char}
    (hrest : ∀ c ∈ rest.head?, isBlank c = true) :
    words? (word ++ rest) = (words? rest).map fun later => word :: later := by
  cases rest with
  | nil =>
    rw [List.append_nil, h.words?_eq]
    rfl
  | cons c rest =>
    have hc := hrest c rfl
    rw [h.words?_append hc, words?_blank hc]

/-- Words are found again whatever blanks are put between them. -/
theorem words?_spread_append {parts : List Part} {trail : List Char} (hgaps : Gaps parts trail)
    (hwords : ∀ part ∈ parts, IsWord part.word) :
    words? (spread parts ++ trail) = some (parts.map Part.word) := by
  induction parts with
  | nil =>
    have hread := words?_blanks hgaps.trail_blank []
    rwa [List.append_nil] at hread
  | cons part later ih =>
    obtain ⟨hword, hlater⟩ := List.forall_mem_cons.mp hwords
    have hrest := ih hgaps.tail hlater
    rw [spread_cons, List.append_assoc, List.append_assoc,
      words?_blanks (hgaps.blank part List.mem_cons_self),
      hword.words?_append_blank hgaps.head_blank, hrest]
    rfl

theorem Cut.words?_eq {content trail : List Char} {parts : List Part}
    (h : Cut content parts trail) : words? content = some (parts.map Part.word) := by
  rw [h.restores]
  exact words?_spread_append h.gaps fun part hmem => isWord_iff.mpr (h.unbroken part hmem)

/-- The blanks of a cut stand outside of quotes. -/
theorem Cut.outside {content trail : List Char} {parts : List Part} (h : Cut content parts trail)
    {front back : List Part} (hparts : parts = front ++ back) : ClosesQuotes (spread front) := by
  have hmem : ∀ part ∈ front, part ∈ parts := fun part hmem => by simp [hparts, hmem]
  clear hparts
  induction front with
  | nil => exact .nil
  | cons part front ih =>
    obtain ⟨hpart, hfront⟩ := List.forall_mem_cons.mp hmem
    rw [spread_cons]
    exact (closesQuotes_of_blank (h.gaps.blank part hpart)).append
      ((h.unbroken part hpart).closes.append (ih hfront))

theorem Cut.cons_blank {c : Char} (hc : isBlank c = true) {content trail : List Char}
    {parts : List Part} (h : Cut content parts trail) :
    ∃ parts trail, Cut (c :: content) parts trail := by
  cases parts with
  | nil =>
    refine ⟨[], c :: trail, by simpa [spread] using h.restores, ⟨by simp, by simp, ?_⟩, by simp⟩
    exact List.forall_mem_cons.mpr ⟨hc, h.gaps.trail_blank⟩
  | cons part later =>
    obtain ⟨hpart, hlater⟩ := List.forall_mem_cons.mp h.gaps.blank
    obtain ⟨hword, hwords⟩ := List.forall_mem_cons.mp h.unbroken
    refine ⟨⟨c :: part.gap, part.word⟩ :: later, trail, ?_, ⟨?_, h.gaps.parted,
      h.gaps.trail_blank⟩, List.forall_mem_cons.mpr ⟨hword, hwords⟩⟩
    · simp [h.restores, spread_cons]
    · exact List.forall_mem_cons.mpr ⟨List.forall_mem_cons.mpr ⟨hc, hpart⟩, hlater⟩

/-- A word in front of a text without a gap at its start becomes part of the first word there. -/
theorem Cut.append_word {run : List Char} (hrun : IsWord run)
    (happend : ∀ text, Uncut none text → Uncut none (run ++ text)) {content trail : List Char}
    {parts : List Part} (h : Cut content parts trail) :
    ∃ parts trail, Cut (run ++ content) parts trail := by
  have hnew : (∀ part ∈ parts, part.gap ≠ []) →
      ∃ parts trail, Cut (run ++ content) parts trail := by
    intro hparted
    refine ⟨⟨[], run⟩ :: parts, trail, ?_, ⟨?_, hparted, h.gaps.trail_blank⟩, ?_⟩
    · simp [h.restores, spread_cons]
    · exact List.forall_mem_cons.mpr ⟨by simp, h.gaps.blank⟩
    · exact List.forall_mem_cons.mpr ⟨isWord_iff.mp hrun, h.unbroken⟩
  cases parts with
  | nil => exact hnew (by simp)
  | cons part later =>
    by_cases hgap : part.gap = []
    · obtain ⟨hpart, hlater⟩ := List.forall_mem_cons.mp h.unbroken
      have hword : IsWord (run ++ part.word) :=
        ⟨by simp [hrun.ne_nil], happend part.word hpart.uncut⟩
      refine ⟨⟨[], run ++ part.word⟩ :: later, trail, ?_, ⟨?_, h.gaps.parted,
        h.gaps.trail_blank⟩, ?_⟩
      · simp [h.restores, spread_cons, hgap]
      · exact List.forall_mem_cons.mpr ⟨by simp, h.gaps.tail.blank⟩
      · exact List.forall_mem_cons.mpr ⟨isWord_iff.mp hword, hlater⟩
    · exact hnew (List.forall_mem_cons.mpr ⟨hgap, h.gaps.parted⟩)

/-- A text that leaves no quote open can be cut. -/
theorem ClosesQuotes.exists_cut {content : List Char} (h : ClosesQuotes content) :
    ∃ parts trail, Cut content parts trail := by
  induction h with
  | nil => exact ⟨[], [], rfl, ⟨by simp, by simp, by simp⟩, by simp⟩
  | @plain c rest hquote _ ih =>
    obtain ⟨parts, trail, hcut⟩ := ih
    cases hc : isBlank c with
    | true => exact hcut.cons_blank hc
    | false =>
      have hword : IsWord [c] := ⟨by simp, (uncut_plain_iff hquote).mpr ⟨hc, rfl⟩⟩
      exact hcut.append_word hword fun text htext => (uncut_plain_iff hquote).mpr ⟨hc, htext⟩
  | @quoted q inside rest hquote hinside _ ih =>
    obtain ⟨parts, trail, hcut⟩ := ih
    have happend : ∀ text, Uncut none text → Uncut none (between q inside ++ text) := by
      intro text htext
      simpa [between] using (uncut_quoted_iff hquote hinside).mpr htext
    simpa [between] using hcut.append_word (isWord_between hquote hinside) happend

/-- Splitting a tag finds the words of its cut, in order. -/
theorem words?_eq_some_iff {content : List Char} {all : List (List Char)} :
    words? content = some all ↔ ∃ parts trail, Cut content parts trail ∧
      parts.map Part.word = all := by
  constructor
  · intro hsome
    have hcloses : ClosesQuotes content := by
      refine (closesQuotes_or_leavesOpen content).resolve_right fun hopen => ?_
      simp [hopen.words?_eq_none] at hsome
    obtain ⟨parts, trail, hcut⟩ := hcloses.exists_cut
    exact ⟨parts, trail, hcut, Option.some.inj (hcut.words?_eq.symm.trans hsome)⟩
  · rintro ⟨parts, trail, hcut, rfl⟩
    exact hcut.words?_eq

/-- A first word without quotes is the one that a look at the blanks alone finds. -/
theorem words?_head?_getD {content : List Char} {all : List (List Char)}
    (h : words? content = some all)
    (hplain : ∀ c ∈ Text.firstWord content, isQuote c = false) :
    all.head?.getD [] = Text.firstWord content := by
  rw [Text.firstWord_eq] at hplain ⊢
  rw [words?_head? h fun word hword c hc => hplain c (by simpa [Option.mem_def.mp hword] using hc)]

/-- A tag is split unless a quote in it stays open. Its words and the blanks between them are all
of its text, no blank of a word stands outside of quotes, and any other blanks between the words
are split in the same way. -/
theorem words?_respects_quotes (content : List Char) :
    (words? content = none ↔ LeavesOpen content) ∧
    ∀ all, words? content = some all →
      (∃ parts trail, Cut content parts trail ∧ parts.map Part.word = all ∧
        ∀ front back, parts = front ++ back → ClosesQuotes (spread front)) ∧
      (∀ parts trail, Gaps parts trail → parts.map Part.word = all →
        words? (spread parts ++ trail) = some all) ∧
      ((∀ c ∈ Text.firstWord content, isQuote c = false) →
        all.head?.getD [] = Text.firstWord content) := by
  refine ⟨words?_eq_none_iff content, fun all hsome => ⟨?_, ?_, words?_head?_getD hsome⟩⟩
  · obtain ⟨parts, trail, hcut, hwords⟩ := words?_eq_some_iff.mp hsome
    exact ⟨parts, trail, hcut, hwords, fun _ _ hparts => hcut.outside hparts⟩
  · rintro parts trail hgaps rfl
    obtain ⟨read, _, hcut, hwords⟩ := words?_eq_some_iff.mp hsome
    have hword : ∀ word ∈ parts.map Part.word, IsWord word := by
      rw [← hwords]
      intro word hmem
      obtain ⟨part, hpart, rfl⟩ := List.mem_map.mp hmem
      exact isWord_iff.mpr (hcut.unbroken part hpart)
    exact words?_spread_append hgaps fun part hmem => hword _ (List.mem_map_of_mem hmem)

/-- The other kind of quote is a plain character between quotes. -/
example : words? "say \"it's\"' b'  to=\"\"".toList =
    some ["say".toList, "\"it's\"' b'".toList, "to=\"\"".toList] := by decide

end Stencil.Argument
