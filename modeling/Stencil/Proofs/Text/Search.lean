import Mathlib.Data.List.Infix
import Stencil.Text.Search

/-! What the searches find: first occurrences only, and lines that end where they should. -/

namespace Stencil.Text

theorem isPrefixOf?_isSome {pattern text : List Char} :
    (pattern.isPrefixOf? text).isSome ↔ pattern <+: text := by
  constructor
  · intro h
    obtain ⟨after, hafter⟩ := Option.isSome_iff_exists.mp h
    exact ⟨after, (isPrefixOf?_eq_some hafter).symm⟩
  · rintro ⟨after, rfl⟩
    rw [isPrefixOf?_append]
    rfl

theorem isPrefixOf?_eq_none {pattern text : List Char} :
    pattern.isPrefixOf? text = none ↔ ¬ pattern <+: text := by
  rw [← isPrefixOf?_isSome, Option.not_isSome_iff_eq_none]

/-- A pattern whose first character does not occur in a text starts behind it. -/
theorem not_prefix_of_head_notMem {pattern text after : List Char} (htext : text ≠ [])
    (hpattern : pattern ≠ []) (h : ∀ p ∈ pattern.head?, p ∉ text) :
    ¬ pattern <+: text ++ after := by
  obtain ⟨c, rest, rfl⟩ := List.exists_cons_of_ne_nil htext
  obtain ⟨p, later, rfl⟩ := List.exists_cons_of_ne_nil hpattern
  intro hstart
  rw [List.cons_append, List.cons_prefix_cons] at hstart
  exact h p rfl (by simp [hstart.1])

/-- A pattern is found behind a text in which its first character does not occur. -/
theorem splitOnFirst_append {pattern text : List Char} (hpattern : pattern ≠ [])
    (h : ∀ p ∈ pattern.head?, p ∉ text) (after : List Char) :
    splitOnFirst pattern (text ++ pattern ++ after) = some (text, after) := by
  induction text with
  | nil =>
    obtain ⟨p, later, rfl⟩ := List.exists_cons_of_ne_nil hpattern
    have hfound := isPrefixOf?_append (p :: later) after
    rw [List.cons_append] at hfound
    simp [splitOnFirst, hfound]
  | cons c text ih =>
    have hnone : pattern.isPrefixOf? (c :: (text ++ pattern ++ after)) = none := by
      rw [isPrefixOf?_eq_none, ← List.cons_append, ← List.cons_append, List.append_assoc]
      exact not_prefix_of_head_notMem (by simp) hpattern h
    have hlater := ih fun p hp hmem => h p hp (List.mem_cons_of_mem _ hmem)
    rw [List.cons_append, List.cons_append, splitOnFirst, hnone, hlater]
    rfl

theorem not_infix_of_splitOnFirst {pattern text : List Char}
    (h : splitOnFirst pattern text = none) :
    ¬ pattern <:+: text := by
  induction text with
  | nil =>
    simp only [splitOnFirst, List.isEmpty_iff] at h
    split at h
    · contradiction
    · rename_i hpattern
      exact fun hoccurs => hpattern (List.infix_nil.mp hoccurs)
  | cons c rest ih =>
    simp only [splitOnFirst] at h
    split at h
    · contradiction
    · rename_i hnone
      rw [List.infix_cons_iff, not_or]
      exact ⟨isPrefixOf?_eq_none.mp hnone, ih (Option.map_eq_none_iff.mp h)⟩

/-- No occurrence of the pattern starts in the text in front of the first one. -/
theorem not_prefix_of_lineBefore {pattern text line later : List Char}
    (h : lineBefore pattern text = (line, later)) {front back : List Char}
    (hline : line = front ++ back) (hback : back ≠ []) : ¬ pattern <+: back ++ later := by
  induction text generalizing line front with
  | nil => simp_all [lineBefore]
  | cons c rest ih =>
    rw [lineBefore] at h
    split at h
    · simp_all
    · rename_i hpattern
      rw [ List.isPrefixOf_iff_prefix] at hpattern
      split at h
      · obtain ⟨rfl, rfl⟩ := Prod.mk.inj h
        cases front with
        | nil =>
          rw [List.nil_append] at hline
          subst hline
          exact hpattern
        | cons f front => simp_all
      · obtain ⟨rfl, rfl⟩ := Prod.mk.inj h
        cases front with
        | nil =>
          rw [List.nil_append] at hline
          rw [← hline, List.cons_append, lineBefore_append]
          exact hpattern
        | cons f front =>
          rw [List.cons_append, List.cons.injEq] at hline
          exact ih rfl hline.2

/-- The text in front of the next occurrence of a pattern contains none. -/
theorem not_infix_lineBefore {pattern : List Char} (hpattern : pattern ≠ []) (text : List Char) :
    ¬ pattern <:+: (lineBefore pattern text).1 := by
  rintro ⟨front, back, hline⟩
  have hsplit : (lineBefore pattern text).1 = front ++ (pattern ++ back) := by
    rw [← hline, List.append_assoc]
  have hstart : pattern <+: pattern ++ back ++ (lineBefore pattern text).2 := by
    rw [List.append_assoc]
    exact List.prefix_append _ _
  exact not_prefix_of_lineBefore rfl hsplit (by simp [hpattern]) hstart

theorem notMem_dropLast_lineBefore (pattern text : List Char) :
    '\n' ∉ (lineBefore pattern text).1.dropLast := by
  induction text with
  | nil => simp [lineBefore]
  | cons c rest ih =>
    rw [lineBefore]
    split
    · simp
    · split
      · simp
      · rename_i hnewline
        change '\n' ∉ (c :: (lineBefore pattern rest).1).dropLast
        rcases hline : (lineBefore pattern rest).1 with _ | ⟨d, line⟩
        · simp
        · rw [hline] at ih
          rw [List.dropLast_cons_cons, List.mem_cons]
          rintro (hc | hmem)
          · exact hnewline hc.symm
          · exact ih hmem

/-- A line without a newline ends where the pattern occurs, or the text ends. -/
theorem lineBefore_stop {pattern text : List Char}
    (h : (lineBefore pattern text).1.getLast? ≠ some '\n') :
    (lineBefore pattern text).2 = [] ∨ pattern <+: (lineBefore pattern text).2 := by
  induction text with
  | nil => simp [lineBefore]
  | cons c rest ih =>
    rw [lineBefore] at h ⊢
    split at h
    · rename_i hpattern
      rw [if_pos hpattern]
      exact .inr (List.isPrefixOf_iff_prefix.mp hpattern)
    · rename_i hpattern
      rw [if_neg hpattern]
      split at h
      · simp_all
      · rename_i hnewline
        rw [if_neg hnewline]
        refine ih ?_
        intro hlast
        refine h ?_
        simp [List.getLast?_cons, hlast]

/-- A line is found up to the newline that ends it, to the pattern, or to the end of the text. -/
theorem lineBefore_eq {pattern line after : List Char} (hpattern : pattern ≠ [])
    (hhead : ∀ p ∈ pattern.head?, p ∉ line) (hnewline : '\n' ∉ line.dropLast)
    (hstop : line.getLast? = some '\n' ∨ after = [] ∨ pattern <+: after) :
    lineBefore pattern (line ++ after) = (line, after) := by
  induction line with
  | nil =>
    rcases hstop with hlast | rfl | ⟨rest, rfl⟩
    · simp at hlast
    · rfl
    · obtain ⟨p, later, rfl⟩ := List.exists_cons_of_ne_nil hpattern
      have hstart : (p :: later).isPrefixOf (p :: (later ++ rest)) = true :=
        List.isPrefixOf_iff_prefix.mpr (List.prefix_append (p :: later) rest)
      rw [List.nil_append, List.cons_append, lineBefore, if_pos hstart]
  | cons c line ih =>
    have hstart : ¬ pattern.isPrefixOf (c :: (line ++ after)) = true := by
      rw [ List.isPrefixOf_iff_prefix, ← List.cons_append]
      exact not_prefix_of_head_notMem (by simp) hpattern hhead
    rw [List.cons_append, lineBefore, if_neg hstart]
    by_cases hc : c = '\n'
    · -- A newline is the last character of the line.
      have hline : line = [] := by
        rcases line with _ | ⟨d, line⟩
        · rfl
        · exact absurd (by simp [hc]) hnewline
      rw [if_pos hc, hline, List.nil_append]
    · have hlater : '\n' ∉ line.dropLast := by
        rcases line with _ | ⟨d, line⟩
        · simp
        · rw [List.dropLast_cons_cons] at hnewline
          exact fun hmem => hnewline (List.mem_cons_of_mem _ hmem)
      have hends : line.getLast? = some '\n' ∨ after = [] ∨ pattern <+: after := by
        refine hstop.imp_left fun hlast => ?_
        rcases line with _ | ⟨d, line⟩
        · simp [hc] at hlast
        · rwa [List.getLast?_cons_cons] at hlast
      rw [if_neg hc, ih (fun p hp hmem => hhead p hp (List.mem_cons_of_mem _ hmem)) hlater hends]

/-- Texts of which each ends with its only newline, but the last may have none. -/
def AreLines : List (List Char) → Prop
  | [] => True
  | line :: later =>
    line ≠ [] ∧ '\n' ∉ line.dropLast ∧ (later ≠ [] → line.getLast? = some '\n') ∧ AreLines later

theorem areLines_lines (text : List Char) : AreLines (lines text) := by
  induction text with
  | nil => trivial
  | cons c rest ih =>
    rw [lines]
    split
    · rename_i hc
      exact ⟨by simp, by simp, fun _ => by simp [hc], ih⟩
    · rename_i hc
      split
      · exact ⟨by simp, by simp, fun hne => absurd rfl hne, trivial⟩
      · rename_i line later hlines
        rw [hlines] at ih
        obtain ⟨hne, hinside, hends, hlater⟩ := ih
        obtain ⟨d, front, rfl⟩ := List.exists_cons_of_ne_nil hne
        refine ⟨by simp, ?_, fun hlater => by simpa using hends hlater, hlater⟩
        simp only [List.dropLast_cons_cons, List.mem_cons, not_or]
        exact ⟨fun heq => hc heq.symm, hinside⟩

theorem lines_eq_nil_iff {text : List Char} : lines text = [] ↔ text = [] := by
  constructor
  · intro h
    rw [← flatten_lines text, h]
    rfl
  · rintro rfl
    rfl

theorem newlines_append (s t : List Char) : newlines (s ++ t) = newlines s + newlines t := by
  simp [newlines]

theorem fields_eq_splitOn (separator : Char) (text : List Char) :
    fields separator text = text.splitOn separator := by
  induction text with
  | nil => simp [fields]
  | cons c rest ih =>
    rw [fields, ih, List.splitOn_cons_eq_if_modifyHead]
    by_cases hc : c = separator
    · simp [hc]
    · rw [if_neg hc, if_neg (by simpa using hc)]
      cases hfields : rest.splitOn separator with
      | nil => exact absurd hfields (List.splitOn_ne_nil separator rest)
      | cons field later => rfl

theorem notMem_of_mem_fields {separator : Char} {text field : List Char}
    (h : field ∈ fields separator text) : separator ∉ field := by
  induction text generalizing field with
  | nil =>
    obtain rfl := List.mem_singleton.mp h
    exact List.not_mem_nil
  | cons c rest ih =>
    rw [fields] at h
    split at h
    · rcases List.mem_cons.mp h with rfl | hlater
      · exact List.not_mem_nil
      · exact ih hlater
    · rename_i hc
      split at h
      · obtain rfl := List.mem_singleton.mp h
        simpa using Ne.symm hc
      · rename_i first later hfields
        rcases List.mem_cons.mp h with rfl | hlater
        · have hfirst : separator ∉ first := ih (hfields ▸ List.mem_cons_self)
          simp [hfirst, Ne.symm hc]
        · exact ih (hfields ▸ List.mem_cons_of_mem _ hlater)

/-- A field behind a separator is one more field. -/
theorem fields_append {separator : Char} (text : List Char) {last : List Char}
    (h : separator ∉ last) :
    fields separator (text ++ separator :: last) = fields separator text ++ [last] := by
  rw [fields_eq_splitOn, fields_eq_splitOn, List.splitOn_append_cons_self,
    List.splitOn_eq_singleton h]

end Stencil.Text
