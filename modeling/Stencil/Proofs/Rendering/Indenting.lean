import Mathlib.Data.List.Basic
import Stencil.Proofs.Sink
import Stencil.Proofs.Text.Search
import Stencil.Render

/-! Texts behind an indent on each line. The lines stay the same lines, so that indents add up, can
be taken away again, and put in no newline. -/

namespace Stencil

namespace Text

theorem lines_append_newline {front : List Char} (h : '\n' ∉ front) (rest : List Char) :
    lines (front ++ '\n' :: rest) = (front ++ ['\n']) :: lines rest := by
  induction front with
  | nil => rw [List.nil_append, lines, if_pos rfl, List.nil_append]
  | cons c front ih =>
    obtain ⟨hc, hfront⟩ := not_or.mp (List.mem_cons.not.mp h)
    rw [List.cons_append, lines, if_neg fun heq => hc heq.symm, ih hfront]
    rfl

theorem lines_of_unended {line : List Char} (hne : line ≠ []) (h : '\n' ∉ line) :
    lines line = [line] := by
  induction line with
  | nil => exact absurd rfl hne
  | cons c line ih =>
    obtain ⟨hc, hline⟩ := not_or.mp (List.mem_cons.not.mp h)
    rw [lines, if_neg fun heq => hc heq.symm]
    cases line with
    | nil => rfl
    | cons d line => rw [ih (by simp) hline]

/-- Lines are the lines of the text that they make up. -/
theorem AreLines.lines_flatten {all : List (List Char)} (h : AreLines all) :
    lines all.flatten = all := by
  induction all with
  | nil => rfl
  | cons line later ih =>
    obtain ⟨hne, hinside, hends, hlater⟩ := h
    rw [List.flatten_cons]
    by_cases hlast : line.getLast? = some '\n'
    · have hline : line.dropLast ++ ['\n'] = line :=
        List.dropLast_append_getLast? '\n' (Option.mem_def.mpr hlast)
      rw [← hline, List.append_assoc, List.singleton_append, lines_append_newline hinside,
        ih hlater]
    · -- Only the last line can end without a newline.
      have hlater : later = [] := by
        by_contra hmore
        exact hlast (hends hmore)
      have hnone : '\n' ∉ line := by
        intro hmem
        rw [← List.dropLast_append_getLast hne, List.mem_append, List.mem_singleton] at hmem
        rcases hmem with hfront | hend
        · exact hinside hfront
        · exact hlast (by rw [List.getLast?_eq_some_getLast hne, ← hend])
      rw [hlater, List.flatten_nil, List.append_nil, lines_of_unended hne hnone]

/-- Without newlines in it, a text in front of lines makes lines of them. -/
theorem AreLines.map_append {front : List Char} (hfront : '\n' ∉ front) {all : List (List Char)}
    (h : AreLines all) : AreLines (all.map (front ++ ·)) := by
  induction all with
  | nil => trivial
  | cons line later ih =>
    obtain ⟨hne, hinside, hends, hlater⟩ := h
    refine ⟨by simp [hne], ?_, fun hmore => ?_, ih hlater⟩
    · rw [List.dropLast_append_of_ne_nil hne]
      exact List.mem_append.not.mpr (not_or.mpr ⟨hfront, hinside⟩)
    · rw [List.getLast?_append_of_ne_nil _ hne]
      exact hends fun hnil => hmore (by rw [hnil]; rfl)

theorem newlines_flatten_map_append {front : List Char} (hfront : '\n' ∉ front)
    (all : List (List Char)) :
    newlines (all.map (front ++ ·)).flatten = newlines all.flatten := by
  have hnone : newlines front = 0 := List.count_eq_zero.mpr hfront
  induction all with
  | nil => rfl
  | cons line later ih =>
    rw [List.map_cons, List.flatten_cons, List.flatten_cons, newlines_append, newlines_append,
      newlines_append, hnone, ih, Nat.zero_add]

end Text

namespace Render

open Text (lines newlines)

/-- A text with its lines behind an indent. -/
def indented (indent text : String) : String := String.join (indentedPieces indent text)

theorem toList_indented (indent text : String) :
    (indented indent text).toList = ((lines text.toList).map (indent.toList ++ ·)).flatten := by
  rw [indented, indentedPieces, String.toList_join]
  induction lines text.toList with
  | nil => rfl
  | cons line later ih => simp [ih]

/-- Pieces that are written one after the other are this text. -/
theorem writeUntil_indentedPieces (indent text written : String) :
    Sink.text.writeUntil (indentedPieces indent text) written =
      (true, written ++ indented indent text) := Sink.writeUntil_text _ written

theorem lines_indented {indent : String} (h : '\n' ∉ indent.toList) (text : String) :
    lines (indented indent text).toList = (lines text.toList).map (indent.toList ++ ·) := by
  rw [toList_indented]
  exact ((Text.areLines_lines text.toList).map_append h).lines_flatten

theorem indented_indented {inner : String} (h : '\n' ∉ inner.toList) (outer text : String) :
    indented outer (indented inner text) = indented (outer ++ inner) text := by
  rw [← String.toList_inj, toList_indented, lines_indented h, toList_indented, List.map_map]
  simp [Function.comp_def]

theorem indented_empty (text : String) : indented "" text = text := by
  rw [← String.toList_inj, toList_indented]
  simp [Text.flatten_lines]

theorem newlines_indented {indent : String} (h : '\n' ∉ indent.toList) (text : String) :
    newlines (indented indent text).toList = newlines text.toList := by
  rw [toList_indented, Text.newlines_flatten_map_append h, Text.flatten_lines]

def unindented (indent text : String) : String :=
  String.ofList ((lines text.toList).map fun line =>
    (indent.toList.isPrefixOf? line).getD line).flatten

theorem unindented_indented {indent : String} (h : '\n' ∉ indent.toList) (text : String) :
    unindented indent (indented indent text) = text := by
  rw [unindented, lines_indented h, List.map_map]
  simp [Function.comp_def, Text.isPrefixOf?_append, Text.flatten_lines]

end Render

end Stencil
