/-! Searching a text: the first occurrence of a pattern, fields, lines. -/

namespace Stencil.Text

/-- What stands before and after the first occurrence of a pattern. -/
def splitOnFirst (pattern : List Char) : List Char → Option (List Char × List Char)
  | [] => if pattern.isEmpty then some ([], []) else none
  | c :: rest =>
    match pattern.isPrefixOf? (c :: rest) with
    | some after => some ([], after)
    | none => (splitOnFirst pattern rest).map fun (before, after) => (c :: before, after)

/-- The text in front of the first occurrence of a pattern, but no further than its first newline,
and the rest. -/
def lineBefore (pattern : List Char) : List Char → List Char × List Char
  | [] => ([], [])
  | c :: rest =>
    if pattern.isPrefixOf (c :: rest) then ([], c :: rest)
    else if c = '\n' then ([c], rest)
    else
      let (line, later) := lineBefore pattern rest
      (c :: line, later)

/-- The lines of a text, each with the newline that ends it; the last may have none. -/
def lines : List Char → List (List Char)
  | [] => []
  | c :: rest =>
    if c = '\n' then [c] :: lines rest
    else
      match lines rest with
      | [] => [[c]]
      | line :: later => (c :: line) :: later

/-- The fields between the occurrences of a separator: one more than it occurs. -/
def fields (separator : Char) : List Char → List (List Char)
  | [] => [[]]
  | c :: rest =>
    if c = separator then [] :: fields separator rest
    else
      match fields separator rest with
      | [] => [[c]]
      | field :: later => (c :: field) :: later

def newlines (text : List Char) : Nat := text.count '\n'

theorem isPrefixOf?_eq_some {pattern text after : List Char}
    (h : pattern.isPrefixOf? text = some after) : text = pattern ++ after := by
  induction pattern generalizing text with
  | nil => cases text <;> exact Option.some.inj h
  | cons p pattern ih =>
    cases text with
    | nil => contradiction
    | cons c text =>
      change (if p == c then pattern.isPrefixOf? text else none) = some after at h
      split at h
      · rename_i hc
        simp only [beq_iff_eq] at hc
        rw [hc, ih h, List.cons_append]
      · simp at h

theorem isPrefixOf?_append (pattern after : List Char) :
    pattern.isPrefixOf? (pattern ++ after) = some after := by
  induction pattern with
  | nil => cases after <;> rfl
  | cons p pattern ih =>
    change (if p == p then pattern.isPrefixOf? (pattern ++ after) else none) = some after
    rw [if_pos (beq_self_eq_true p), ih]

theorem splitOnFirst_eq_some {pattern text before after : List Char}
    (h : splitOnFirst pattern text = some (before, after)) :
    text = before ++ pattern ++ after := by
  induction text generalizing before with
  | nil =>
    simp only [splitOnFirst] at h
    split at h <;> simp_all
  | cons c rest ih =>
    simp only [splitOnFirst] at h
    split at h
    · rename_i found hfound
      simp only [Option.some.injEq, Prod.mk.injEq] at h
      obtain ⟨rfl, rfl⟩ := h
      exact isPrefixOf?_eq_some hfound
    · simp only [Option.map_eq_some_iff, Prod.mk.injEq, Prod.exists] at h
      obtain ⟨later, _, hsplit, rfl, rfl⟩ := h
      simp [ih hsplit]

theorem lineBefore_append (pattern text : List Char) :
    (lineBefore pattern text).1 ++ (lineBefore pattern text).2 = text := by
  induction text with
  | nil => rfl
  | cons c rest ih =>
    simp only [lineBefore]
    split
    · rfl
    · split
      · rfl
      · simp [ih]

theorem flatten_lines (text : List Char) : (lines text).flatten = text := by
  induction text with
  | nil => rfl
  | cons c rest ih =>
    simp only [lines]
    split
    · simp [ih]
    · split
      · rename_i h
        rw [h] at ih
        simp only [List.flatten_nil] at ih
        simp [← ih]
      · rename_i h
        rw [h] at ih
        simp only [List.flatten_cons] at ih
        simp [← ih]

end Stencil.Text
