/-! Escaping for markup: the five characters with a meaning there are replaced by entities. -/

namespace Stencil.Text

/-- The entity that stands for a character with a meaning in markup. -/
def entity? : Char → Option (List Char)
  | '&' => some "&amp;".toList
  | '<' => some "&lt;".toList
  | '>' => some "&gt;".toList
  | '"' => some "&quot;".toList
  | '\'' => some "&#39;".toList
  | _ => none

/-- The pieces of an escaped text: plain runs, maybe empty, and between two of them an entity. -/
def escapePieces : List Char → List (List Char)
  | [] => [[]]
  | c :: rest =>
    match entity? c with
    | some entity => [] :: entity :: escapePieces rest
    | none =>
      match escapePieces rest with
      | [] => [[c]]
      | run :: later => (c :: run) :: later

def escape (text : String) : String :=
  String.ofList (escapePieces text.toList).flatten

/-- Escaping replaces each character by itself or by its entity. -/
theorem flatten_escapePieces (text : List Char) :
    (escapePieces text).flatten = text.flatMap fun c => (entity? c).getD [c] := by
  induction text with
  | nil => rfl
  | cons c rest ih =>
    simp only [escapePieces, List.flatMap_cons, ← ih]
    split
    · rename_i h
      simp [h]
    · rename_i h
      split
      · rename_i hrest
        simp [h, hrest]
      · rename_i hrest
        simp [h, hrest]

end Stencil.Text
