import Stencil.Proofs.Standalone.Lines
import Stencil.Proofs.Token.Contents

/-! The indents that trimming keeps for inclusions. -/

namespace Stencil

/-- Blanks within one line, and none at all where lines are not trimmed. -/
structure IsIndent (trimLines : Bool) (indent : String) : Prop where
  blank : Text.allBlank indent.toList = true
  inline : '\n' ∉ indent.toList
  untrimmed : trimLines = false → indent = ""

theorem isIndent_empty (trimLines : Bool) : IsIndent trimLines "" :=
  ⟨by decide, by decide, fun _ => rfl⟩

theorem mem_dropLast_or_getLast?_eq {α : Type} {a : α} {l : List α} (h : a ∈ l) :
    a ∈ l.dropLast ∨ l.getLast? = some a := by
  have hne : l ≠ [] := List.ne_nil_of_mem h
  rw [← List.dropLast_append_getLast hne, List.mem_append, List.mem_singleton] at h
  rw [List.getLast?_eq_some_getLast hne]
  exact h.imp_right fun hlast => congrArg some hlast.symm

/-- Only the last token of a line may end it. -/
theorem IsLines.endsLine_of_mem_dropLast {tokens line : List Token} {lines : List (List Token)}
    (h : IsLines tokens lines) (hline : line ∈ lines) {token : Token}
    (htoken : token ∈ line.dropLast) : token.endsLine = false := by
  induction h with
  | nil => simp at hline
  | unended hne hinside =>
    obtain rfl := List.mem_singleton.mp hline
    exact hinside token (List.dropLast_subset _ htoken)
  | cons hinside hstop later ih =>
    rcases List.mem_cons.mp hline with rfl | hlater
    · rw [List.dropLast_concat] at htoken
      exact hinside token htoken
    · exact ih hlater

theorem allBlank_lineIndent {registry : Registry} {kinds : OpenKinds} {line : List Token}
    (h : (allMayStandAlone registry kinds line).1 = true) :
    Text.allBlank (lineIndent line).toList = true := by
  rcases line with _ | ⟨token, later⟩
  · rfl
  · obtain ⟨htoken, -⟩ := Bool.and_eq_true_iff.mp h
    cases token with
    | literal text line => exact htoken
    | tag kind content line => rfl
    | delimiterChange opening closing line => rfl

/-- In front of a tag, no newline stands in the literal that a line starts with. -/
theorem newline_notMem_lineIndent {line : List Token}
    (hpieces : ∀ token ∈ line, token.IsPiece)
    (hinside : ∀ token ∈ line.dropLast, token.endsLine = false)
    (htag : (line.any fun token => !token.isLiteral) = true) : '\n' ∉ (lineIndent line).toList := by
  rcases line with _ | ⟨token, later⟩
  · simp [lineIndent]
  · cases token with
    | tag kind content line => simp [lineIndent]
    | delimiterChange opening closing line => simp [lineIndent]
    | literal text line =>
      have hlater : later ≠ [] := by
        rintro rfl
        simp [Token.isLiteral] at htag
      have hfirst : Token.literal text line ∈ (Token.literal text line :: later).dropLast := by
        rw [List.dropLast_cons_of_ne_nil hlater]
        exact List.mem_cons_self
      have hends := hinside _ hfirst
      obtain ⟨-, hpiece⟩ := hpieces (.literal text line) List.mem_cons_self
      change '\n' ∉ text.toList
      intro hnewline
      rcases mem_dropLast_or_getLast?_eq hnewline with hfront | hlast
      · exact hpiece hfront
      · simp [Token.endsLine, hlast] at hends

theorem isIndent_ofStandalone {indent : String} (h : IsIndent true indent) (token : Token) :
    IsIndent true (Item.ofStandalone indent token).indent := by
  unfold Item.ofStandalone
  split
  · exact h
  · exact isIndent_empty true

theorem isIndent_standaloneItems {registry : Registry} {kinds : OpenKinds}
    {lines : List (List Token)} (hpieces : ∀ line ∈ lines, ∀ token ∈ line, token.IsPiece)
    (hinside : ∀ line ∈ lines, ∀ token ∈ line.dropLast, token.endsLine = false) {item : Item}
    (h : item ∈ standaloneItems registry kinds lines) : IsIndent true item.indent := by
  induction lines generalizing kinds with
  | nil => simp [standaloneItems] at h
  | cons line later ih =>
    obtain ⟨hpiece, hpieces⟩ := List.forall_mem_cons.mp hpieces
    obtain ⟨hends, hinside⟩ := List.forall_mem_cons.mp hinside
    rw [standaloneItems_cons] at h
    rcases List.mem_append.mp h with hline | hlater
    · unfold lineItems at hline
      split at hline
      · rename_i halone
        obtain ⟨hblank, htag⟩ := Bool.and_eq_true_iff.mp halone
        obtain ⟨token, -, rfl⟩ := List.mem_map.mp hline
        have hindent : IsIndent true (lineIndent line) :=
          ⟨allBlank_lineIndent hblank, newline_notMem_lineIndent hpiece hends htag, by simp⟩
        exact isIndent_ofStandalone hindent token
      · obtain ⟨token, -, rfl⟩ := List.mem_map.mp hline
        exact isIndent_empty true
    · exact ih hpieces hinside hlater

/-- Items carry indents, of the blanks in front of them at most. -/
theorem isIndent_itemsOf {registry : Registry} {trimLines : Bool} {tokens : List Token}
    (hpieces : ∀ token ∈ tokens, token.IsPiece) {item : Item}
    (h : item ∈ itemsOf registry trimLines tokens) : IsIndent trimLines item.indent := by
  cases trimLines with
  | false =>
    obtain ⟨token, -, rfl⟩ := List.mem_map.mp h
    exact isIndent_empty false
  | true =>
    have hlines := isLines_tokenLines tokens
    refine isIndent_standaloneItems ?_ (fun line => hlines.endsLine_of_mem_dropLast) h
    intro line hline token htoken
    have hmem : token ∈ (tokenLines tokens).flatten := List.mem_flatten_of_mem hline htoken
    rw [hlines.flatten_eq] at hmem
    exact hpieces token hmem

end Stencil
