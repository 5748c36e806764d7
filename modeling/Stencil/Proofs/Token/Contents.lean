import Stencil.Proofs.Token.Reads

/-! What stands in the tokens of a source. -/

namespace Stencil

/-- Only comments may be empty; the content of any other tag has words. -/
def Token.HasWords : Token → Prop
  | .tag kind content _ => kind = .comment ∨ Text.words content.toList ≠ []
  | _ => True

theorem Text.words_trim_ne_nil {text : List Char} (h : Text.trim text ≠ []) :
    Text.words (Text.trim text) ≠ [] := by
  rcases Text.trimStart_cases text with hnil | ⟨c, rest, hcons, hc⟩
  · rw [Text.trim, hnil] at h
    exact absurd rfl h
  · rw [Text.trim, hcons, Text.trimEnd_cons_of_not_blank hc, Text.words_of_not_blank hc]
    simp

theorem Lexer.ReadsAs.hasWords {lexer : Lexer} {raw : List Char} {kind : Option TagKind}
    {token : Token} {delimiters : Delimiters}
    (h : lexer.ReadsAs (Text.trim raw) kind (.ok token) delimiters) : token.HasWords := by
  cases h with
  | tag hcomment =>
    by_cases hempty : Text.trim raw = []
    · exact .inl (hcomment hempty)
    · exact .inr (by simpa using Text.words_trim_ne_nil hempty)
  | change => trivial

theorem Lexer.step_hasWords {lexer behind : Lexer} {token : Token}
    (h : lexer.step = (.ok token, behind)) : token.HasWords := by
  rcases step_cases h with ⟨body, -, htag⟩ | ⟨-, hliteral, -⟩
  · obtain ⟨raw, -, -, -, hread⟩ := tag_eq_ok htag
    exact hread.hasWords
  · obtain rfl := Except.ok.inj hliteral
    trivial

def Token.IsPiece : Token → Prop
  | .literal text _ => text ≠ "" ∧ '\n' ∉ text.toList.dropLast
  | _ => True

theorem Lexer.ReadsAs.isPiece {lexer : Lexer} {content : List Char} {kind : Option TagKind}
    {token : Token} {delimiters : Delimiters}
    (h : lexer.ReadsAs content kind (.ok token) delimiters) : token.IsPiece := by
  cases h <;> trivial

theorem Lexer.step_isPiece {lexer behind : Lexer} {token : Token} (hrest : lexer.rest ≠ [])
    (h : lexer.step = (.ok token, behind)) : token.IsPiece := by
  rcases step_cases h with ⟨body, -, htag⟩ | ⟨hnone, hliteral, -⟩
  · obtain ⟨raw, -, -, -, hread⟩ := tag_eq_ok htag
    exact hread.isPiece
  · obtain rfl := Except.ok.inj hliteral
    refine ⟨?_, by simpa using Text.notMem_dropLast_lineBefore _ _⟩
    intro hempty
    have hlt := literal_rest_lt hrest (Text.isPrefixOf?_eq_none.mpr hnone)
    have hsplit := Text.lineBefore_append lexer.delimiters.opening.toList lexer.rest
    rw [String.ofList_eq_empty_iff.mp hempty, List.nil_append] at hsplit
    simp [literal, hsplit] at hlt

/-- Each token of a run is what one of its steps has read. -/
theorem Lexer.exists_step_of_mem_run {lexer : Lexer} {token : Token}
    (h : token ∈ lexer.run.tokens) :
    ∃ before behind : Lexer, before.rest ≠ [] ∧ before.step = (.ok token, behind) := by
  fun_induction Lexer.run lexer with
  | case1 lexer hnone => contradiction
  | case2 lexer fault behind hfault => contradiction
  | case3 lexer first behind hread later ih =>
    rcases List.mem_cons.mp h with rfl | hlater
    · obtain ⟨-, hrest, hstep⟩ := Lexer.next?_eq_ok hread
      exact ⟨lexer, behind, hrest, hstep⟩
    · exact ih hlater

theorem tokenize_eq_ok {template source : String} {delimiters : Delimiters} {tokens : List Token}
    (h : tokenize template delimiters source = .ok tokens) :
    tokens = (Lexer.ofSource delimiters source).run.tokens := by
  unfold tokenize Lexing.ofSource at h
  dsimp only at h
  split at h
  · contradiction
  · exact (Except.ok.inj h).symm

theorem tokenize_eq_ok_iff {template source : String} {delimiters : Delimiters}
    {tokens : List Token} :
    tokenize template delimiters source = .ok tokens ↔
      (Lexer.ofSource delimiters source).run.fault = none ∧
        tokens = (Lexer.ofSource delimiters source).run.tokens := by
  simp only [tokenize, Lexing.error?, Lexing.ofSource]
  cases (Lexer.ofSource delimiters source).run.fault <;> simp [eq_comm]

/-- Tags are read with words in them. -/
theorem tokenize_hasWords {template source : String} {delimiters : Delimiters} {tokens : List Token}
    (h : tokenize template delimiters source = .ok tokens) : ∀ token ∈ tokens, token.HasWords := by
  intro token hmem
  obtain ⟨before, behind, -, hstep⟩ := Lexer.exists_step_of_mem_run (tokenize_eq_ok h ▸ hmem)
  exact Lexer.step_hasWords hstep

theorem tokenize_isPiece {template source : String} {delimiters : Delimiters} {tokens : List Token}
    (h : tokenize template delimiters source = .ok tokens) : ∀ token ∈ tokens, token.IsPiece := by
  intro token hmem
  obtain ⟨before, behind, hrest, hstep⟩ := Lexer.exists_step_of_mem_run (tokenize_eq_ok h ▸ hmem)
  exact Lexer.step_isPiece hrest hstep

end Stencil
