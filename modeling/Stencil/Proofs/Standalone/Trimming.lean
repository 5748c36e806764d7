import Stencil.Helper.Builtin
import Stencil.Proofs.Tree.Bare
import Stencil.Proofs.Tree.Contents

/-! Trimming drops the blanks of lines that stand alone, and nothing else. -/

namespace Stencil

open Segment (contentsAll)

def untrimmed (tokens : List Token) : List Item := tokens.map fun token => ⟨token, ""⟩

def DirectlyInHelper (registry : Registry) (name : String) (before : List Token) : Prop :=
  ∃ tree, (untrimmed before).foldlM (Tree.addItem registry name) {} = .ok tree ∧
    tree.inHelper = true

/-- A line behind the tokens `before` with blanks and block tags only, and at least one of these;
`else` is a block tag directly in a helper block. -/
structure StandsAlone (registry : Registry) (name : String) (before line : List Token) : Prop where
  blank : ∀ text number, .literal text number ∈ line → Text.allBlank text.toList = true
  tagged : ∃ token ∈ line, token.isLiteral = false
  tags : ∀ front kind content number back, line = front ++ .tag kind content number :: back →
    kind.isBlock = true ∨
      kind = .escaped ∧ content = "else" ∧ DirectlyInHelper registry name (before ++ front)

/-- Lines behind the tokens `before`, and what is left of them: a line that stands alone loses its
literals, and its inclusions keep the literal at its start as their indent. -/
inductive Trimmed (registry : Registry) (name : String) :
    List Token → List (List Token) → List Item → Prop where
  | nil (before : List Token) : Trimmed registry name before [] []
  | alone {before line : List Token} {lines : List (List Token)} {items : List Item}
      (halone : StandsAlone registry name before line)
      (later : Trimmed registry name (before ++ line) lines items) :
    Trimmed registry name before (line :: lines)
      ((nonLiterals line).map (.ofStandalone (lineIndent line)) ++ items)
  | kept {before line : List Token} {lines : List (List Token)} {items : List Item}
      (hkept : ¬ StandsAlone registry name before line)
      (later : Trimmed registry name (before ++ line) lines items) :
    Trimmed registry name before (line :: lines) (untrimmed line ++ items)

def Accepted (registry : Registry) (name : String) (tokens : List Token) : Prop :=
  ∃ tree, (untrimmed tokens).foldlM (Tree.addItem registry name) {} = .ok tree

variable {registry : Registry} {name : String}

theorem Accepted.front {front back : List Token} (h : Accepted registry name (front ++ back)) :
    Accepted registry name front := by
  obtain ⟨tree, htree⟩ := h
  rw [untrimmed, List.map_append] at htree
  obtain ⟨middle, hmiddle, -⟩ := Tree.foldlM_append_eq_ok htree
  exact ⟨middle, hmiddle⟩

/-- Trimming knows which block is innermost. -/
theorem directlyInHelper_iff {before : List Token} (hwords : ∀ token ∈ before, token.HasWords)
    (h : Accepted registry name before) :
    DirectlyInHelper registry name before ↔
      (before.foldl (OpenKinds.after registry) []).head? = some true := by
  obtain ⟨tree, htree⟩ := h
  have hmem : ∀ item ∈ untrimmed before, item.token.HasWords := by
    simpa [untrimmed] using hwords
  have hkinds : tree.kinds = before.foldl (OpenKinds.after registry) [] := by
    have hfold := Tree.kinds_foldlM hmem htree
    have hstart : Tree.kinds {} = [] := rfl
    simpa [untrimmed, Function.comp_def, hstart] using hfold
  have hinside : tree.inHelper = true ↔
      (before.foldl (OpenKinds.after registry) []).head? = some true := by
    rw [tree.inHelper_eq, hkinds, beq_iff_eq]
  rw [← hinside]
  constructor
  · rintro ⟨other, hother, hhelper⟩
    obtain rfl : other = tree := Except.ok.inj (hother.symm.trans htree)
    exact hhelper
  · intro hhelper
    exact ⟨tree, htree, hhelper⟩

/-- The tokens of a line are judged one by one, each behind the open blocks it leaves. -/
theorem allMayStandAlone_iff (registry : Registry) (kinds : OpenKinds) (line : List Token) :
    (allMayStandAlone registry kinds line).1 = true ↔
      ∀ front token back, line = front ++ token :: back →
        token.mayStandAlone
          (OpenKinds.after registry (front.foldl (OpenKinds.after registry) kinds) token) =
            true := by
  constructor
  · rintro h front token back rfl
    rw [allMayStandAlone_append, Bool.and_eq_true, allMayStandAlone_snd] at h
    exact (Bool.and_eq_true _ _ ▸ h.2).1
  · intro h
    induction line generalizing kinds with
    | nil => rfl
    | cons token later ih =>
      have htoken := h [] token later rfl
      have hlater := ih (kinds.after registry token) fun front next back hsplit =>
        h (token :: front) next back (by rw [hsplit, List.cons_append])
      exact Bool.and_eq_true _ _ ▸ ⟨htoken, hlater⟩

theorem mayStandAlone_tag (registry : Registry) (kinds : OpenKinds) (kind : TagKind)
    (content : String) (number : Nat) :
    (Token.tag kind content number).mayStandAlone
        (kinds.after registry (.tag kind content number)) = true ↔
      kind.isBlock = true ∨ kind = .escaped ∧ content = "else" ∧ kinds.head? = some true := by
  cases kind <;>
    simp [Token.mayStandAlone, TagKind.isBlock, isElse, OpenKinds.after, and_comm]

theorem standsAlone_iff {before line : List Token}
    (hwords : ∀ token ∈ before ++ line, token.HasWords)
    (h : Accepted registry name (before ++ line)) :
    ((allMayStandAlone registry (before.foldl (OpenKinds.after registry) []) line).1 &&
        line.any fun token => !token.isLiteral) = true ↔
      StandsAlone registry name before line := by
  have hinside : ∀ front back, line = front ++ back →
      (DirectlyInHelper registry name (before ++ front) ↔
        (front.foldl (OpenKinds.after registry)
          (before.foldl (OpenKinds.after registry) [])).head? = some true) := by
    rintro front back rfl
    rw [← List.append_assoc] at h hwords
    rw [← List.foldl_append]
    exact directlyInHelper_iff (fun token hmem => hwords token (List.mem_append_left _ hmem))
      h.front
  rw [Bool.and_eq_true, allMayStandAlone_iff]
  constructor
  · rintro ⟨hall, hany⟩
    refine ⟨?_, by simpa using hany, ?_⟩
    · intro text number hmem
      obtain ⟨front, back, hsplit⟩ := List.append_of_mem hmem
      exact hall front _ back hsplit
    · intro front kind content number back hsplit
      rw [hinside front _ hsplit]
      exact (mayStandAlone_tag registry _ kind content number).mp (hall front _ back hsplit)
  · rintro ⟨hblank, htagged, htags⟩
    refine ⟨?_, by simpa using htagged⟩
    rintro front token back hsplit
    cases token with
    | literal text number => exact hblank text number (by simp [hsplit])
    | delimiterChange opening closing number => rfl
    | tag kind content number =>
      have htag := htags front kind content number back hsplit
      rw [hinside front _ hsplit] at htag
      exact (mayStandAlone_tag registry _ kind content number).mpr htag

/-- Line by line, trimming judges by the blocks that the tree has open. -/
theorem trimmed_standaloneItems {before : List Token} {lines : List (List Token)}
    (hwords : ∀ token ∈ before ++ lines.flatten, token.HasWords)
    (h : Accepted registry name (before ++ lines.flatten)) :
    Trimmed registry name before lines
      (standaloneItems registry (before.foldl (OpenKinds.after registry) []) lines) := by
  -- The tokens before grow by a line at a time, and trimming carries their open blocks along.
  induction lines generalizing before with
  | nil => exact .nil before
  | cons line later ih =>
    rw [List.flatten_cons, ← List.append_assoc] at h hwords
    have hline := standsAlone_iff
      (fun token hmem => hwords token (List.mem_append_left _ hmem)) h.front
    have hlater := ih hwords h
    rw [List.foldl_append] at hlater
    rw [standaloneItems_cons, allMayStandAlone_snd, lineItems]
    split
    · rename_i halone
      exact .alone (hline.mp halone) hlater
    · rename_i hkept
      exact .kept (fun halone => hkept (hline.mpr halone)) hlater

/-- With and without trimming a source has the same errors, or the same tree but for texts and
indents. -/
theorem map_bare_trimLines (delimiters : Delimiters) (registry : Registry) (name source : String) :
    (compile ⟨delimiters, registry, true⟩ name source).map Template.bare =
      (compile ⟨delimiters, registry, false⟩ name source).map Template.bare := by
  rw [map_bare_compile, map_bare_compile]

/-- The tokens of a source with a tree are accepted as they are. -/
theorem accepted_of_compile {delimiters : Delimiters} {source : String} {tokens : List Token}
    {template : Template} (htokens : tokenize name delimiters source = .ok tokens)
    (h : compile ⟨delimiters, registry, true⟩ name source = .ok template) :
    Accepted registry name tokens := by
  have hbare := map_bare_trimLines delimiters registry name source
  rw [h] at hbare
  cases hplain : compile ⟨delimiters, registry, false⟩ name source with
  | error error =>
    rw [hplain] at hbare
    contradiction
  | ok plain =>
    obtain ⟨-, others, hothers, htree⟩ := compile_eq_ok hplain
    obtain rfl : others = tokens := Except.ok.inj (hothers.symm.trans htokens)
    exact ⟨_, Tree.ofItems_eq_ok htree⟩

/-- Whether lines are trimmed or not, a source has the same error, or the same tree but for texts
and indents. Trimmed lines lose their literals exactly if they stand alone, and only inclusions that
stand alone are indented; what is left stands in the template, in its order. -/
theorem trimming_drops_blanks (delimiters : Delimiters) (registry : Registry)
    (name source : String) :
    (compile ⟨delimiters, registry, true⟩ name source).map Template.bare =
        (compile ⟨delimiters, registry, false⟩ name source).map Template.bare ∧
      ∀ template, compile ⟨delimiters, registry, true⟩ name source = .ok template →
        ∃ tokens lines items, tokenize name delimiters source = .ok tokens ∧
          (∀ others, IsLines tokens others ↔ others = lines) ∧
          Trimmed registry name [] lines items ∧
          Tree.ofItems registry name items = .ok template.segments ∧
          contentsAll template.segments = items.flatMap Item.contents := by
  refine ⟨map_bare_trimLines delimiters registry name source, ?_⟩
  intro template h
  obtain ⟨-, tokens, htokens, htree⟩ := compile_eq_ok h
  have hflatten : (tokenLines tokens).flatten = tokens := (isLines_tokenLines tokens).flatten_eq
  have hunique : ∀ others, IsLines tokens others ↔ others = tokenLines tokens := by
    intro others
    constructor
    · exact IsLines.eq_tokenLines
    · rintro rfl
      exact isLines_tokenLines tokens
  have htrimmed : Trimmed registry name [] (tokenLines tokens)
      (standaloneItems registry [] (tokenLines tokens)) := by
    apply trimmed_standaloneItems
    · rw [List.nil_append, hflatten]
      exact tokenize_hasWords htokens
    · rw [List.nil_append, hflatten]
      exact accepted_of_compile htokens h
  exact ⟨tokens, tokenLines tokens, _, htokens, hunique, htrimmed, htree,
    Tree.contentsAll_of_ofItems htree⟩

def cardSource : String :=
  "Card\n  \x7b\x7b> row\x7d\x7d\n\x7b\x7b#if a\x7d\x7d\n \x7b\x7bx\x7d\x7d\n" ++
    " \x7b\x7belse\x7d\x7d\n\x7b\x7b/if\x7d\x7d"

def cardTokens : List Token :=
  [.literal "Card\n" 1, .literal "  " 2, .tag .inclusion "row" 2, .literal "\n" 2,
    .tag .opening "if a" 3, .literal "\n" 3, .literal " " 4, .tag .escaped "x" 4,
    .literal "\n" 4, .literal " " 5, .tag .escaped "else" 5, .literal "\n" 5,
    .tag .closing "if" 6]

def cardTemplate : Template where
  name := "card"
  segments :=
    [.text "Card\n", .inclusion "row" "  " 2,
      .invocation ⟨0, "if", ifHelper⟩ ⟨"if", [.name "a"], [], true, 3⟩
        [.text " ", .output "x" true 4, .text "\n"] (some [])]

theorem trimming_drops_blanks_card :
    compile ⟨{}, .builtin, true⟩ "card" cardSource = .ok cardTemplate ∧
      ∃ items, Trimmed .builtin "card" [] (tokenLines cardTokens) items ∧
        Tree.ofItems .builtin "card" items = .ok cardTemplate.segments ∧
        contentsAll cardTemplate.segments = items.flatMap Item.contents := by
  have htokens : tokenize "card" {} cardSource = .ok cardTokens := by decide +kernel
  have hcompile : compile ⟨{}, .builtin, true⟩ "card" cardSource = .ok cardTemplate := by
    rw [compile, htokens]
    rfl
  obtain ⟨-, htrims⟩ := trimming_drops_blanks {} .builtin "card" cardSource
  obtain ⟨tokens, lines, items, hread, hlines, htrimmed, htree, hcontents⟩ :=
    htrims cardTemplate hcompile
  obtain rfl : cardTokens = tokens := Except.ok.inj (htokens.symm.trans hread)
  obtain rfl : tokenLines cardTokens = lines := (hlines _).mp (isLines_tokenLines cardTokens)
  exact ⟨hcompile, items, htrimmed, htree, hcontents⟩

end Stencil
