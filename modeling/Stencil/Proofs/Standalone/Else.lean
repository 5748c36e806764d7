import Stencil.Helper.Builtin
import Stencil.Proofs.Compile
import Stencil.Proofs.Standalone.Lines

/-! Trimming and the tree read `else` alike. Both keep a stack of open blocks, one from line to line
and one from item to item, and on sources with a tree the two stacks stay equal. -/

namespace Stencil

/-- The open blocks that trimming has kept in front of a token, behind the lines `earlier` and the
tokens `front` of its own line. -/
def kindsInFront (registry : Registry) (earlier : List (List Token)) (front : List Token) :
    OpenKinds :=
  (allMayStandAlone registry (behindLines registry earlier []) front).2

/-- Among the trimmed items of some tokens, the tag that stands behind the tokens `before` finds the
tree `tree` built, and turns it into `next`. -/
def MeetsTag (registry : Registry) (name : String) (tokens before : List Token) (tag : Token)
    (tree next : Tree) : Prop :=
  ∃ items indent later, itemsOf registry true tokens = items ++ ⟨tag, indent⟩ :: later ∧
    nonLiterals (Item.tokens items) = nonLiterals before ∧
    items.foldlM (Tree.addItem registry name) {} = .ok tree ∧
    Tree.addItem registry name tree ⟨tag, indent⟩ = .ok next

def Tree.DividedInto (tree next : Tree) : Prop :=
  ∃ root block outer, tree = ⟨root, block :: outer⟩ ∧ block.isHelper = true ∧
    block.elseBody = none ∧ next = ⟨root, { block with elseBody := some [] } :: outer⟩

def Tree.OutputsElse (registry : Registry) (line : Nat) (tree next : Tree) : Prop :=
  match registry.get? "else" with
  | none => next = tree.add (.output "else" true line)
  | some registered =>
    next = tree.add (.invocation registered ⟨"else", [], [], false, line⟩ [] none)

/-- What trimming and the tree make of each tag of some tokens. -/
def ReadAlike (registry : Registry) (name : String) (tokens : List Token) : Prop :=
  ∀ earlier front tag back later,
    tokenLines tokens = earlier ++ (front ++ tag :: back) :: later → tag.isLiteral = false →
    ∃ tree next, MeetsTag registry name tokens (earlier.flatten ++ front) tag tree next ∧
      tree.opened.map OpenBlock.isHelper = kindsInFront registry earlier front ∧
      ∀ line, tag = .tag .escaped "else" line →
        (tag.mayStandAlone (kindsInFront registry earlier front) = true ↔ tree.DividedInto next) ∧
        (tag.mayStandAlone (kindsInFront registry earlier front) = false ↔
          tree.OutputsElse registry line next) ∧
        (tag.mayStandAlone (kindsInFront registry earlier front) = false →
          itemsOf registry true tokens =
            standaloneItems registry [] earlier ++
              (front ++ tag :: back).map (fun token => ⟨token, ""⟩) ++
              standaloneItems registry
                (kindsInFront registry (earlier ++ [front ++ tag :: back]) []) later)

theorem kindsInFront_eq (registry : Registry) (earlier : List (List Token)) (front : List Token) :
    kindsInFront registry earlier front =
      (earlier.flatten ++ front).foldl (OpenKinds.after registry) [] := by
  rw [kindsInFront, allMayStandAlone_snd, behindLines_eq, List.foldl_append]

namespace Tree

variable {registry : Registry} {template : String}

/-- An `else` that divides a block does not also stand in it. -/
theorem not_outputsElse_of_dividedInto {tree next : Tree} {line : Nat}
    (h : tree.DividedInto next) : ¬ tree.OutputsElse registry line next := by
  obtain ⟨root, block, outer, rfl, -, hnone, rfl⟩ := h
  have hadd : ∀ segment, (⟨root, { block with elseBody := some [] } :: outer⟩ : Tree) ≠
      Tree.add ⟨root, block :: outer⟩ segment := by
    intro segment hsame
    simp [Tree.add, Tree.update, OpenBlock.update, hnone] at hsame
  unfold OutputsElse
  split
  · exact hadd _
  · exact hadd _

theorem dividedInto_of_divide {tree next : Tree} {line : Nat} (hhelper : tree.inHelper = true)
    (h : tree.divide template line = .ok next) : tree.DividedInto next := by
  obtain ⟨root, block, outer, rfl, hnone, rfl⟩ := divide_eq_ok h
  exact ⟨root, block, outer, rfl, hhelper, hnone, rfl⟩

theorem outputsElse_of_addTag {tree next : Tree} {indent : String} {line : Nat}
    (hhelper : tree.inHelper = false)
    (h : addTag registry template tree indent .escaped "else" line = .ok next) :
    tree.OutputsElse registry line next := by
  have hword : String.ofList (Text.firstWord "else".toList) = "else" := by decide
  have hread : HelperTag.read "else" false line = .ok (some ⟨"else", [], [], false, line⟩) := rfl
  rw [addTag_output (.inl rfl)] at h
  simp only [isElse, hhelper, Bool.false_and, Bool.false_eq_true, if_false, helperCall, hword,
    hread] at h
  unfold OutputsElse
  cases hget : registry.get? "else" with
  | none =>
    simp only [hget, Except.map, Except.ok.injEq] at h
    exact h.symm
  | some registered =>
    cases hvalid : registered.helper.validate ⟨"else", [], [], false, line⟩ with
    | error error => simp [hget, hvalid, Except.map] at h
    | ok =>
      simp only [hget, hvalid, Except.map, Except.ok.injEq] at h
      exact h.symm

/-- `else` divides the innermost block exactly if that is a helper block; otherwise it is an
ordinary tag. -/
theorem else_cases {tree next : Tree} {indent : String} {line : Nat}
    (h : addItem registry template tree ⟨.tag .escaped "else" line, indent⟩ = .ok next) :
    (tree.inHelper = true ↔ tree.DividedInto next) ∧
      (tree.inHelper = false ↔ tree.OutputsElse registry line next) := by
  simp only [addItem] at h
  cases hhelper : tree.inHelper with
  | true =>
    have hdivide : tree.divide template line = .ok next := by
      rw [addTag_output (.inl rfl)] at h
      simpa [isElse, hhelper] using h
    have hdivided := dividedInto_of_divide hhelper hdivide
    have hnot : ¬ tree.OutputsElse registry line next := not_outputsElse_of_dividedInto hdivided
    simp [hdivided, hnot]
  | false =>
    have houtputs := outputsElse_of_addTag hhelper h
    have hnot : ¬ tree.DividedInto next := fun hdivided =>
      not_outputsElse_of_dividedInto hdivided houtputs
    simp [houtputs, hnot]

end Tree

/-- A line with a token that may not stand alone keeps all of its tokens. -/
theorem lineItems_of_not_alone {registry : Registry} {kinds : OpenKinds} {front : List Token}
    {token : Token}
    (h : token.mayStandAlone
      (OpenKinds.after registry (allMayStandAlone registry kinds front).2 token) = false)
    (back : List Token) :
    lineItems (allMayStandAlone registry kinds (front ++ token :: back)).1
        (front ++ token :: back) =
      (front ++ token :: back).map fun token => ⟨token, ""⟩ := by
  rw [allMayStandAlone_append]
  simp [allMayStandAlone, h, lineItems]

/-- The tree opens and closes what trimming opens and closes. -/
theorem kinds_eq_kindsInFront {registry : Registry} {name : String} {tokens front : List Token}
    {earlier : List (List Token)} {items later : List Item} {tree : Tree}
    (hwords : ∀ token ∈ tokens, token.HasWords)
    (hitems : itemsOf registry true tokens = items ++ later)
    (hfront : nonLiterals (Item.tokens items) = nonLiterals (earlier.flatten ++ front))
    (hread : items.foldlM (Tree.addItem registry name) {} = .ok tree) :
    tree.kinds = kindsInFront registry earlier front := by
  have hmem : ∀ item ∈ items, item.token.HasWords := by
    intro item hitem
    have hall : item ∈ itemsOf registry true tokens := by simp [hitems, hitem]
    exact hwords _ (mem_of_mem_itemsOf hall)
  have hkinds : tree.kinds = (Item.tokens items).foldl (OpenKinds.after registry) [] :=
    Tree.kinds_foldlM hmem hread
  -- Trimming has dropped literals from the items, but literals open and close nothing.
  rw [hkinds, kindsInFront_eq, ← OpenKinds.foldl_after_nonLiterals, hfront,
    OpenKinds.foldl_after_nonLiterals]

/-- A line with an ordinary `else` is kept as it is. -/
theorem itemsOf_of_ordinary_else {registry : Registry} {tokens front back : List Token}
    {earlier later : List (List Token)} {line : Nat}
    (hlines : tokenLines tokens = earlier ++ (front ++ .tag .escaped "else" line :: back) :: later)
    (h : (Token.tag .escaped "else" line).mayStandAlone (kindsInFront registry earlier front) =
      false) :
    itemsOf registry true tokens =
      standaloneItems registry [] earlier ++
        (front ++ .tag .escaped "else" line :: back).map (fun token => ⟨token, ""⟩) ++
        standaloneItems registry
          (kindsInFront registry (earlier ++ [front ++ .tag .escaped "else" line :: back]) [])
          later := by
  have halone : (Token.tag .escaped "else" line).mayStandAlone (OpenKinds.after registry
      (allMayStandAlone registry (behindLines registry earlier []) front).2
      (.tag .escaped "else" line)) = false := h
  have hkept := lineItems_of_not_alone halone back
  rw [itemsOf, if_pos rfl, hlines, standaloneItems_append, standaloneItems_cons, hkept,
    List.append_assoc]
  simp [kindsInFront, behindLines, allMayStandAlone]

/-- Where a source has a tree, trimming and the tree agree on the open blocks in front of each tag.
So an `else` counts as a block tag for trimming exactly if it divides a helper block in the tree,
and as an ordinary tag, which keeps its line, exactly if the tree puts it out as a name or, where a
helper is registered under this name, calls that helper. -/
theorem else_read_alike {delimiters : Delimiters} {registry : Registry} {name source : String}
    {template : Template} (h : compile ⟨delimiters, registry, true⟩ name source = .ok template) :
    ∃ tokens, tokenize name delimiters source = .ok tokens ∧ ReadAlike registry name tokens := by
  obtain ⟨-, tokens, htokens, htree⟩ := compile_eq_ok h
  refine ⟨tokens, htokens, ?_⟩
  intro earlier front tag back later hlines htag
  obtain ⟨items, indent, further, hitems, hfront⟩ := itemsOf_split hlines htag
  have hread : (itemsOf registry true tokens).foldlM (Tree.addItem registry name) {} =
      .ok ⟨template.segments, []⟩ := Tree.ofItems_eq_ok htree
  rw [hitems] at hread
  obtain ⟨tree, hbefore, hbehind⟩ := Tree.foldlM_append_eq_ok hread
  obtain ⟨next, hitem, -⟩ := Tree.foldlM_cons_eq_ok hbehind
  have hkinds : tree.kinds = kindsInFront registry earlier front :=
    kinds_eq_kindsInFront (tokenize_hasWords htokens) hitems hfront hbefore
  refine ⟨tree, next, ⟨items, indent, further, hitems, hfront, hbefore, hitem⟩, hkinds, ?_⟩
  rintro line rfl
  have hblock : (Token.tag .escaped "else" line).mayStandAlone
      (kindsInFront registry earlier front) = tree.inHelper := by
    rw [tree.inHelper_eq, hkinds]
    simp [Token.mayStandAlone, TagKind.isBlock, isElse]
  obtain ⟨hdivides, houtputs⟩ := Tree.else_cases hitem
  refine ⟨hblock ▸ hdivides, hblock ▸ houtputs, ?_⟩
  exact itemsOf_of_ordinary_else hlines

def choiceSource : String :=
  "\x7b\x7b#if a\x7d\x7d\n \x7b\x7b^b\x7d\x7d\x7b\x7belse\x7d\x7d\x7b\x7b/b\x7d\x7d\n" ++
    "\x7b\x7belse\x7d\x7d\n\x7b\x7b/if\x7d\x7d"

def choiceTokens : List Token :=
  [.tag .opening "if a" 1, .literal "\n" 1, .literal " " 2, .tag .inverted "b" 2,
    .tag .escaped "else" 2, .tag .closing "b" 2, .literal "\n" 2, .tag .escaped "else" 3,
    .literal "\n" 3, .tag .closing "if" 4]

def choiceTemplate : Template where
  name := "choice"
  segments :=
    [.invocation ⟨0, "if", ifHelper⟩ ⟨"if", [.name "a"], [], true, 1⟩
      [.text " ", .block "b" true [.output "else" true 2] 2, .text "\n"] (some [])]

theorem else_read_alike_choice :
    compile ⟨{}, .builtin, true⟩ "choice" choiceSource = .ok choiceTemplate ∧
      tokenize "choice" {} choiceSource = .ok choiceTokens ∧
      ReadAlike .builtin "choice" choiceTokens := by
  have htokens : tokenize "choice" {} choiceSource = .ok choiceTokens := by decide +kernel
  have hcompile : compile ⟨{}, .builtin, true⟩ "choice" choiceSource = .ok choiceTemplate := by
    rw [compile, htokens]
    rfl
  obtain ⟨tokens, hread, halike⟩ := else_read_alike hcompile
  obtain rfl : choiceTokens = tokens := Except.ok.inj (htokens.symm.trans hread)
  exact ⟨hcompile, htokens, halike⟩

/-- Helpers may have any name, also that of the tag that divides helper blocks. -/
def elseRegistry : Registry where
  helpers := [("else", { requiredParams := 0, execute := fun _ => pure () })]

/-- An ordinary `else` is not always put out as a name: a helper may have this name. -/
theorem not_else_always_output :
    ¬ ∀ (registry : Registry) (source : String) (template : Template) (tokens : List Token),
      compile ⟨{}, registry, true⟩ "t" source = .ok template →
      tokenize "t" {} source = .ok tokens →
      ∀ earlier front line back later,
        tokenLines tokens = earlier ++ (front ++ .tag .escaped "else" line :: back) :: later →
        ∃ tree next,
          MeetsTag registry "t" tokens (earlier.flatten ++ front) (.tag .escaped "else" line) tree
            next ∧
          ((Token.tag .escaped "else" line).mayStandAlone (kindsInFront registry earlier front) =
              false ↔
            next = tree.add (.output "else" true line)) := by
  intro h
  have htokens : tokenize "t" {} "\x7b\x7belse\x7d\x7d" = .ok [.tag .escaped "else" 1] := by
    decide +kernel
  have hcompile : ∃ template,
      compile ⟨{}, elseRegistry, true⟩ "t" "\x7b\x7belse\x7d\x7d" = .ok template := by
    rw [compile, htokens]
    exact ⟨_, rfl⟩
  obtain ⟨template, hcompile⟩ := hcompile
  obtain ⟨tree, next, ⟨items, indent, later, hitems, -, htree, hnext⟩, houtput⟩ :=
    h elseRegistry _ template _ hcompile htokens [] [] 1 [] [] rfl
  have hsingle : itemsOf elseRegistry true [.tag .escaped "else" 1] =
      [⟨.tag .escaped "else" 1, ""⟩] := rfl
  rw [hsingle] at hitems
  obtain rfl : items = [] := by
    have hlength := congrArg List.length hitems
    simp only [List.length_append, List.length_cons, List.length_nil] at hlength
    exact List.length_eq_zero_iff.mp (by omega)
  obtain rfl : {} = tree := Except.ok.inj htree
  have hadd : next = Tree.add {} (.output "else" true 1) := houtput.mp rfl
  have hcalled := Except.ok.inj hnext
  rw [hadd] at hcalled
  simp [Tree.add, Tree.update] at hcalled

end Stencil
