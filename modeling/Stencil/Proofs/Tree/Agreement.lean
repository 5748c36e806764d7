import Stencil.Helper.Builtin
import Stencil.Proofs.Standalone.Lines
import Stencil.Proofs.Compile

/-! Registries that agree on the first words of a source's tags compile it alike: neither trimming
nor the tree asks a registry for anything else. -/

namespace Stencil

/-- A registration changes nothing under other names. -/
theorem Registry.get?_register_of_ne {name word : String} (h : word ≠ name) (registry : Registry)
    (helper : Helper) : (registry.register name helper).get? word = registry.get? word := by
  unfold register
  split
  · rfl
  · have hlookup : [(name, helper)].lookup word = none := by
      rw [List.lookup_cons, beq_false_of_ne h]
      rfl
    simp [get?, List.lookup_append, hlookup]

/-- The word under which a variable, unescaped variable or section tag looks for a helper. -/
def Token.lookedUp? : Token → Option String
  | .tag .escaped content _ => some (String.ofList (Text.firstWord content.toList))
  | .tag .unescaped content _ => some (String.ofList (Text.firstWord content.toList))
  | .tag .opening content _ => some (String.ofList (Text.firstWord content.toList))
  | _ => none

def Token.FoundAlike (registry other : Registry) (token : Token) : Prop :=
  ∀ word ∈ token.lookedUp?, registry.get? word = other.get? word

theorem Token.foundAlike_register {name : String} {token : Token}
    (h : token.lookedUp? ≠ some name) (registry : Registry) (helper : Helper) :
    token.FoundAlike (registry.register name helper) registry := by
  intro word hword
  have hne : word ≠ name := by
    rintro rfl
    exact h hword
  exact registry.get?_register_of_ne hne helper

variable {registry other : Registry}

/-! ### Trimming -/

theorem OpenKinds.after_congr {token : Token} (h : token.FoundAlike registry other)
    (kinds : OpenKinds) : kinds.after registry token = kinds.after other token := by
  cases token with
  | literal text line => rfl
  | delimiterChange opening closing line => rfl
  | tag kind content line =>
    cases kind with
    | opening =>
      have hfound := h _ rfl
      simp only [OpenKinds.after, Registry.contains, hfound]
    | _ => rfl

theorem allMayStandAlone_congr {line : List Token}
    (h : ∀ token ∈ line, token.FoundAlike registry other) (kinds : OpenKinds) :
    allMayStandAlone registry kinds line = allMayStandAlone other kinds line := by
  induction line generalizing kinds with
  | nil => rfl
  | cons token later ih =>
    obtain ⟨htoken, hlater⟩ := List.forall_mem_cons.mp h
    simp only [allMayStandAlone, OpenKinds.after_congr htoken, ih hlater]

theorem standaloneItems_congr {lines : List (List Token)}
    (h : ∀ token ∈ lines.flatten, token.FoundAlike registry other) (kinds : OpenKinds) :
    standaloneItems registry kinds lines = standaloneItems other kinds lines := by
  induction lines generalizing kinds with
  | nil => rfl
  | cons line later ih =>
    rw [List.flatten_cons, List.forall_mem_append] at h
    rw [standaloneItems_cons, standaloneItems_cons, allMayStandAlone_congr h.1, ih h.2]

theorem itemsOf_congr {tokens : List Token}
    (h : ∀ token ∈ tokens, token.FoundAlike registry other) (trimLines : Bool) :
    itemsOf registry trimLines tokens = itemsOf other trimLines tokens := by
  cases trimLines with
  | false => rfl
  | true =>
    have hlines : ∀ token ∈ (tokenLines tokens).flatten, token.FoundAlike registry other := by
      rwa [(isLines_tokenLines tokens).flatten_eq]
    exact standaloneItems_congr hlines []

/-! ### The tree -/

namespace Tree

/-- A tag is dispatched, read, named and checked by the one helper that its first word names. -/
theorem helperCall_congr {content : String}
    (h : registry.get? (String.ofList (Text.firstWord content.toList)) =
      other.get? (String.ofList (Text.firstWord content.toList)))
    (template : String) (block : Bool) (line : Nat) :
    helperCall registry template content block line =
      helperCall other template content block line := by
  simp only [helperCall, h]

theorem addItem_congr {item : Item} (h : item.token.FoundAlike registry other)
    (template : String) (tree : Tree) :
    addItem registry template tree item = addItem other template tree item := by
  obtain ⟨token, indent⟩ := item
  cases token with
  | literal text line => rfl
  | delimiterChange opening closing line => rfl
  | tag kind content line =>
    cases kind with
    | escaped =>
      have hcall := helperCall_congr (h _ rfl) template false line
      simp only [addItem, addTag, hcall]
    | unescaped =>
      have hcall := helperCall_congr (h _ rfl) template false line
      simp only [addItem, addTag, hcall]
    | opening =>
      have hcall := helperCall_congr (h _ rfl) template true line
      simp only [addItem, addTag, hcall]
    | _ => rfl

theorem foldlM_addItem_congr {items : List Item}
    (h : ∀ item ∈ items, item.token.FoundAlike registry other) (template : String) (tree : Tree) :
    items.foldlM (addItem registry template) tree = items.foldlM (addItem other template) tree := by
  induction items generalizing tree with
  | nil => rfl
  | cons item later ih =>
    obtain ⟨hitem, hlater⟩ := List.forall_mem_cons.mp h
    rw [List.foldlM_cons, List.foldlM_cons, addItem_congr hitem]
    congr 1
    funext next
    exact ih hlater next

theorem ofItems_congr {items : List Item}
    (h : ∀ item ∈ items, item.token.FoundAlike registry other) (template : String) :
    ofItems registry template items = ofItems other template items := by
  simp only [ofItems, foldlM_addItem_congr h]

end Tree

/-- Registries that have the same helper, or none, for the first word of every variable, unescaped
variable and section tag of a source compile it alike: to the same tree, or with the same error. -/
theorem compile_with_agreeing_registries {delimiters : Delimiters} {source : String}
    (h : ∀ token ∈ (Lexing.ofSource delimiters source).tokens, token.FoundAlike registry other)
    (trimLines : Bool) (name : String) :
    compile ⟨delimiters, registry, trimLines⟩ name source =
      compile ⟨delimiters, other, trimLines⟩ name source := by
  cases htokens : tokenize name delimiters source with
  | error error => simp only [compile, htokens, bind, Except.bind]
  | ok tokens =>
    obtain rfl : tokens = (Lexing.ofSource delimiters source).tokens := tokenize_eq_ok htokens
    have hitems := itemsOf_congr h trimLines
    have hfound : ∀ item ∈ itemsOf other trimLines (Lexing.ofSource delimiters source).tokens,
        item.token.FoundAlike registry other := fun item hitem => h _ (mem_of_mem_itemsOf hitem)
    have htree := Tree.ofItems_congr hfound name
    simp only [compile, htokens, bind, Except.bind]
    rw [hitems, htree]

def menuSource : String :=
  "\x7b\x7b#if open\x7d\x7d\n\x7b\x7bdish\x7d\x7d\n\x7b\x7belse\x7d\x7d\n" ++
    "\x7b\x7b&closed\x7d\x7d\n\x7b\x7b/if\x7d\x7d"

def bellRegistry : Registry := Registry.builtin.register "bell" { execute := fun _ => pure () }

theorem compile_with_agreeing_registries_bell :
    (∀ token ∈ (Lexing.ofSource {} menuSource).tokens, token.FoundAlike bellRegistry .builtin) ∧
      bellRegistry.contains "bell" = true ∧ Registry.builtin.contains "bell" = false ∧
      compile ⟨{}, bellRegistry, true⟩ "menu" menuSource =
        compile ⟨{}, .builtin, true⟩ "menu" menuSource := by
  have hwords : ∀ token ∈ (Lexing.ofSource {} menuSource).tokens,
      token.lookedUp? ≠ some "bell" := by decide +kernel
  have hfound : ∀ token ∈ (Lexing.ofSource {} menuSource).tokens,
      token.FoundAlike bellRegistry .builtin :=
    fun token htoken => Token.foundAlike_register (hwords token htoken) _ _
  exact ⟨hfound, by decide, by decide, compile_with_agreeing_registries hfound true "menu"⟩

end Stencil
