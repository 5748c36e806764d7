import Stencil.Compile
import Stencil.Proofs.Tree.OpenBlocks

/-! What a compiled template is made of. -/

namespace Stencil

namespace Tree

variable {registry : Registry} {template : String}

theorem foldlM_append_eq_ok {items later : List Item} {tree last : Tree}
    (h : (items ++ later).foldlM (addItem registry template) tree = .ok last) :
    ∃ middle, items.foldlM (addItem registry template) tree = .ok middle ∧
      later.foldlM (addItem registry template) middle = .ok last := by
  rw [List.foldlM_append] at h
  cases hitems : items.foldlM (addItem registry template) tree with
  | error error =>
    rw [hitems] at h
    contradiction
  | ok middle =>
    rw [hitems] at h
    exact ⟨middle, rfl, h⟩

theorem ofItems_eq_ok {items : List Item} {segments : List Segment}
    (h : ofItems registry template items = .ok segments) :
    items.foldlM (addItem registry template) {} = .ok ⟨segments, []⟩ := by
  unfold ofItems at h
  cases hread : items.foldlM (addItem registry template) {} with
  | error error =>
    rw [hread] at h
    contradiction
  | ok tree =>
    obtain ⟨root, _ | ⟨block, outer⟩⟩ := tree
    · rw [hread] at h
      obtain rfl := Except.ok.inj h
      rfl
    · rw [hread] at h
      contradiction

end Tree

/-- A compiled template is the tree of the items that its tokens are trimmed to. -/
theorem compile_eq_ok {options : CompileOptions} {name source : String} {template : Template}
    (h : compile options name source = .ok template) :
    template.name = name ∧ ∃ tokens, tokenize name options.delimiters source = .ok tokens ∧
      Tree.ofItems options.registry name (itemsOf options.registry options.trimLines tokens) =
        .ok template.segments := by
  unfold compile at h
  cases htokens : tokenize name options.delimiters source with
  | error error =>
    rw [htokens] at h
    contradiction
  | ok tokens =>
    cases hsegments : Tree.ofItems options.registry name
        (itemsOf options.registry options.trimLines tokens) with
    | error error =>
      simp only [htokens, bind, Except.bind, hsegments] at h
      contradiction
    | ok segments =>
      simp only [htokens, bind, Except.bind, hsegments, pure, Except.pure, Except.ok.injEq] at h
      subst h
      exact ⟨rfl, tokens, rfl, hsegments⟩

end Stencil
