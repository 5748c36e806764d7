import Stencil.Proofs.Compile

/-! The name of a template is for its errors only: a source that compiles under one name compiles
under any other. -/

namespace Stencil

namespace Tree

variable {registry : Registry} {template : String} (other : String)

theorem helperCall_renamed {content : String} {block : Bool} {line : Nat}
    {call : Option (Registered × HelperTag)}
    (h : helperCall registry template content block line = .ok call) :
    helperCall registry other content block line = .ok call := by
  unfold helperCall at h ⊢
  split at h
  · exact h
  · split at h
    · contradiction
    · exact h
    · exact h

theorem addItem_renamed {tree next : Tree} {item : Item}
    (h : addItem registry template tree item = .ok next) :
    addItem registry other tree item = .ok next :=
  addItem_of_change ((change_of_addItem h).mono fun _ _ _ _ hread => helperCall_renamed other hread)

theorem foldlM_renamed {items : List Item} {tree last : Tree}
    (h : items.foldlM (addItem registry template) tree = .ok last) :
    items.foldlM (addItem registry other) tree = .ok last := by
  induction items generalizing tree with
  | nil => exact h
  | cons item later ih =>
    obtain ⟨next, hitem, hlater⟩ := foldlM_cons_eq_ok h
    rw [List.foldlM_cons, addItem_renamed other hitem]
    exact ih hlater

end Tree

theorem compile_renamed {options : CompileOptions} {name source : String} {template : Template}
    (h : compile options name source = .ok template) (other : String) :
    compile options other source = .ok { template with name := other } := by
  obtain ⟨-, tokens, htokens, htree⟩ := compile_eq_ok h
  have hrenamed : tokenize other options.delimiters source = .ok tokens :=
    tokenize_eq_ok_iff.mpr (tokenize_eq_ok_iff.mp htokens)
  have hitems := Tree.foldlM_renamed other (Tree.ofItems_eq_ok htree)
  simp only [compile, hrenamed, bind, Except.bind, Tree.ofItems, hitems]
  rfl

end Stencil
