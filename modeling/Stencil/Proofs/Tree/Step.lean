import Stencil.Proofs.Tree.Change

/-! What an item does to a tree in the making, where no quote stands in the name of a helper: then
tags are read as what is written in them. -/

namespace Stencil

/-- A content whose first word names no helper is no call, any other one of the helper it names. -/
def CallReading.written (registry : Registry) : CallReading :=
  fun content block line call =>
    match call with
    | none => registry.called? content = none
    | some (registered, tag) =>
      IsCall registry content block line registered ∧ tag = .ofContent content block line

theorem CallReading.accepted_eq_written {registry : Registry} (hnames : registry.Unquoted)
    (template : String) : accepted registry template = written registry := by
  funext content block line call
  rcases call with _ | ⟨registered, tag⟩
  · exact propext (Tree.helperCall_eq_none_iff hnames)
  · exact propext (Tree.helperCall_eq_some_iff hnames)

abbrev Leaf (registry : Registry) : Bool → Item → Segment → Prop := Tree.Adds (.written registry)

abbrev OpensPlain (registry : Registry) (item : Item) (name : String) (inverted : Bool)
    (line : Nat) : Prop :=
  Tree.Opens (.written registry) item (.plain inverted) name line

namespace Tree

abbrev Step (registry : Registry) : Tree → Item → Tree → Prop := Change (.written registry)

inductive Steps (registry : Registry) : Tree → List Item → Tree → Prop where
  | refl (tree : Tree) : Steps registry tree [] tree
  | cons {tree middle last : Tree} {item : Item} {later : List Item}
      (step : Step registry tree item middle) (steps : Steps registry middle later last) :
    Steps registry tree (item :: later) last

variable {registry : Registry} {template : String}

theorem Steps.append {tree middle last : Tree} {items later : List Item}
    (h : Steps registry tree items middle) (hlater : Steps registry middle later last) :
    Steps registry tree (items ++ later) last := by
  induction h with
  | refl tree => exact hlater
  | cons step steps ih => exact .cons step (ih hlater)

theorem Steps.snoc {tree middle last : Tree} {items : List Item} {item : Item}
    (h : Steps registry tree items middle) (hstep : Step registry middle item last) :
    Steps registry tree (items ++ [item]) last := h.append (.cons hstep (.refl last))

theorem addItem_eq_ok_iff_step (hnames : registry.Unquoted) {tree next : Tree} {item : Item} :
    addItem registry template tree item = .ok next ↔ Step registry tree item next := by
  rw [addItem_eq_ok_iff, CallReading.accepted_eq_written hnames]

theorem Step.opensHelper (hnames : registry.Unquoted) (tree : Tree) {content : String} {line : Nat}
    {registered : Registered} (call : IsCall registry content true line registered)
    (indent : String) :
    Step registry tree ⟨.tag .opening content line, indent⟩
      (tree.openBlock (.helper registered (.ofContent content true line)) registered.name
        line) := by
  rw [← name_ofContent hnames call]
  exact .opens tree (.helper ⟨call, rfl⟩ indent)

/-- Items are accepted exactly if each of them is a step. -/
theorem foldlM_addItem_iff (hnames : registry.Unquoted) {items : List Item} {tree last : Tree} :
    items.foldlM (addItem registry template) tree = .ok last ↔
      Steps registry tree items last := by
  induction items generalizing tree with
  | nil =>
    constructor
    · intro h
      obtain rfl := Except.ok.inj h
      exact .refl tree
    · rintro ⟨⟩
      rfl
  | cons item later ih =>
    rw [List.foldlM_cons]
    constructor
    · intro h
      cases hitem : addItem registry template tree item with
      | error error =>
        rw [hitem] at h
        contradiction
      | ok middle =>
        rw [hitem] at h
        exact .cons ((addItem_eq_ok_iff_step hnames).mp hitem) (ih.mp h)
    · rintro (_ | ⟨step, steps⟩)
      rw [(addItem_eq_ok_iff_step hnames).mpr step]
      exact ih.mpr steps

end Tree

end Stencil
