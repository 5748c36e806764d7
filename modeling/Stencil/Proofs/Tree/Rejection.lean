import Stencil.Proofs.Tree.Document

/-! Why items are no document: the first item that cannot stand where it does, or a block that is
open at the end. -/

namespace Stencil

/-- A tag that is read as a call if its first word names a helper, as a block or not. -/
inductive MayCall (inHelper : Bool) : TagKind → String → Bool → Prop where
  | block (content : String) : MayCall inHelper .opening content true
  | inline {kind : TagKind} {content : String} (hkind : kind = .escaped ∨ kind = .unescaped)
      (helse : isElse kind content inHelper = false) : MayCall inHelper kind content false

namespace Tree

/-- An item that cannot stand behind what has been read, and its error. -/
inductive Rejects (registry : Registry) (template : String) : Tree → Item → Error → Prop where
  | unopened (root : List Segment) (name : String) (line : Nat) (indent : String) :
    Rejects registry template ⟨root, []⟩ ⟨.tag .closing name line, indent⟩
      (.unmatchedTag template line none name)
  | misnamed (root : List Segment) {block : OpenBlock} (outer : List OpenBlock) {name : String}
      (hname : block.name ≠ name) (line : Nat) (indent : String) :
    Rejects registry template ⟨root, block :: outer⟩ ⟨.tag .closing name line, indent⟩
      (.unmatchedTag template line (some block.name) name)
  | secondElse (root : List Segment) {block : OpenBlock} (outer : List OpenBlock)
      (hhelper : block.isHelper = true) (hdivided : block.elseBody ≠ none) (line : Nat)
      (indent : String) :
    Rejects registry template ⟨root, block :: outer⟩ ⟨.tag .escaped "else" line, indent⟩
      (.malformedTag template line .duplicateElse)
  | unreadable {tree : Tree} {kind : TagKind} {content : String} {block : Bool} {line : Nat}
      {registered : Registered} {fault : TagFault}
      (hcall : MayCall tree.inHelper kind content block)
      (hcalled : registry.called? content = some registered)
      (hread : HelperTag.read content block line = .error fault) (indent : String) :
    Rejects registry template tree ⟨.tag kind content line, indent⟩
      (.malformedTag template line fault)
  | invalid {tree : Tree} {kind : TagKind} {content : String} {block : Bool} {line : Nat}
      {registered : Registered} {error : Error} (hcall : MayCall tree.inHelper kind content block)
      (hcalled : registry.called? content = some registered)
      (hwellFormed : HelperTag.WellFormed content)
      (hinvalid : registered.helper.validate (.ofContent content block line) = .error error)
      (indent : String) :
    Rejects registry template tree ⟨.tag kind content line, indent⟩ error

variable {registry : Registry} {template : String}

theorem rejects_of_helperCall {tree : Tree} {kind : TagKind} {content : String} {block : Bool}
    {line : Nat} {error : Error} (hcall : MayCall tree.inHelper kind content block)
    (h : helperCall registry template content block line = .error error) (indent : String) :
    Rejects registry template tree ⟨.tag kind content line, indent⟩ error := by
  obtain ⟨registered, hcalled, ⟨fault, hread, rfl⟩ | ⟨hwellFormed, hinvalid⟩⟩ :=
    helperCall_eq_error h
  · exact .unreadable hcall hcalled hread indent
  · exact .invalid hcall hcalled hwellFormed hinvalid indent

theorem rejects_of_close {tree : Tree} {name : String} {line : Nat} {error : Error}
    (h : tree.close template name line = .error error) (indent : String) :
    Rejects registry template tree ⟨.tag .closing name line, indent⟩ error := by
  obtain ⟨root, opened⟩ := tree
  unfold close at h
  cases opened with
  | nil =>
    obtain rfl := Except.error.inj h
    exact .unopened root name line indent
  | cons block outer =>
    by_cases hname : block.name = name
    · simp [hname] at h
    · simp only [hname, if_false] at h
      obtain rfl := Except.error.inj h
      exact .misnamed root outer hname line indent

theorem rejects_of_divide {tree : Tree} {line : Nat} {error : Error}
    (hhelper : tree.inHelper = true) (h : tree.divide template line = .error error)
    (indent : String) :
    Rejects registry template tree ⟨.tag .escaped "else" line, indent⟩ error := by
  obtain ⟨root, opened⟩ := tree
  unfold divide at h
  cases opened with
  | nil => contradiction
  | cons block outer =>
    cases hdivided : block.elseBody with
    | none => simp [hdivided] at h
    | some body =>
      simp only [hdivided] at h
      obtain rfl := Except.error.inj h
      exact .secondElse root outer hhelper (by simp [hdivided]) line indent

theorem rejects_of_output {kind : TagKind} (hkind : kind = .escaped ∨ kind = .unescaped)
    {tree : Tree} {indent content : String} {line : Nat} {error : Error}
    (h : addTag registry template tree indent kind content line = .error error) :
    Rejects registry template tree ⟨.tag kind content line, indent⟩ error := by
  rw [addTag_output hkind] at h
  by_cases helse : isElse kind content tree.inHelper = true
  · obtain ⟨hhelper, rfl, rfl⟩ := isElse_eq_true helse
    rw [if_pos helse] at h
    exact rejects_of_divide hhelper h indent
  · rw [if_neg helse] at h
    simp only [Bool.not_eq_true] at helse
    cases hread : helperCall registry template content false line with
    | ok call => simp [hread, Except.map] at h
    | error fault =>
      rw [hread] at h
      obtain rfl := Except.error.inj h
      exact rejects_of_helperCall (.inline hkind helse) hread indent

/-- An item that is not accepted is rejected for one of these reasons. -/
theorem rejects_of_addItem {tree : Tree} {item : Item} {error : Error}
    (h : addItem registry template tree item = .error error) :
    Rejects registry template tree item error := by
  obtain ⟨token, indent⟩ := item
  cases token with
  | literal text line => contradiction
  | delimiterChange opening closing line => contradiction
  | tag kind content line =>
    cases kind with
    | comment => contradiction
    | inclusion => contradiction
    | inverted => contradiction
    | closing => exact rejects_of_close h indent
    | opening =>
      simp only [addItem] at h
      rw [addTag_opening] at h
      cases hread : helperCall registry template content true line with
      | ok call => simp [hread, Except.map] at h
      | error fault =>
        rw [hread] at h
        obtain rfl := Except.error.inj h
        exact rejects_of_helperCall (.block content) hread indent
    | escaped => exact rejects_of_output (.inl rfl) h
    | unescaped => exact rejects_of_output (.inr rfl) h

/-- Where reading items stops, the items before were accepted. -/
theorem foldlM_addItem_eq_error (hnames : registry.Unquoted) {items : List Item} {tree : Tree}
    {error : Error} (h : items.foldlM (addItem registry template) tree = .error error) :
    ∃ before item later last, items = before ++ item :: later ∧
      Steps registry tree before last ∧ Rejects registry template last item error := by
  induction items generalizing tree with
  | nil => contradiction
  | cons item later ih =>
    rw [List.foldlM_cons] at h
    cases hitem : addItem registry template tree item with
    | error fault =>
      rw [hitem] at h
      obtain rfl := Except.error.inj h
      exact ⟨[], item, later, tree, rfl, .refl tree, rejects_of_addItem hitem⟩
    | ok middle =>
      rw [hitem] at h
      obtain ⟨before, bad, behind, last, rfl, hsteps, hrejects⟩ := ih h
      have hstep := (addItem_eq_ok_iff_step hnames).mp hitem
      exact ⟨item :: before, bad, behind, last, rfl, .cons hstep hsteps, hrejects⟩

end Tree

/-- Items without a tree have an item that cannot stand behind those before it, and its error is the
first; or a block is open at their end, and the error names the innermost one. -/
theorem ofItems_eq_error (hnames : registry.Unquoted) {items : List Item} {error : Error}
    (h : Tree.ofItems registry template items = .error error) :
    (∃ before item later tree, items = before ++ item :: later ∧ Reading registry before tree ∧
        Tree.Rejects registry template tree item error) ∨
      ∃ root block outer, Reading registry items ⟨root, block :: outer⟩ ∧
        error = .unclosedTag template block.name block.line := by
  cases hread : items.foldlM (Tree.addItem registry template) {} with
  | error fault =>
    rw [Tree.ofItems, hread] at h
    obtain rfl := Except.error.inj h
    obtain ⟨before, item, later, tree, hitems, hsteps, hrejects⟩ :=
      Tree.foldlM_addItem_eq_error hnames hread
    have hreading := (Reading.root .nil).steps hnames hsteps
    exact .inl ⟨before, item, later, tree, hitems, hreading, hrejects⟩
  | ok tree =>
    have hreading := (Reading.root .nil).steps hnames ((Tree.foldlM_addItem_iff hnames).mp hread)
    rw [Tree.ofItems, hread] at h
    obtain ⟨root, _ | ⟨block, outer⟩⟩ := tree
    · contradiction
    · exact .inr ⟨root, block, outer, hreading, (Except.error.inj h).symm⟩

end Stencil
