import Stencil.Proofs.Compile
import Stencil.Proofs.Standalone.Enclosed

/-! What is read between the tags of a block. It is the same tree, or the same error, whether the
block is a section or calls a helper. -/

namespace Stencil

/-- Open blocks where another tag has opened the outermost one. -/
def reopened (opener : Opener) (name : String) : List OpenBlock → List OpenBlock
  | [] => []
  | [block] => [{ block with opener, name }]
  | block :: next :: outer => block :: reopened opener name (next :: outer)

namespace Tree

variable {registry : Registry} {template : String}

def reopen (opener : Opener) (name : String) (tree : Tree) : Tree :=
  { tree with opened := reopened opener name tree.opened }

/-- A tree in the making inside of a block, where as many blocks are open as `kinds` has. -/
def Inside (root : List Segment) (block : OpenBlock) (kinds : OpenKinds) (tree : Tree) : Prop :=
  ∃ own body, tree = ⟨root, own ++ [{ block with body }]⟩ ∧ own.length = kinds.length

section Inside

variable {root : List Segment} {block : OpenBlock} {kinds : OpenKinds} {tree next : Tree}
  {item : Item}

theorem Inside.update (h : Inside root block kinds tree) (hwhole : block.elseBody = none)
    (f : List Segment → List Segment) : Inside root block kinds (tree.update f) := by
  obtain ⟨own, body, rfl, hlength⟩ := h
  rcases own with _ | ⟨inner, own⟩
  · exact ⟨[], f body, by simp [Tree.update, OpenBlock.update, hwhole], hlength⟩
  · exact ⟨inner.update f :: own, body, rfl, hlength⟩

theorem Inside.openBlock (h : Inside root block kinds tree) (opener : Opener) (name : String)
    (line : Nat) (isHelper : Bool) :
    Inside root block (isHelper :: kinds) (tree.openBlock opener name line) := by
  obtain ⟨own, body, rfl, hlength⟩ := h
  exact ⟨{ opener, name, line } :: own, body, rfl, congrArg Nat.succ hlength⟩

/-- An item that ends no part of a block around it is read inside of the block. -/
theorem Inside.step (h : Inside root block kinds tree) (hwhole : block.elseBody = none)
    (hinside : kinds = [] → item.token.endsPart = false)
    (hchange : Change (.accepted registry template) tree item next) :
    Inside root block (kinds.after registry item.token) next := by
  cases hchange with
  | text tree text line indent => exact h.update hwhole _
  | delimiterChange tree opening closing line indent => exact h
  | adds adds =>
    rw [adds.after_eq]
    exact h.update hwhole _
  | opens tree opens =>
    cases opens with
    | plain hplain indent => exact h.openBlock _ _ _ _
    | inverted content line indent => exact h.openBlock _ _ _ _
    | helper hcall indent => exact h.openBlock _ _ _ _
  | divides root' inner outer hhelper hnone line indent =>
    obtain ⟨own, body, htree, hlength⟩ := h
    obtain ⟨kind, later, rfl⟩ := List.exists_cons_of_ne_nil fun hnil =>
      Bool.noConfusion (hinside hnil)
    rcases own with _ | ⟨first, own⟩
    · contradiction
    · obtain ⟨rfl, hopened⟩ := Tree.mk.inj htree
      obtain ⟨rfl, rfl⟩ := List.cons.inj hopened
      exact ⟨{ inner with elseBody := some [] } :: own, body, rfl, hlength⟩
  | closes root' inner outer line indent =>
    obtain ⟨own, body, htree, hlength⟩ := h
    obtain ⟨kind, later, rfl⟩ := List.exists_cons_of_ne_nil fun hnil =>
      Bool.noConfusion (hinside hnil)
    rcases own with _ | ⟨first, own⟩
    · contradiction
    · obtain ⟨rfl, hopened⟩ := Tree.mk.inj htree
      obtain ⟨rfl, rfl⟩ := List.cons.inj hopened
      have houter : Inside root' block later ⟨root', own ++ [{ block with body }]⟩ :=
        ⟨own, body, rfl, Nat.succ.inj hlength⟩
      exact houter.update hwhole _

/-- Items that end no part of a block around them are read inside of the block. -/
theorem Inside.foldlM {items : List Item} (h : Inside root block kinds tree)
    (hwhole : block.elseBody = none) (hinside : StaysInside registry kinds (Item.tokens items))
    (hread : items.foldlM (addItem registry template) tree = .ok next) :
    Inside root block ((Item.tokens items).foldl (OpenKinds.after registry) kinds) next := by
  induction items generalizing kinds tree with
  | nil =>
    obtain rfl := Except.ok.inj hread
    exact h
  | cons item later ih =>
    obtain ⟨hitem, hlater⟩ := hinside
    obtain ⟨middle, hadd, hrest⟩ := foldlM_cons_eq_ok hread
    exact ih (h.step hwhole hitem (change_of_addItem hadd)) hlater hrest

end Inside

/-! ### Another opening tag -/

variable {opener : Opener} {name : String}

theorem reopened_cons (block : OpenBlock) {outer : List OpenBlock} (h : outer ≠ []) :
    reopened opener name (block :: outer) = block :: reopened opener name outer := by
  obtain ⟨next, outer, rfl⟩ := List.exists_cons_of_ne_nil h
  rfl

theorem reopen_update (tree : Tree) (f : List Segment → List Segment) :
    (tree.update f).reopen opener name = (tree.reopen opener name).update f := by
  obtain ⟨root, _ | ⟨⟨opener, name, line, body, _ | elseBody⟩, _ | ⟨next, outer⟩⟩⟩ := tree <;> rfl

theorem reopen_openBlock {tree : Tree} (h : tree.opened ≠ []) (opening : Opener)
    (content : String) (line : Nat) :
    (tree.openBlock opening content line).reopen opener name =
      (tree.reopen opener name).openBlock opening content line := by
  rw [reopen, openBlock, reopened_cons _ h]
  rfl

theorem reopen_inner (root : List Segment) (block next : OpenBlock) (outer : List OpenBlock) :
    (⟨root, block :: next :: outer⟩ : Tree).reopen opener name =
      ⟨root, block :: reopened opener name (next :: outer)⟩ := rfl

theorem map_reopen_divide (root : List Segment) (block next : OpenBlock) (outer : List OpenBlock)
    (line : Nat) :
    ((⟨root, block :: next :: outer⟩ : Tree).divide template line).map (reopen opener name) =
      ((⟨root, block :: next :: outer⟩ : Tree).reopen opener name).divide template line := by
  obtain ⟨opener, name, openLine, body, _ | elseBody⟩ := block <;> rfl

theorem map_reopen_close (root : List Segment) (block next : OpenBlock) (outer : List OpenBlock)
    (content : String) (line : Nat) :
    ((⟨root, block :: next :: outer⟩ : Tree).close template content line).map
        (reopen opener name) =
      ((⟨root, block :: next :: outer⟩ : Tree).reopen opener name).close template content line := by
  rw [reopen_inner, close, close]
  by_cases hname : block.name = content
  · simp only [hname, if_true]
    exact congrArg Except.ok (reopen_update ⟨root, next :: outer⟩ _)
  · simp only [hname, if_false]
    rfl

/-- Whether an `else` divides a block depends on the outermost block only if it stands there. -/
theorem isElse_reopen {tree : Tree} {kind : TagKind} {content : String} {line : Nat}
    (hinside : tree.opened.length = 1 → (Token.tag kind content line).endsPart = false) :
    isElse kind content (tree.reopen opener name).inHelper =
      isElse kind content tree.inHelper := by
  obtain ⟨root, _ | ⟨block, _ | ⟨next, outer⟩⟩⟩ := tree
  · rfl
  · rw [isElse_of_not_endsPart (hinside rfl), isElse_of_not_endsPart (hinside rfl)]
  · rfl

theorem map_reopen_addTag_output {kind : TagKind} (hkind : kind = .escaped ∨ kind = .unescaped)
    {tree : Tree} {content : String} {line : Nat} (hopen : tree.opened ≠ [])
    (hinside : tree.opened.length = 1 → (Token.tag kind content line).endsPart = false)
    (indent : String) :
    (addTag registry template tree indent kind content line).map (reopen opener name) =
      addTag registry template (tree.reopen opener name) indent kind content line := by
  rw [addTag_output hkind, addTag_output hkind, isElse_reopen hinside]
  cases helse : isElse kind content tree.inHelper with
  | true =>
    obtain ⟨root, _ | ⟨block, _ | ⟨next, outer⟩⟩⟩ := tree
    · contradiction
    · rw [isElse_of_not_endsPart (hinside rfl)] at helse
      contradiction
    · exact map_reopen_divide root block next outer line
  | false =>
    rcases helperCall registry template content false line with _ | _ | ⟨registered, tag⟩
    · rfl
    · exact congrArg Except.ok (reopen_update tree _)
    · exact congrArg Except.ok (reopen_update tree _)

/-- An item that ends no part of the outermost block is read alike whatever has opened that. -/
theorem map_reopen_addItem {tree : Tree} {item : Item} (hopen : tree.opened ≠ [])
    (hinside : tree.opened.length = 1 → item.token.endsPart = false) :
    (addItem registry template tree item).map (reopen opener name) =
      addItem registry template (tree.reopen opener name) item := by
  obtain ⟨token, indent⟩ := item
  cases token with
  | literal text line => exact congrArg Except.ok (reopen_update tree _)
  | delimiterChange opening closing line => rfl
  | tag kind content line =>
    cases kind with
    | escaped => exact map_reopen_addTag_output (.inl rfl) hopen hinside indent
    | unescaped => exact map_reopen_addTag_output (.inr rfl) hopen hinside indent
    | comment => exact congrArg Except.ok (reopen_update tree _)
    | inclusion => exact congrArg Except.ok (reopen_update tree _)
    | inverted => exact congrArg Except.ok (reopen_openBlock hopen _ _ _)
    | opening =>
      simp only [addItem]
      rw [addTag_opening, addTag_opening]
      rcases helperCall registry template content true line with _ | _ | ⟨registered, tag⟩
      · rfl
      · exact congrArg Except.ok (reopen_openBlock hopen _ _ _)
      · exact congrArg Except.ok (reopen_openBlock hopen _ _ _)
    | closing =>
      obtain ⟨root, _ | ⟨block, _ | ⟨next, outer⟩⟩⟩ := tree
      · contradiction
      · exact Bool.noConfusion (hinside rfl)
      · exact map_reopen_close root block next outer content line

theorem map_reopen_foldlM {root : List Segment} {block : OpenBlock} {kinds : OpenKinds}
    {tree : Tree} {items : List Item} (h : Inside root block kinds tree)
    (hwhole : block.elseBody = none) (hinside : StaysInside registry kinds (Item.tokens items)) :
    (items.foldlM (addItem registry template) tree).map (reopen opener name) =
      items.foldlM (addItem registry template) (tree.reopen opener name) := by
  induction items generalizing kinds tree with
  | nil => rfl
  | cons item later ih =>
    obtain ⟨hitem, hlater⟩ := hinside
    have hopen : tree.opened ≠ [] := by
      obtain ⟨own, body, rfl, -⟩ := h
      simp
    have hends : tree.opened.length = 1 → item.token.endsPart = false := by
      obtain ⟨own, body, rfl, hlength⟩ := h
      intro hone
      refine hitem (List.eq_nil_of_length_eq_zero ?_)
      simp only [List.length_append, List.length_singleton] at hone
      omega
    rw [List.foldlM_cons, List.foldlM_cons, ← map_reopen_addItem hopen hends]
    cases hadd : addItem registry template tree item with
    | error error => rfl
    | ok next => exact ih (h.step hwhole hitem (change_of_addItem hadd)) hlater

/-! ### Blocks -/

def bodyOf (registry : Registry) (template : String) (opener : Opener) (name : String) (line : Nat)
    (items : List Item) : Except Error (List Segment) :=
  (items.foldlM (addItem registry template) (openBlock {} opener name line)).map fun tree =>
    (tree.opened.head?).elim [] OpenBlock.body

variable {items : List Item} {line : Nat}

theorem inside_openBlock (opener : Opener) (name : String) (line : Nat) :
    Inside [] { opener, name, line } [] (openBlock {} opener name line) :=
  ⟨[], [], rfl, rfl⟩

/-- A body does not depend on what it is the body of. -/
theorem bodyOf_eq (hinside : StaysInside registry [] (Item.tokens items))
    (hclosed : (Item.tokens items).foldl (OpenKinds.after registry) [] = [])
    (opener other : Opener) (name otherName : String) :
    bodyOf registry template other otherName line items =
      bodyOf registry template opener name line items := by
  have hreopened : (openBlock {} opener name line).reopen other otherName =
      openBlock {} other otherName line := rfl
  have hstart := inside_openBlock opener name line
  rw [bodyOf, bodyOf, ← hreopened, ← map_reopen_foldlM hstart rfl hinside]
  cases hread : items.foldlM (addItem registry template) (openBlock {} opener name line) with
  | error error => rfl
  | ok tree =>
    obtain ⟨own, body, rfl, hlength⟩ := hstart.foldlM rfl hinside hread
    rw [hclosed] at hlength
    obtain rfl := List.eq_nil_of_length_eq_zero hlength
    rfl

/-- A block with nothing around it is a tree of its own. -/
theorem ofItems_block (hinside : StaysInside registry [] (Item.tokens items))
    (hclosed : (Item.tokens items).foldl (OpenKinds.after registry) [] = []) {opening : Item}
    (hopening : addItem registry template {} opening = .ok (openBlock {} opener name line))
    (closeLine : Nat) (indent : String) :
    ofItems registry template (opening :: items ++ [⟨.tag .closing name closeLine, indent⟩]) =
      (bodyOf registry template opener name line items).map fun body =>
        [OpenBlock.toSegment { opener, name, line, body }] := by
  have hstart := inside_openBlock opener name line
  rw [ofItems, List.cons_append, List.foldlM_cons, hopening, bodyOf]
  simp only [List.foldlM_append, bind, Except.bind]
  cases hread : items.foldlM (addItem registry template) (openBlock {} opener name line) with
  | error error => rfl
  | ok tree =>
    obtain ⟨own, body, rfl, hlength⟩ := hstart.foldlM rfl hinside hread
    rw [hclosed] at hlength
    obtain rfl := List.eq_nil_of_length_eq_zero hlength
    have hclose : (⟨[], [{ opener, name, line, body }]⟩ : Tree).close template name closeLine =
        .ok ⟨[OpenBlock.toSegment { opener, name, line, body }], []⟩ := by
      simp [close, Tree.add, Tree.update]
    simp only [List.foldlM_cons, List.nil_append, addItem, addTag, hclose, bind, Except.bind]
    rfl

/-- A tag that reads as a call of a registered helper opens a block of it. -/
theorem addItem_call {registered : Registered} {content : String} {tag : HelperTag}
    (hget : registry.get? (String.ofList (Text.firstWord content.toList)) = some registered)
    (hread : HelperTag.read content true line = .ok (some tag))
    (hvalid : registered.helper.validate tag = .ok ()) (template : String) :
    addItem registry template {} ⟨.tag .opening content line, ""⟩ =
      .ok (openBlock {} (.helper registered tag) tag.name line) := by
  simp only [addItem]
  rw [addTag_opening, helperCall, hget]
  simp only [hread, hvalid]
  rfl

/-- Only a tag that opens a block leaves one open where none was. -/
theorem opensBlock_of_addItem {opening : Item} {opener : Opener}
    (h : addItem registry template {} opening = .ok (openBlock {} opener name line)) :
    opening.token.OpensBlock := by
  generalize htree : openBlock {} opener name line = tree at h
  cases change_of_addItem h with
  | text tree text line indent => cases htree
  | delimiterChange tree opening closing line indent => cases htree
  | adds adds => cases htree
  | opens tree opens =>
    cases opens with
    | plain hplain indent => exact .opening _ _
    | inverted content line indent => exact .inverted _ _
    | helper hcall indent => exact .opening _ _

end Tree

/-- A source that is one block compiles to that block, with a body, or an error, that depends on the
tokens between its tags alone. -/
theorem compile_block (options : CompileOptions) {inner : List Token}
    (h : Enclosed options.registry inner) (template : String) (line closeLine : Nat) :
    ∃ body : Except Error (List Segment), ∀ source opening opener name,
      tokenize template options.delimiters source =
        .ok (opening :: (inner ++ [.tag .closing name closeLine])) →
      Tree.addItem options.registry template {} ⟨opening, ""⟩ =
        .ok (Tree.openBlock {} opener name line) →
      compile options template source =
        body.map fun body => ⟨template, [OpenBlock.toSegment { opener, name, line, body }]⟩ := by
  obtain ⟨items, htokens, hitems⟩ := h.exists_items options.trimLines
  have hinside : StaysInside options.registry [] (Item.tokens items) := by
    rw [← staysInside_nonLiterals, htokens, staysInside_nonLiterals]
    exact h.inside
  have hclosed : (Item.tokens items).foldl (OpenKinds.after options.registry) [] = [] := by
    rw [← OpenKinds.foldl_after_nonLiterals, htokens, OpenKinds.foldl_after_nonLiterals]
    exact h.closed
  refine ⟨Tree.bodyOf options.registry template (.plain false) "" line items, ?_⟩
  intro source opening opener name hsource hopening
  have hopens : opening.OpensBlock := Tree.opensBlock_of_addItem hopening
  have htree := Tree.ofItems_block hinside hclosed hopening closeLine ""
  rw [Tree.bodyOf_eq hinside hclosed (.plain false) opener "" name] at htree
  simp only [compile, hsource, bind, Except.bind, hitems opening hopens, htree]
  cases Tree.bodyOf options.registry template (.plain false) "" line items <;> rfl

end Stencil
