import Stencil.Proofs.Compile
import Stencil.Proofs.Standalone.Lines

/-! Trees without their texts and indents, which is all that trimming can change. -/

namespace Stencil

namespace Segment

mutual

/-- A segment without the texts and the indents of inclusions in it. -/
def bare : Segment → List Segment
  | .text _ => []
  | .output name escaped line => [.output name escaped line]
  | .block name inverted body line => [.block name inverted (bareAll body) line]
  | .inclusion name _ line => [.inclusion name "" line]
  | .invocation helper tag body none => [.invocation helper tag (bareAll body) none]
  | .invocation helper tag body (some elseBody) =>
    [.invocation helper tag (bareAll body) (some (bareAll elseBody))]
  | .comment => [.comment]

def bareAll : List Segment → List Segment
  | [] => []
  | segment :: later => bare segment ++ bareAll later

end

theorem bareAll_append (segments later : List Segment) :
    bareAll (segments ++ later) = bareAll segments ++ bareAll later := by
  induction segments with
  | nil => rfl
  | cons segment segments ih => simp [bareAll, ih]

theorem bareAll_appendText (text : String) (segments : List Segment) :
    bareAll (Tree.appendText text segments) = bareAll segments := by
  rcases Tree.appendText_cases text segments with ⟨front, last, rfl, hjoined⟩ | hnew
  · rw [hjoined, bareAll_append, bareAll_append]
    rfl
  · rw [hnew, bareAll_append]
    simp [bareAll, bare]

end Segment

open Segment (bareAll)

def Template.bare (template : Template) : Template :=
  { template with segments := bareAll template.segments }

def OpenBlock.bare (block : OpenBlock) : OpenBlock :=
  { block with body := bareAll block.body, elseBody := block.elseBody.map bareAll }

def bareItems (tokens : List Token) : List Item := (nonLiterals tokens).map fun token => ⟨token, ""⟩

theorem OpenBlock.bare_toSegment (block : OpenBlock) :
    block.toSegment.bare = [block.bare.toSegment] := by
  obtain ⟨_ | ⟨registered, tag⟩, name, line, body, _ | elseBody⟩ := block <;> rfl

namespace Tree

variable {registry : Registry} {template : String}

def bare (tree : Tree) : Tree := ⟨bareAll tree.root, tree.opened.map OpenBlock.bare⟩

theorem bare_add (tree : Tree) (segment : Segment) :
    (tree.add segment).bare = tree.bare.update fun segments => segments ++ segment.bare := by
  have hsegments : ∀ segments,
      bareAll (segments ++ [segment]) = bareAll segments ++ segment.bare := by
    intro segments
    rw [Segment.bareAll_append]
    simp [bareAll]
  obtain ⟨root, _ | ⟨⟨opener, name, line, body, _ | elseBody⟩, outer⟩⟩ := tree <;>
  · simp [bare, add, update, OpenBlock.update, OpenBlock.bare, hsegments]

theorem bare_add_of_bare {segment kept : Segment} (h : segment.bare = [kept]) (tree : Tree) :
    (tree.add segment).bare = tree.bare.add kept := by
  rw [bare_add, h, add]

theorem bare_addText (tree : Tree) (text : String) : (tree.addText text).bare = tree.bare := by
  obtain ⟨root, _ | ⟨⟨opener, name, line, body, _ | elseBody⟩, outer⟩⟩ := tree <;>
  · simp [bare, addText, update, OpenBlock.update, OpenBlock.bare, Segment.bareAll_appendText]

theorem inHelper_bare (tree : Tree) : tree.bare.inHelper = tree.inHelper := by
  obtain ⟨root, _ | ⟨block, outer⟩⟩ := tree <;> rfl

theorem map_bare_divide (tree : Tree) (line : Nat) :
    (tree.divide template line).map bare = tree.bare.divide template line := by
  obtain ⟨root, _ | ⟨⟨opener, name, openedAt, body, _ | elseBody⟩, outer⟩⟩ := tree <;> rfl

theorem map_bare_close (tree : Tree) (name : String) (line : Nat) :
    (tree.close template name line).map bare = tree.bare.close template name line := by
  obtain ⟨root, _ | ⟨block, outer⟩⟩ := tree
  · rfl
  · have hname : block.bare.name = block.name := rfl
    by_cases h : block.name = name
    · have hadd := bare_add_of_bare block.bare_toSegment ⟨root, outer⟩
      simpa [close, bare, h, hname, Except.map] using hadd
    · simp [close, bare, h, hname, Except.map]

theorem map_bare_addTag_output {kind : TagKind} (hkind : kind = .escaped ∨ kind = .unescaped)
    (tree : Tree) (indent content : String) (line : Nat) :
    (addTag registry template tree indent kind content line).map bare =
      addTag registry template tree.bare "" kind content line := by
  rw [addTag_output hkind, addTag_output hkind, inHelper_bare]
  split
  · exact map_bare_divide tree line
  · rcases helperCall registry template content false line with _ | _ | ⟨registered, tag⟩
    · rfl
    · exact congrArg Except.ok (bare_add_of_bare rfl tree)
    · exact congrArg Except.ok (bare_add_of_bare rfl tree)

/-- A tag adds to the bare tree what it adds to the tree, but for its indent. -/
theorem map_bare_addTag (tree : Tree) (indent : String) (kind : TagKind) (content : String)
    (line : Nat) :
    (addTag registry template tree indent kind content line).map bare =
      addTag registry template tree.bare "" kind content line := by
  cases kind with
  | escaped => exact map_bare_addTag_output (.inl rfl) tree indent content line
  | unescaped => exact map_bare_addTag_output (.inr rfl) tree indent content line
  | comment => exact congrArg Except.ok (bare_add_of_bare rfl tree)
  | inclusion => exact congrArg Except.ok (bare_add_of_bare rfl tree)
  | inverted => rfl
  | closing => exact map_bare_close tree content line
  | opening =>
    rw [addTag_opening, addTag_opening]
    rcases helperCall registry template content true line with _ | _ | ⟨registered, tag⟩ <;> rfl

theorem map_bare_addItem (tree : Tree) (item : Item) :
    (addItem registry template tree item).map bare =
      (bareItems [item.token]).foldlM (addItem registry template) tree.bare := by
  obtain ⟨token, indent⟩ := item
  cases token with
  | literal text line => exact congrArg Except.ok (tree.bare_addText text)
  | delimiterChange opening closing line => rfl
  | tag kind content line =>
    refine (map_bare_addTag tree indent kind content line).trans ?_
    simp [bareItems, nonLiterals, Token.isLiteral, addItem]

/-- Texts and indents change neither the rest of a tree nor its errors. -/
theorem map_bare_foldlM (items : List Item) (tree : Tree) :
    (items.foldlM (addItem registry template) tree).map bare =
      (bareItems (Item.tokens items)).foldlM (addItem registry template) tree.bare := by
  induction items generalizing tree with
  | nil => rfl
  | cons item later ih =>
    have hsplit : bareItems (Item.tokens (item :: later)) =
        bareItems [item.token] ++ bareItems (Item.tokens later) := by
      simp only [bareItems, ← List.map_append, ← nonLiterals_append]
      rfl
    rw [hsplit, List.foldlM_append, List.foldlM_cons, ← map_bare_addItem]
    cases addItem registry template tree item with
    | error error => rfl
    | ok next => exact ih next

theorem map_bare_finish (tree : Tree) :
    (tree.finish template).map bareAll = tree.bare.finish template := by
  obtain ⟨root, _ | ⟨block, outer⟩⟩ := tree <;> rfl

theorem map_bareAll_ofItems (registry : Registry) (template : String) (items : List Item) :
    (ofItems registry template items).map bareAll =
      ofItems registry template (bareItems (Item.tokens items)) := by
  have hread : (items.foldlM (addItem registry template) {}).map bare =
      (bareItems (Item.tokens items)).foldlM (addItem registry template) {} :=
    map_bare_foldlM items {}
  unfold ofItems
  rw [← hread]
  cases items.foldlM (addItem registry template) {} with
  | error error => rfl
  | ok tree => exact map_bare_finish tree

end Tree

/-- A compiled template is, but for texts and indents, the tree of the tags of its source. -/
theorem map_bare_compile (options : CompileOptions) (name source : String) :
    (compile options name source).map Template.bare =
      (tokenize name options.delimiters source >>= fun tokens =>
        (Tree.ofItems options.registry name (bareItems tokens)).map (Template.mk name)) := by
  unfold compile
  cases tokenize name options.delimiters source with
  | error error => rfl
  | ok tokens =>
    have htokens : bareItems (Item.tokens (itemsOf options.registry options.trimLines tokens)) =
        bareItems tokens := by
      rw [bareItems, nonLiterals_itemsOf, bareItems]
    have hbare := Tree.map_bareAll_ofItems options.registry name
      (itemsOf options.registry options.trimLines tokens)
    rw [htokens] at hbare
    simp only [bind, Except.bind, ← hbare]
    cases Tree.ofItems options.registry name
      (itemsOf options.registry options.trimLines tokens) <;> rfl

end Stencil
