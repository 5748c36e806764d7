import Stencil.Proofs.Compile

/-! What stands in a tree, character by character, is what stood in its items. -/

namespace Stencil

/-- What is met in a template from its start to its end: the characters of its texts, inclusions
with their indents, and every other tag as a mark. -/
inductive Content where
  | char (c : Char)
  | inclusion (name indent : String) (line : Nat)
  | mark

namespace Segment

mutual

def contents : Segment → List Content
  | .text s => s.toList.map .char
  | .output .. => [.mark]
  | .block _ _ body _ => .mark :: (contentsAll body ++ [.mark])
  | .inclusion name indent line => [.inclusion name indent line]
  | .invocation _ tag body none =>
    if tag.block then .mark :: (contentsAll body ++ [.mark]) else [.mark]
  | .invocation _ _ body (some elseBody) =>
    .mark :: (contentsAll body ++ .mark :: (contentsAll elseBody ++ [.mark]))
  | .comment => [.mark]

def contentsAll : List Segment → List Content
  | [] => []
  | segment :: later => contents segment ++ contentsAll later

end

theorem contentsAll_append (segments later : List Segment) :
    contentsAll (segments ++ later) = contentsAll segments ++ contentsAll later := by
  induction segments with
  | nil => rfl
  | cons segment segments ih => simp [contentsAll, ih]

theorem contentsAll_snoc (segments : List Segment) (segment : Segment) :
    contentsAll (segments ++ [segment]) = contentsAll segments ++ segment.contents := by
  rw [contentsAll_append]
  simp [contentsAll]

theorem contentsAll_appendText (text : String) (segments : List Segment) :
    contentsAll (Tree.appendText text segments) =
      contentsAll segments ++ text.toList.map .char := by
  rcases Tree.appendText_cases text segments with ⟨front, last, rfl, hjoined⟩ | hnew
  · simp [hjoined, contentsAll_snoc, contents]
  · rw [hnew, contentsAll_snoc, contents]

end Segment

open Segment (contentsAll)

def Item.contents (item : Item) : List Content :=
  match item.token with
  | .literal text _ => text.toList.map .char
  | .delimiterChange .. => []
  | .tag .inclusion content line => [.inclusion content item.indent line]
  | .tag .. => [.mark]

namespace OpenBlock

/-- Only helper blocks are divided, and the tag of a helper block is one of a block. -/
def Sound (block : OpenBlock) : Prop :=
  match block.opener with
  | .plain _ => block.elseBody = none
  | .helper _ tag => tag.block = true

def contents (block : OpenBlock) : List Content :=
  match block.elseBody with
  | none => .mark :: contentsAll block.body
  | some elseBody => .mark :: (contentsAll block.body ++ .mark :: contentsAll elseBody)

theorem contents_toSegment {block : OpenBlock} (h : block.Sound) :
    block.toSegment.contents = block.contents ++ [.mark] := by
  obtain ⟨_ | ⟨registered, tag⟩, name, line, body, _ | elseBody⟩ := block
  · simp [toSegment, Segment.contents, contents]
  · simp [Sound] at h
  · have htag : tag.block = true := h
    simp [toSegment, Segment.contents, contents, htag]
  · simp [toSegment, Segment.contents, contents]

end OpenBlock

namespace Tree

variable {registry : Registry} {template : String}

def contents (tree : Tree) : List Content :=
  contentsAll tree.root ++ tree.opened.reverse.flatMap OpenBlock.contents

structure Holds (tree : Tree) (contents : List Content) : Prop where
  met : tree.contents = contents
  sound : ∀ block ∈ tree.opened, block.Sound

theorem Holds.update {tree : Tree} {before added : List Content}
    {f : List Segment → List Segment} (h : tree.Holds before)
    (hf : ∀ segments, contentsAll (f segments) = contentsAll segments ++ added) :
    (tree.update f).Holds (before ++ added) := by
  obtain ⟨rfl, hsound⟩ := h
  obtain ⟨root, _ | ⟨⟨opener, name, line, body, _ | elseBody⟩, outer⟩⟩ := tree
  · exact ⟨by simp [Tree.update, contents, hf], hsound⟩
  · refine ⟨by simp [Tree.update, OpenBlock.update, contents, OpenBlock.contents, hf], ?_⟩
    simpa [Tree.update, OpenBlock.update, OpenBlock.Sound] using hsound
  · refine ⟨by simp [Tree.update, OpenBlock.update, contents, OpenBlock.contents, hf], ?_⟩
    simpa [Tree.update, OpenBlock.update, OpenBlock.Sound] using hsound

theorem Holds.add {tree : Tree} {before : List Content} (h : tree.Holds before)
    (segment : Segment) : (tree.add segment).Holds (before ++ segment.contents) :=
  h.update fun segments => Segment.contentsAll_snoc segments segment

theorem Holds.openBlock {tree : Tree} {before : List Content} (h : tree.Holds before)
    {opener : Opener} {name : String} {line : Nat}
    (hsound : OpenBlock.Sound { opener, name, line }) :
    (tree.openBlock opener name line).Holds (before ++ [.mark]) := by
  obtain ⟨rfl, hall⟩ := h
  constructor
  · simp [Tree.openBlock, contents, OpenBlock.contents, contentsAll]
  · rintro block (_ | ⟨_, hmem⟩)
    · exact hsound
    · exact hall block hmem

theorem block_of_helperCall {content : String} {block : Bool} {line : Nat}
    {registered : Registered} {tag : HelperTag}
    (h : helperCall registry template content block line = .ok (some (registered, tag))) :
    tag.block = block := by
  obtain ⟨-, -, rfl⟩ := HelperTag.read_eq_some_iff.mp (helperCall_eq_some h).2
  rfl

theorem Adds.contents_eq {inHelper : Bool} {item : Item} {segment : Segment}
    (h : Adds (.accepted registry template) inHelper item segment) :
    segment.contents = item.contents := by
  cases h with
  | comment content line indent => rfl
  | inclusion content line indent => rfl
  | output hkind helse hplain indent => rcases hkind with rfl | rfl <;> rfl
  | call hkind helse hcall indent =>
    have hform := block_of_helperCall hcall
    rcases hkind with rfl | rfl <;> simp [Segment.contents, hform, Item.contents]

theorem Opens.sound {item : Item} {opener : Opener} {name : String} {line : Nat}
    (h : Opens (.accepted registry template) item opener name line) :
    item.contents = [.mark] ∧ OpenBlock.Sound { opener, name, line } := by
  cases h with
  | plain hplain indent => exact ⟨rfl, rfl⟩
  | inverted content line indent => exact ⟨rfl, rfl⟩
  | helper hcall indent => exact ⟨rfl, block_of_helperCall hcall⟩

/-- An item leaves its contents at the end of the tree. -/
theorem Change.holds {tree next : Tree} {item : Item} {before : List Content}
    (h : Change (.accepted registry template) tree item next) (hholds : tree.Holds before) :
    next.Holds (before ++ item.contents) := by
  cases h with
  | text tree text line indent => exact hholds.update (Segment.contentsAll_appendText text)
  | delimiterChange tree opening closing line indent =>
    rw [show Item.contents ⟨.delimiterChange opening closing line, indent⟩ = [] from rfl,
      List.append_nil]
    exact hholds
  | adds adds => exact adds.contents_eq ▸ hholds.add _
  | opens tree opens =>
    obtain ⟨hmark, hsound⟩ := opens.sound
    exact hmark ▸ hholds.openBlock hsound
  | divides root block outer hhelper hnone line indent =>
    obtain ⟨rfl, hsound⟩ := hholds
    constructor
    · simp [contents, OpenBlock.contents, hnone, Item.contents, contentsAll]
    · obtain ⟨_ | ⟨registered, tag⟩, name, openedAt, body, elseBody⟩ := block
      · contradiction
      · simpa [OpenBlock.Sound] using hsound
  | closes root block outer line indent =>
    obtain ⟨rfl, hsound⟩ := hholds
    have houter : Tree.Holds ⟨root, outer⟩ (contents ⟨root, outer⟩) :=
      ⟨rfl, fun b hb => hsound b (by simp [hb])⟩
    have hclosed := houter.add block.toSegment
    rw [OpenBlock.contents_toSegment (hsound block (by simp))] at hclosed
    simpa [contents, Item.contents] using hclosed

theorem holds_foldlM {items : List Item} {tree last : Tree} {before : List Content}
    (hholds : tree.Holds before)
    (h : items.foldlM (addItem registry template) tree = .ok last) :
    last.Holds (before ++ items.flatMap Item.contents) := by
  refine invariant_of_foldlM h
    (fun read current => current.Holds (before ++ read.flatMap Item.contents))
    (by simpa using hholds) ?_
  intro read item current next _ hcurrent hchange
  rw [List.flatMap_append, List.flatMap_singleton, ← List.append_assoc]
  exact hchange.holds hcurrent

/-- The characters, inclusions and tags of a tree are those of its items, in their order. -/
theorem contentsAll_of_ofItems {items : List Item} {segments : List Segment}
    (h : ofItems registry template items = .ok segments) :
    contentsAll segments = items.flatMap Item.contents := by
  have hempty : Tree.Holds {} [] := ⟨rfl, by simp⟩
  have hlast := holds_foldlM hempty (ofItems_eq_ok h)
  simpa [contents] using hlast.met

end Tree

end Stencil
