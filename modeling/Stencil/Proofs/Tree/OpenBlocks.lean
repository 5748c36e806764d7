import Stencil.Proofs.Token.Contents
import Stencil.Proofs.Tree.Change

/-! The open blocks of a tree in the making, told apart by whether they are helper blocks. -/

namespace Stencil

namespace Tree

variable {registry : Registry} {template : String}

/-- Which of the open blocks are helper blocks, innermost first. -/
def kinds (tree : Tree) : OpenKinds := tree.opened.map OpenBlock.isHelper

theorem inHelper_eq (tree : Tree) : tree.inHelper = (tree.kinds.head? == some true) := by
  obtain ⟨root, _ | ⟨block, outer⟩⟩ := tree
  · rfl
  · cases h : block.isHelper <;> simp [inHelper, kinds, h]

theorem kinds_update (tree : Tree) (f : List Segment → List Segment) :
    (tree.update f).kinds = tree.kinds := by
  obtain ⟨root, _ | ⟨⟨opener, name, line, body, _ | elseBody⟩, outer⟩⟩ := tree <;> rfl

theorem kinds_add (tree : Tree) (segment : Segment) : (tree.add segment).kinds = tree.kinds :=
  tree.kinds_update _

theorem kinds_openBlock (tree : Tree) (opener : Opener) (name : String) (line : Nat) :
    (tree.openBlock opener name line).kinds =
      (OpenBlock.isHelper { opener, name, line }) :: tree.kinds := rfl

/-- A tag with words is read as a call exactly if its first word is the name of a helper. -/
theorem isSome_of_helperCall {content : String} {block : Bool} {line : Nat}
    {call : Option (Registered × HelperTag)} (hwords : Text.words content.toList ≠ [])
    (h : helperCall registry template content block line = .ok call) :
    call.isSome = registry.contains (String.ofList (Text.firstWord content.toList)) := by
  unfold helperCall at h
  unfold Registry.contains
  split at h
  · rename_i hnone
    obtain rfl := Except.ok.inj h
    simp [hnone]
  · rename_i registered hsome
    split at h
    · contradiction
    · rename_i hread
      exact absurd (HelperTag.words?_of_read_eq_none hread) (Argument.words?_ne_nil hwords)
    · split at h
      · contradiction
      · obtain rfl := Except.ok.inj h
        simp [hsome]

theorem Opens.kinds {tree : Tree} {item : Item} {opener : Opener} {name : String} {line : Nat}
    (hwords : item.token.HasWords) (h : Opens (.accepted registry template) item opener name line) :
    (tree.openBlock opener name line).kinds =
      OpenKinds.after registry tree.kinds item.token := by
  have hcalled : ∀ {content line call}, Token.HasWords (.tag .opening content line) →
      helperCall registry template content true line = .ok call →
      registry.contains (String.ofList (Text.firstWord content.toList)) = call.isSome :=
    fun hwords hcall => (isSome_of_helperCall (hwords.resolve_left (by simp)) hcall).symm
  rw [kinds_openBlock]
  cases h with
  | plain hplain indent => simp [OpenKinds.after, hcalled hwords hplain, OpenBlock.isHelper]
  | inverted content line indent => rfl
  | helper hcall indent => simp [OpenKinds.after, hcalled hwords hcall, OpenBlock.isHelper]

theorem Adds.after_eq {reads : CallReading} {kinds : OpenKinds} {inHelper : Bool} {item : Item}
    {segment : Segment} (h : Adds reads inHelper item segment) :
    OpenKinds.after registry kinds item.token = kinds := by
  cases h with
  | comment content line indent => rfl
  | inclusion content line indent => rfl
  | output hkind helse hplain indent => rcases hkind with rfl | rfl <;> rfl
  | call hkind helse hcall indent => rcases hkind with rfl | rfl <;> rfl

/-- An item opens and closes in the tree what its token opens and closes for trimming. -/
theorem Change.kinds {tree next : Tree} {item : Item} (hwords : item.token.HasWords)
    (h : Change (.accepted registry template) tree item next) :
    next.kinds = OpenKinds.after registry tree.kinds item.token := by
  cases h with
  | text tree text line indent => exact tree.kinds_update _
  | delimiterChange tree opening closing line indent => rfl
  | adds adds => rw [kinds_add, adds.after_eq]
  | opens tree opens => exact opens.kinds hwords
  | divides root block outer hhelper hnone line indent => rfl
  | closes root block outer line indent =>
    rw [kinds_add]
    rfl

theorem kinds_foldlM {items : List Item} {tree last : Tree}
    (hwords : ∀ item ∈ items, item.token.HasWords)
    (h : items.foldlM (addItem registry template) tree = .ok last) :
    last.kinds = (items.map Item.token).foldl (OpenKinds.after registry) tree.kinds := by
  refine invariant_of_foldlM h (fun read current =>
    current.kinds = (read.map Item.token).foldl (OpenKinds.after registry) tree.kinds) rfl ?_
  intro read item current next hitem hcurrent hchange
  rw [hchange.kinds (hwords item hitem), hcurrent, List.map_append, List.foldl_append]
  rfl

end Tree

end Stencil
