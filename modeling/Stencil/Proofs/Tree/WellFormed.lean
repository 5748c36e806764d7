import Mathlib.Data.List.Chain
import Stencil.Helper.Builtin
import Stencil.Proofs.Standalone.Indents
import Stencil.Proofs.Tree.Contents
import Stencil.Proofs.Tree.Parts

/-! Compiled trees are well formed at every depth, which rendering relies on without a check. -/

namespace Stencil

/-- Segments that stand side by side, directly in the part of a helper block or not. -/
structure Level where
  inHelper : Bool
  segments : List Segment

namespace Segment

mutual

def levels : Segment → List Level
  | .text _ => []
  | .output .. => []
  | .block _ _ body _ => ⟨false, body⟩ :: levelsAll body
  | .inclusion .. => []
  | .invocation _ _ body none => ⟨true, body⟩ :: levelsAll body
  | .invocation _ _ body (some elseBody) =>
    (⟨true, body⟩ :: levelsAll body) ++ ⟨true, elseBody⟩ :: levelsAll elseBody
  | .comment => []

def levelsAll : List Segment → List Level
  | [] => []
  | segment :: later => levels segment ++ levelsAll later

end

theorem levelsAll_append (segments later : List Segment) :
    levelsAll (segments ++ later) = levelsAll segments ++ levelsAll later := by
  induction segments with
  | nil => rfl
  | cons segment segments ih => simp [levelsAll, ih]

mutual

/-- A part of a segment is the segment itself, or stands at one of the levels inside of it. -/
theorem eq_or_exists_level_of_mem_parts {part : Segment} :
    ∀ {segment : Segment}, part ∈ segment.parts →
      part = segment ∨ ∃ level ∈ segment.levels, part ∈ level.segments
  | .text _, hmem => .inl (List.mem_singleton.mp hmem)
  | .output .., hmem => .inl (List.mem_singleton.mp hmem)
  | .block .., hmem => by
    rcases List.mem_cons.mp hmem with hself | hinner
    · exact .inl hself
    · exact .inr (exists_level_of_mem_partsAll false hinner)
  | .inclusion .., hmem => .inl (List.mem_singleton.mp hmem)
  | .invocation _ _ _ none, hmem => by
    rcases List.mem_cons.mp hmem with hself | hinner
    · exact .inl hself
    · exact .inr (exists_level_of_mem_partsAll true hinner)
  | .invocation _ _ _ (some _), hmem => by
    rcases List.mem_cons.mp hmem with hself | hinner
    · exact .inl hself
    · rcases List.mem_append.mp hinner with hbody | helse
      · obtain ⟨level, hlevel, hpart⟩ := exists_level_of_mem_partsAll true hbody
        exact .inr ⟨level, List.mem_append_left _ hlevel, hpart⟩
      · obtain ⟨level, hlevel, hpart⟩ := exists_level_of_mem_partsAll true helse
        exact .inr ⟨level, List.mem_append_right _ hlevel, hpart⟩
  | .comment, hmem => .inl (List.mem_singleton.mp hmem)

theorem exists_level_of_mem_partsAll {part : Segment} (inHelper : Bool) :
    ∀ {segments : List Segment}, part ∈ partsAll segments →
      ∃ level ∈ ⟨inHelper, segments⟩ :: levelsAll segments, part ∈ level.segments
  | _ :: _, hmem => by
    rcases List.mem_append.mp hmem with hfirst | hlater
    · rcases eq_or_exists_level_of_mem_parts hfirst with rfl | ⟨level, hlevel, hpart⟩
      · exact ⟨_, List.mem_cons_self, List.mem_cons_self⟩
      · exact ⟨level, List.mem_cons_of_mem _ (List.mem_append_left _ hlevel), hpart⟩
    · obtain ⟨level, hlevel, hpart⟩ := exists_level_of_mem_partsAll inHelper hlater
      rcases List.mem_cons.mp hlevel with rfl | hinner
      · exact ⟨_, List.mem_cons_self, List.mem_cons_of_mem _ hpart⟩
      · exact ⟨level, List.mem_cons_of_mem _ (List.mem_append_right _ hinner), hpart⟩

end

/-- No two texts stand next to each other. -/
def Apart (segments : List Segment) : Prop :=
  segments.IsChain fun first second => ¬ (first.isText = true ∧ second.isText = true)

end Segment

open Segment (levelsAll levelsAll_append Apart partsAll)

def Template.levels (template : Template) : List Level :=
  ⟨false, template.segments⟩ :: levelsAll template.segments

/-- The helper keeps the check of its tags that helpers have by default. -/
def Helper.ChecksUsage (helper : Helper) : Prop :=
  helper.validate = checkUsage helper.requiredParams helper.supportedKeys

/-- The tag has the parameters a helper needs, and only keys out of a closed set. -/
def HelperTag.MeetsUsage (helper : Helper) (tag : HelperTag) : Prop :=
  helper.requiredParams ≤ tag.params.length ∧
    ∀ keys, helper.supportedKeys = .only keys → ∀ entry ∈ tag.named, entry.1 ∈ keys

/-- How the call of a helper is written among some tokens, and what it then holds. -/
inductive IsWritten (tokens : List Token) (tag : HelperTag) :
    List Segment → Option (List Segment) → Prop where
  | tag {kind : TagKind} {content : String} {line : Nat}
      (hkind : kind = .escaped ∨ kind = .unescaped) (hmem : .tag kind content line ∈ tokens)
      (hread : HelperTag.read content false line = .ok (some tag)) (hblock : tag.block = false) :
    IsWritten tokens tag [] none
  | block {content : String} {line : Nat} (hmem : .tag .opening content line ∈ tokens)
      (hread : HelperTag.read content true line = .ok (some tag)) (hblock : tag.block = true)
      (body : List Segment) (elseBody : Option (List Segment)) :
    IsWritten tokens tag body elseBody

structure IsCompiledCall (tokens : List Token) (helper : Helper) (tag : HelperTag)
    (body : List Segment) (elseBody : Option (List Segment)) : Prop where
  valid : helper.validate tag = .ok ()
  usage : helper.ChecksUsage → tag.MeetsUsage helper
  written : IsWritten tokens tag body elseBody

def Registry.LeavesPlain (registry : Registry) (name : String) : Prop :=
  registry.get? (String.ofList (Text.firstWord name.toList)) = none

def Segment.IsSound (options : CompileOptions) (tokens : List Token) (inHelper : Bool) :
    Segment → Prop
  | .text s => s ≠ ""
  | .output name escaped _ =>
    options.registry.LeavesPlain name ∧ ¬ (inHelper = true ∧ escaped = true ∧ name = "else")
  | .block name inverted _ _ => inverted = false → options.registry.LeavesPlain name
  | .inclusion _ indent _ => IsIndent options.trimLines indent
  | .invocation registered tag body elseBody =>
    IsCompiledCall tokens registered.helper tag body elseBody
  | .comment => True

structure Level.WellFormed (options : CompileOptions) (tokens : List Token) (level : Level) :
    Prop where
  apart : Apart level.segments
  sound : ∀ segment ∈ level.segments, segment.IsSound options tokens level.inHelper

theorem meetsUsage_of_checkUsage {helper : Helper} {tag : HelperTag}
    (h : checkUsage helper.requiredParams helper.supportedKeys tag = .ok ()) :
    tag.MeetsUsage helper := by
  unfold checkUsage at h
  split at h
  · contradiction
  · rename_i hfewer
    refine ⟨Nat.not_lt.mp hfewer, ?_⟩
    intro keys hkeys entry hentry
    simp only [hkeys] at h
    split at h
    · contradiction
    · rename_i hnone
      simpa using List.find?_eq_none.mp hnone entry hentry

/-! ### Side by side -/

/-- A text behind some segments changes none of them but a text at their end. -/
theorem isText_head_appendText (text : String) (segment : Segment) (later : List Segment) :
    ∃ head tail, Tree.appendText text (segment :: later) = head :: tail ∧
      head.isText = segment.isText := by
  cases later with
  | nil => cases segment <;> exact ⟨_, _, rfl, rfl⟩
  | cons next later => cases segment <;> exact ⟨_, _, rfl, rfl⟩

theorem Segment.Apart.appendText {segments : List Segment} (h : Apart segments) (text : String) :
    Apart (Tree.appendText text segments) := by
  induction segments with
  | nil => exact List.isChain_singleton _
  | cons segment later ih =>
    cases later with
    | nil =>
      cases segment with
      | text last => exact List.isChain_singleton _
      | _ => exact List.isChain_pair.mpr (by simp [Segment.isText])
    | cons next later =>
      have hskip : Tree.appendText text (segment :: next :: later) =
          segment :: Tree.appendText text (next :: later) := by
        cases segment <;> rfl
      obtain ⟨hfirst, hlater⟩ := List.isChain_cons_cons.mp h
      obtain ⟨head, tail, hhead, hsame⟩ := isText_head_appendText text next later
      have hjoined := ih hlater
      rw [hskip]
      rw [hhead] at hjoined ⊢
      exact List.isChain_cons_cons.mpr ⟨hsame ▸ hfirst, hjoined⟩

theorem Segment.Apart.snoc {segments : List Segment} (h : Apart segments) {segment : Segment}
    (hsegment : segment.isText = false) : Apart (segments ++ [segment]) := by
  refine List.isChain_append.mpr ⟨h, List.isChain_singleton _, ?_⟩
  intro last _ first hfirst
  obtain rfl : segment = first := by simpa using hfirst
  simp [hsegment]

section Levels

variable {options : CompileOptions} {tokens : List Token} {inHelper : Bool}

def LevelsHold (options : CompileOptions) (tokens : List Token) (inHelper : Bool)
    (segments : List Segment) : Prop :=
  ∀ level ∈ ⟨inHelper, segments⟩ :: levelsAll segments, level.WellFormed options tokens

theorem levelsHold_nil : LevelsHold options tokens inHelper [] := by
  intro level hlevel
  obtain rfl : level = ⟨inHelper, []⟩ := by simpa [levelsAll] using hlevel
  exact ⟨List.isChain_nil, fun _ hmem => nomatch hmem⟩

theorem LevelsHold.snoc {segments : List Segment} (h : LevelsHold options tokens inHelper segments)
    {segment : Segment} (htext : segment.isText = false)
    (hsound : segment.IsSound options tokens inHelper)
    (hinner : ∀ level ∈ segment.levels, level.WellFormed options tokens) :
    LevelsHold options tokens inHelper (segments ++ [segment]) := by
  obtain ⟨⟨hapart, hsegments⟩, hlevels⟩ := List.forall_mem_cons.mp h
  have hall : ∀ part ∈ segments ++ [segment], part.IsSound options tokens inHelper := by
    rw [List.forall_mem_append, List.forall_mem_singleton]
    exact ⟨hsegments, hsound⟩
  refine List.forall_mem_cons.mpr ⟨⟨hapart.snoc htext, hall⟩, ?_⟩
  rw [levelsAll_append, List.forall_mem_append]
  exact ⟨hlevels, by simpa [levelsAll] using hinner⟩

theorem LevelsHold.appendText {segments : List Segment}
    (h : LevelsHold options tokens inHelper segments) {text : String} (hne : text ≠ "") :
    LevelsHold options tokens inHelper (Tree.appendText text segments) := by
  obtain ⟨⟨hapart, hsegments⟩, hlevels⟩ := List.forall_mem_cons.mp h
  refine List.forall_mem_cons.mpr ⟨⟨hapart.appendText text, ?_⟩, ?_⟩
  · intro segment hsegment
    rcases Tree.appendText_cases text segments with ⟨front, last, rfl, hjoined⟩ | hnew
    · simp only [hjoined, List.mem_append, List.mem_singleton] at hsegment
      rcases hsegment with hfront | rfl
      · exact hsegments segment (by simp [hfront])
      · simpa [Segment.IsSound] using fun _ => hne
    · simp only [hnew, List.mem_append, List.mem_singleton] at hsegment
      rcases hsegment with hold | rfl
      · exact hsegments segment hold
      · exact hne
  · rcases Tree.appendText_cases text segments with ⟨front, last, rfl, hjoined⟩ | hnew
    · rw [hjoined, levelsAll_append]
      rwa [levelsAll_append] at hlevels
    · rw [hnew, levelsAll_append]
      simpa [levelsAll, Segment.levels] using hlevels

/-- What an open block will be is sound, whatever is read into it. -/
def Opener.IsSound (options : CompileOptions) (tokens : List Token) (name : String) :
    Opener → Prop
  | .plain inverted => inverted = false → options.registry.LeavesPlain name
  | .helper registered tag =>
    ∀ body elseBody, IsCompiledCall tokens registered.helper tag body elseBody

structure OpenBlock.WellFormed (options : CompileOptions) (tokens : List Token)
    (block : OpenBlock) : Prop where
  opener : block.opener.IsSound options tokens block.name
  body : LevelsHold options tokens block.isHelper block.body
  elseBody : ∀ elseBody ∈ block.elseBody, LevelsHold options tokens block.isHelper elseBody

namespace OpenBlock

variable {block : OpenBlock}

theorem isText_toSegment (block : OpenBlock) : block.toSegment.isText = false := by
  obtain ⟨_ | _, _, _, _, _⟩ := block <;> rfl

theorem WellFormed.sound_toSegment (h : block.WellFormed options tokens) :
    block.toSegment.IsSound options tokens inHelper := by
  obtain ⟨hopener, -, -⟩ := h
  obtain ⟨inverted | ⟨registered, tag⟩, name, line, body, elseBody⟩ := block
  · exact hopener
  · exact hopener body elseBody

theorem WellFormed.levels_toSegment (h : block.WellFormed options tokens) :
    ∀ level ∈ block.toSegment.levels, level.WellFormed options tokens := by
  obtain ⟨-, hbody, helse⟩ := h
  obtain ⟨inverted | ⟨registered, tag⟩, name, line, body, _ | elseBody⟩ := block
  · exact hbody
  · exact hbody
  · exact hbody
  · exact List.forall_mem_append.mpr ⟨hbody, helse elseBody rfl⟩

theorem WellFormed.update (h : block.WellFormed options tokens)
    {f : List Segment → List Segment}
    (hf : ∀ segments, LevelsHold options tokens block.isHelper segments →
      LevelsHold options tokens block.isHelper (f segments)) :
    (block.update f).WellFormed options tokens := by
  obtain ⟨hopener, hbody, helse⟩ := h
  obtain ⟨opener, name, line, body, _ | elseBody⟩ := block
  · exact ⟨hopener, hf body hbody, helse⟩
  · refine ⟨hopener, hbody, ?_⟩
    rintro _ ⟨⟩
    exact hf elseBody (helse elseBody rfl)

end OpenBlock

namespace Tree

variable {template : String}

structure WellFormed (options : CompileOptions) (tokens : List Token) (tree : Tree) : Prop where
  root : LevelsHold options tokens false tree.root
  opened : ∀ block ∈ tree.opened, block.WellFormed options tokens

theorem WellFormed.update {tree : Tree} (h : tree.WellFormed options tokens)
    {f : List Segment → List Segment}
    (hf : ∀ segments, LevelsHold options tokens tree.inHelper segments →
      LevelsHold options tokens tree.inHelper (f segments)) :
    (tree.update f).WellFormed options tokens := by
  obtain ⟨hroot, hopened⟩ := h
  obtain ⟨root, _ | ⟨block, outer⟩⟩ := tree
  · exact ⟨hf root hroot, hopened⟩
  · obtain ⟨hblock, houter⟩ := List.forall_mem_cons.mp hopened
    exact ⟨hroot, List.forall_mem_cons.mpr ⟨hblock.update hf, houter⟩⟩

theorem WellFormed.add {tree : Tree} (h : tree.WellFormed options tokens) {segment : Segment}
    (htext : segment.isText = false) (hsound : segment.IsSound options tokens tree.inHelper)
    (hinner : ∀ level ∈ segment.levels, level.WellFormed options tokens) :
    (tree.add segment).WellFormed options tokens :=
  h.update fun _ hsegments => hsegments.snoc htext hsound hinner

theorem leavesPlain_of_helperCall {registry : Registry} {content : String} {block : Bool}
    {line : Nat} (hwords : Text.words content.toList ≠ [])
    (h : helperCall registry template content block line = .ok none) :
    registry.LeavesPlain content := by
  have hnone := isSome_of_helperCall hwords h
  simpa [Registry.contains, Registry.LeavesPlain] using hnone

/-- What is read as a call has been accepted by its helper. -/
theorem validate_of_helperCall {registry : Registry} {content : String} {block : Bool}
    {line : Nat} {registered : Registered} {tag : HelperTag}
    (h : helperCall registry template content block line = .ok (some (registered, tag))) :
    registered.helper.validate tag = .ok () := by
  unfold helperCall at h
  split at h
  · cases Except.ok.inj h
  · split at h
    · contradiction
    · cases Except.ok.inj h
    · split at h
      · contradiction
      · rename_i hvalid
        obtain ⟨rfl, rfl⟩ := Prod.mk.inj (Option.some.inj (Except.ok.inj h))
        exact hvalid

theorem isCompiledCall {helper : Helper} {tag : HelperTag} {body : List Segment}
    {elseBody : Option (List Segment)} (hvalid : helper.validate tag = .ok ())
    (hwritten : IsWritten tokens tag body elseBody) :
    IsCompiledCall tokens helper tag body elseBody :=
  ⟨hvalid, fun hchecks => meetsUsage_of_checkUsage (hchecks ▸ hvalid), hwritten⟩

theorem Adds.isSound {item : Item} {segment : Segment}
    (h : Adds (.accepted options.registry template) inHelper item segment)
    (hmem : item.token ∈ tokens) (hwords : item.token.HasWords)
    (hindent : IsIndent options.trimLines item.indent) :
    segment.IsSound options tokens inHelper := by
  cases h with
  | comment content line indent => trivial
  | inclusion content line indent => exact hindent
  | output hkind helse hplain indent =>
    have hne := hwords.resolve_left (by rcases hkind with rfl | rfl <;> simp)
    refine ⟨leavesPlain_of_helperCall hne hplain, ?_⟩
    rintro ⟨rfl, hescaped, rfl⟩
    obtain rfl := beq_iff_eq.mp hescaped
    simp [isElse] at helse
  | call hkind helse hcall indent =>
    obtain ⟨-, hread⟩ := helperCall_eq_some hcall
    exact isCompiledCall (validate_of_helperCall hcall)
      (.tag hkind hmem hread (block_of_helperCall hcall))

theorem Adds.isText_eq_false {reads : CallReading} {item : Item} {segment : Segment}
    (h : Adds reads inHelper item segment) : segment.isText = false := by
  cases h <;> rfl

theorem Adds.levels_wellFormed {reads : CallReading} {item : Item} {segment : Segment}
    (h : Adds reads inHelper item segment) :
    ∀ level ∈ segment.levels, level.WellFormed options tokens := by
  have hnone : ∀ level ∈ ([] : List Level), level.WellFormed options tokens :=
    fun _ hmem => nomatch hmem
  cases h with
  | comment content line indent => exact hnone
  | inclusion content line indent => exact hnone
  | output hkind helse hplain indent => exact hnone
  | call hkind helse hcall indent => exact levelsHold_nil

theorem Opens.isSound {item : Item} {opener : Opener} {name : String} {line : Nat}
    (h : Opens (.accepted options.registry template) item opener name line)
    (hmem : item.token ∈ tokens) (hwords : item.token.HasWords) :
    opener.IsSound options tokens name := by
  cases h with
  | plain hplain indent =>
    exact fun _ => leavesPlain_of_helperCall (hwords.resolve_left (by simp)) hplain
  | inverted content line indent => exact fun hnot => nomatch hnot
  | helper hcall indent =>
    obtain ⟨-, hread⟩ := helperCall_eq_some hcall
    intro body elseBody
    exact isCompiledCall (validate_of_helperCall hcall)
      (.block hmem hread (block_of_helperCall hcall) body elseBody)

/-- An item of some tokens keeps a tree well formed. -/
theorem Change.wellFormed {tree next : Tree} {item : Item}
    (h : Change (.accepted options.registry template) tree item next)
    (hmem : item.token ∈ tokens) (hwords : item.token.HasWords) (hpiece : item.token.IsPiece)
    (hindent : IsIndent options.trimLines item.indent) (htree : tree.WellFormed options tokens) :
    next.WellFormed options tokens := by
  cases h with
  | text tree text line indent =>
    exact htree.update fun _ hsegments => hsegments.appendText hpiece.1
  | delimiterChange tree opening closing line indent => exact htree
  | adds adds =>
    exact htree.add adds.isText_eq_false (adds.isSound hmem hwords hindent) adds.levels_wellFormed
  | opens tree opens =>
    have hopened := opens.isSound hmem hwords
    refine ⟨htree.root, List.forall_mem_cons.mpr ⟨⟨hopened, levelsHold_nil, ?_⟩, htree.opened⟩⟩
    rintro _ ⟨⟩
  | divides root block outer hhelper hnone line indent =>
    obtain ⟨hblock, houter⟩ := List.forall_mem_cons.mp htree.opened
    refine ⟨htree.root, List.forall_mem_cons.mpr ⟨⟨hblock.opener, hblock.body, ?_⟩, houter⟩⟩
    rintro _ ⟨⟩
    exact levelsHold_nil
  | closes root block outer line indent =>
    obtain ⟨hblock, houter⟩ := List.forall_mem_cons.mp htree.opened
    have hrest : WellFormed options tokens ⟨root, outer⟩ := ⟨htree.root, houter⟩
    exact hrest.add block.isText_toSegment hblock.sound_toSegment hblock.levels_toSegment

theorem wellFormed_foldlM {items : List Item} (hmem : ∀ item ∈ items, item.token ∈ tokens)
    (hwords : ∀ token ∈ tokens, token.HasWords) (hpieces : ∀ token ∈ tokens, token.IsPiece)
    (hindents : ∀ item ∈ items, IsIndent options.trimLines item.indent) {tree last : Tree}
    (htree : tree.WellFormed options tokens)
    (h : items.foldlM (addItem options.registry template) tree = .ok last) :
    last.WellFormed options tokens := by
  refine invariant_of_foldlM h (fun _ current => current.WellFormed options tokens) htree ?_
  intro read item current next hitem hcurrent hchange
  have htoken := hmem item hitem
  exact hchange.wellFormed htoken (hwords _ htoken) (hpieces _ htoken) (hindents item hitem)
    hcurrent

end Tree

theorem levelsHold_of_ofItems {name source : String} {segments : List Segment}
    (htokens : tokenize name options.delimiters source = .ok tokens)
    (h : Tree.ofItems options.registry name
      (itemsOf options.registry options.trimLines tokens) = .ok segments) :
    LevelsHold options tokens false segments := by
  have hempty : Tree.WellFormed options tokens {} := ⟨levelsHold_nil, by simp⟩
  have hlast := Tree.wellFormed_foldlM (fun _ => mem_of_mem_itemsOf) (tokenize_hasWords htokens)
    (tokenize_isPiece htokens) (fun _ => isIndent_itemsOf (tokenize_isPiece htokens)) hempty
    (Tree.ofItems_eq_ok h)
  exact hlast.root

end Levels

theorem isSound_of_mem_parts {options : CompileOptions} {name source : String}
    {template : Template} (h : compile options name source = .ok template) {part : Segment}
    (hpart : part ∈ template.parts) : ∃ tokens inHelper, part.IsSound options tokens inHelper := by
  obtain ⟨-, tokens, htokens, htree⟩ := compile_eq_ok h
  obtain ⟨level, hlevel, hmem⟩ := Segment.exists_level_of_mem_partsAll false hpart
  exact ⟨tokens, level.inHelper,
    (levelsHold_of_ofItems htokens htree level hlevel).sound part hmem⟩

theorem blankIndents_of_compile {options : CompileOptions} {name source : String}
    {template : Template} (h : compile options name source = .ok template) :
    BlankIndents template.segments := by
  intro part hpart
  obtain ⟨tokens, inHelper, hsound⟩ := isSound_of_mem_parts h hpart
  cases part with
  | inclusion name indent line => exact hsound.blank
  | _ => trivial

/-- Every compiled tree is well formed, at every depth: no text is empty or next to another one; an
inclusion is indented by blanks of one line, and not at all where lines are not trimmed; a helper
has accepted each of its calls, which by the default check has its parameters and only known keys,
and which is written as a tag, with nothing inside, or as a block; `else` is not put out directly in
a helper block; and the names of outputs and plain sections start with no helper. -/
theorem compiled_tree_well_formed {options : CompileOptions} {name source : String}
    {template : Template} (h : compile options name source = .ok template) :
    ∃ tokens, tokenize name options.delimiters source = .ok tokens ∧
      ∀ level ∈ template.levels, level.WellFormed options tokens := by
  obtain ⟨-, tokens, htokens, htree⟩ := compile_eq_ok h
  exact ⟨tokens, htokens, levelsHold_of_ofItems htokens htree⟩

def rosterSource : String :=
  "\x7b\x7b#if open\x7d\x7d\n\x7b\x7bname\x7d\x7d, \x7b\x7bif on\x7d\x7d\n" ++
    "\x7b\x7belse\x7d\x7d\n \x7b\x7b> closed\x7d\x7d\n\x7b\x7b/if\x7d\x7d"

def rosterTemplate : Template where
  name := "roster"
  segments :=
    [.invocation ⟨0, "if", ifHelper⟩ ⟨"if", [.name "open"], [], true, 1⟩
      [.output "name" true 2, .text ", ",
        .invocation ⟨0, "if", ifHelper⟩ ⟨"if", [.name "on"], [], false, 2⟩ [] none, .text "\n"]
      (some [.inclusion "closed" " " 4])]

theorem compiled_tree_well_formed_roster :
    compile ⟨{}, .builtin, true⟩ "roster" rosterSource = .ok rosterTemplate ∧
      ∃ tokens, tokenize "roster" {} rosterSource = .ok tokens ∧
        ∀ level ∈ rosterTemplate.levels, level.WellFormed ⟨{}, .builtin, true⟩ tokens := by
  have htokens : tokenize "roster" {} rosterSource = .ok
      [.tag .opening "if open" 1, .literal "\n" 1, .tag .escaped "name" 2, .literal ", " 2,
        .tag .escaped "if on" 2, .literal "\n" 2, .tag .escaped "else" 3, .literal "\n" 3,
        .literal " " 4, .tag .inclusion "closed" 4, .literal "\n" 4, .tag .closing "if" 5] := by
    decide +kernel
  have hcompile : compile ⟨{}, .builtin, true⟩ "roster" rosterSource = .ok rosterTemplate := by
    rw [compile, htokens]
    rfl
  exact ⟨hcompile, compiled_tree_well_formed hcompile⟩

/-- A helper with a check of its own, which is content with every block. -/
def blockHelper : Helper where
  validate := fun tag =>
    if tag.block then .ok ()
    else .error (.invalidHelperUsage tag.name (.other "block form required"))
  execute := fun _ => HelperAction.renderBody

/-- A helper with a check of its own may accept calls without the parameters that it needs. -/
theorem not_every_call_meets_usage :
    ¬ ∀ (options : CompileOptions) (name source : String) (template : Template),
      compile options name source = .ok template → ∀ level ∈ template.levels,
      ∀ registered tag body elseBody, .invocation registered tag body elseBody ∈ level.segments →
        tag.MeetsUsage registered.helper := by
  intro h
  let options : CompileOptions := { registry := { helpers := [("b", blockHelper)] } }
  let source : String := "\x7b\x7b#b\x7d\x7d\x7b\x7b/b\x7d\x7d"
  let call : Segment := .invocation ⟨0, "b", blockHelper⟩ ⟨"b", [], [], true, 1⟩ [] none
  have htokens : tokenize "t" {} source = .ok [.tag .opening "b" 1, .tag .closing "b" 1] := by
    decide +kernel
  have hcompile : compile options "t" source = .ok ⟨"t", [call]⟩ := by
    rw [compile, htokens]
    rfl
  have hlevel : ⟨false, [call]⟩ ∈ Template.levels ⟨"t", [call]⟩ := List.mem_cons_self
  have husage := h options "t" source ⟨"t", [call]⟩ hcompile _ hlevel _ _ _ _ List.mem_cons_self
  exact absurd husage.1 (by decide)

end Stencil
