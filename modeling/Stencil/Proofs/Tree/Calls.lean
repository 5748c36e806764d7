import Stencil.Proofs.Compile
import Stencil.Proofs.Tree.Rejection
import Stencil.Render

/-! Which helpers a compiled template can call, and one that is found while rendering. -/

namespace Stencil

namespace Segment

mutual

def CallsOnly (allowed : Helper → Prop) : Segment → Prop
  | .text _ => True
  | .output .. => True
  | .block _ _ body _ => AllCallOnly allowed body
  | .inclusion .. => True
  | .invocation registered _ body none => allowed registered.helper ∧ AllCallOnly allowed body
  | .invocation registered _ body (some elseBody) =>
    allowed registered.helper ∧ AllCallOnly allowed body ∧ AllCallOnly allowed elseBody
  | .comment => True

def AllCallOnly (allowed : Helper → Prop) : List Segment → Prop
  | [] => True
  | segment :: later => CallsOnly allowed segment ∧ AllCallOnly allowed later

end

theorem allCallOnly_append {allowed : Helper → Prop} (segments later : List Segment) :
    AllCallOnly allowed (segments ++ later) ↔
      AllCallOnly allowed segments ∧ AllCallOnly allowed later := by
  induction segments with
  | nil => simp [AllCallOnly]
  | cons segment segments ih => simp [AllCallOnly, ih, and_assoc]

theorem allCallOnly_appendText {allowed : Helper → Prop} {segments : List Segment}
    (h : AllCallOnly allowed segments) (text : String) :
    AllCallOnly allowed (Tree.appendText text segments) := by
  rcases Tree.appendText_cases text segments with ⟨front, last, rfl, hjoined⟩ | hnew
  · rw [allCallOnly_append] at h
    rw [hjoined, allCallOnly_append]
    exact ⟨h.1, trivial, trivial⟩
  · rw [hnew, allCallOnly_append]
    exact ⟨h, trivial, trivial⟩

mutual

theorem CallsOnly.mono {allowed wider : Helper → Prop}
    (hwider : ∀ helper, allowed helper → wider helper) :
    ∀ {segment : Segment}, CallsOnly allowed segment → CallsOnly wider segment
  | .text _, _ => trivial
  | .output .., _ => trivial
  | .block _ _ _ _, h => AllCallOnly.mono hwider h
  | .inclusion .., _ => trivial
  | .invocation _ _ _ none, h => ⟨hwider _ h.1, AllCallOnly.mono hwider h.2⟩
  | .invocation _ _ _ (some _), h =>
    ⟨hwider _ h.1, AllCallOnly.mono hwider h.2.1, AllCallOnly.mono hwider h.2.2⟩
  | .comment, _ => trivial

theorem AllCallOnly.mono {allowed wider : Helper → Prop}
    (hwider : ∀ helper, allowed helper → wider helper) :
    ∀ {segments : List Segment}, AllCallOnly allowed segments → AllCallOnly wider segments
  | [], _ => trivial
  | _ :: _, h => ⟨CallsOnly.mono hwider h.1, AllCallOnly.mono hwider h.2⟩

end

end Segment

open Segment (AllCallOnly allCallOnly_append)

def Opener.CallsOnly (allowed : Helper → Prop) : Opener → Prop
  | .plain _ => True
  | .helper registered _ => allowed registered.helper

structure OpenBlock.CallsOnly (allowed : Helper → Prop) (block : OpenBlock) : Prop where
  opener : block.opener.CallsOnly allowed
  body : AllCallOnly allowed block.body
  elseBody : ∀ elseBody ∈ block.elseBody, AllCallOnly allowed elseBody

namespace OpenBlock

variable {allowed : Helper → Prop} {block : OpenBlock}

theorem CallsOnly.toSegment (h : block.CallsOnly allowed) : block.toSegment.CallsOnly allowed := by
  obtain ⟨hopener, hbody, helseBody⟩ := h
  obtain ⟨_ | ⟨registered, tag⟩, name, line, body, _ | elseBody⟩ := block
  · exact hbody
  · exact hbody
  · exact ⟨hopener, hbody⟩
  · exact ⟨hopener, hbody, helseBody elseBody rfl⟩

theorem CallsOnly.update (h : block.CallsOnly allowed) {f : List Segment → List Segment}
    (hf : ∀ segments, AllCallOnly allowed segments → AllCallOnly allowed (f segments)) :
    (block.update f).CallsOnly allowed := by
  obtain ⟨hopener, hbody, helseBody⟩ := h
  obtain ⟨opener, name, line, body, _ | elseBody⟩ := block
  · exact ⟨hopener, hf body hbody, helseBody⟩
  · refine ⟨hopener, hbody, ?_⟩
    rintro _ ⟨⟩
    exact hf elseBody (helseBody elseBody rfl)

end OpenBlock

namespace Tree

variable {registry : Registry} {template : String} {allowed : Helper → Prop}

structure CallsOnly (allowed : Helper → Prop) (tree : Tree) : Prop where
  root : AllCallOnly allowed tree.root
  opened : ∀ block ∈ tree.opened, block.CallsOnly allowed

theorem CallsOnly.update {tree : Tree} (h : tree.CallsOnly allowed)
    {f : List Segment → List Segment}
    (hf : ∀ segments, AllCallOnly allowed segments → AllCallOnly allowed (f segments)) :
    (tree.update f).CallsOnly allowed := by
  obtain ⟨hroot, hopened⟩ := h
  obtain ⟨root, _ | ⟨block, outer⟩⟩ := tree
  · exact ⟨hf root hroot, hopened⟩
  · obtain ⟨hblock, houter⟩ := List.forall_mem_cons.mp hopened
    exact ⟨hroot, List.forall_mem_cons.mpr ⟨hblock.update hf, houter⟩⟩

theorem CallsOnly.add {tree : Tree} (h : tree.CallsOnly allowed) {segment : Segment}
    (hsegment : segment.CallsOnly allowed) : (tree.add segment).CallsOnly allowed :=
  h.update fun segments hsegments =>
    (allCallOnly_append segments [segment]).mpr ⟨hsegments, hsegment, trivial⟩

theorem allowed_of_helperCall (hregistry : ∀ entry ∈ registry.helpers, allowed entry.2)
    {content : String} {block : Bool} {line : Nat} {registered : Registered} {tag : HelperTag}
    (h : helperCall registry template content block line = .ok (some (registered, tag))) :
    allowed registered.helper :=
  hregistry _ (Registry.get?_eq_some (helperCall_eq_some h).1).2

theorem Change.callsOnly (hregistry : ∀ entry ∈ registry.helpers, allowed entry.2)
    {tree next : Tree} {item : Item} (h : Change (.accepted registry template) tree item next)
    (htree : tree.CallsOnly allowed) : next.CallsOnly allowed := by
  cases h with
  | text tree text line indent =>
    exact htree.update fun segments hsegments => Segment.allCallOnly_appendText hsegments text
  | delimiterChange tree opening closing line indent => exact htree
  | adds adds =>
    refine htree.add ?_
    cases adds with
    | comment content line indent => trivial
    | inclusion content line indent => trivial
    | output hkind helse hplain indent => trivial
    | call hkind helse hcall indent => exact ⟨allowed_of_helperCall hregistry hcall, trivial⟩
  | opens tree opens =>
    refine ⟨htree.root, List.forall_mem_cons.mpr ⟨⟨?_, trivial, by simp⟩, htree.opened⟩⟩
    cases opens with
    | plain hplain indent => trivial
    | inverted content line indent => trivial
    | helper hcall indent => exact allowed_of_helperCall hregistry hcall
  | divides root block outer hhelper hnone line indent =>
    obtain ⟨hroot, hopened⟩ := htree
    obtain ⟨⟨hopener, hbody, -⟩, houter⟩ := List.forall_mem_cons.mp hopened
    have hempty : ∀ elseBody ∈ some ([] : List Segment), AllCallOnly allowed elseBody := by
      rintro _ ⟨⟩
      trivial
    exact ⟨hroot, List.forall_mem_cons.mpr ⟨⟨hopener, hbody, hempty⟩, houter⟩⟩
  | closes root block outer line indent =>
    obtain ⟨hroot, hopened⟩ := htree
    obtain ⟨hblock, houter⟩ := List.forall_mem_cons.mp hopened
    have hrest : CallsOnly allowed ⟨root, outer⟩ := ⟨hroot, houter⟩
    exact hrest.add hblock.toSegment

theorem callsOnly_foldlM (hregistry : ∀ entry ∈ registry.helpers, allowed entry.2)
    {items : List Item} {tree last : Tree} (htree : tree.CallsOnly allowed)
    (h : items.foldlM (addItem registry template) tree = .ok last) : last.CallsOnly allowed :=
  invariant_of_foldlM h (fun _ current => current.CallsOnly allowed) htree
    fun _ _ _ _ _ hcurrent hchange => hchange.callsOnly hregistry hcurrent

end Tree

/-- A compiled template calls only helpers that its registry has. -/
theorem allCallOnly_of_compile {allowed : Helper → Prop} {options : CompileOptions}
    (hregistry : ∀ entry ∈ options.registry.helpers, allowed entry.2) {name source : String}
    {template : Template} (h : compile options name source = .ok template) :
    AllCallOnly allowed template.segments := by
  obtain ⟨-, tokens, -, htree⟩ := compile_eq_ok h
  have hempty : Tree.CallsOnly allowed {} := ⟨trivial, by simp⟩
  exact (Tree.callsOnly_foldlM hregistry hempty (Tree.ofItems_eq_ok htree)).root

/-- In sound stores, looking for a template finds one that calls only allowed helpers, and keeps the
store sound. -/
structure Setting.Provides {κ : Type} (setting : Setting κ) (allowed : Helper → Prop)
    (sound : κ → Prop) : Prop where
  keeps : ∀ name store, sound store → sound ((setting.find name).outcome store).2
  finds : ∀ name store template, sound store →
    ((setting.find name).outcome store).1 = .ok (some template) →
      AllCallOnly allowed template.segments

end Stencil
