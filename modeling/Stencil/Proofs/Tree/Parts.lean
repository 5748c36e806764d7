import Stencil.Proofs.Tree.Calls

/-! The segments that stand in a template, at whatever depth. -/

namespace Stencil

namespace Segment

mutual

/-- A segment, and the segments that stand inside of it. -/
def parts : Segment → List Segment
  | .text s => [.text s]
  | .output name escaped line => [.output name escaped line]
  | .block name inverted body line => .block name inverted body line :: partsAll body
  | .inclusion name indent line => [.inclusion name indent line]
  | .invocation registered tag body none => .invocation registered tag body none :: partsAll body
  | .invocation registered tag body (some elseBody) =>
    .invocation registered tag body (some elseBody) :: (partsAll body ++ partsAll elseBody)
  | .comment => [.comment]

def partsAll : List Segment → List Segment
  | [] => []
  | segment :: later => parts segment ++ partsAll later

end

theorem mem_parts_self (segment : Segment) : segment ∈ segment.parts := by
  rcases segment with _ | _ | _ | _ | ⟨_, _, _, _ | _⟩ | _ <;> simp [parts]

mutual

theorem CallsOnly.of_mem_parts {allowed : Helper → Prop} {registered : Registered}
    {tag : HelperTag} {body : List Segment} {elseBody : Option (List Segment)} :
    ∀ {segment : Segment}, CallsOnly allowed segment →
      .invocation registered tag body elseBody ∈ segment.parts → allowed registered.helper
  | .text _, _, hmem => by simp [parts] at hmem
  | .output .., _, hmem => by simp [parts] at hmem
  | .block .., h, hmem => by
    rcases List.mem_cons.mp hmem with hself | hinner
    · cases hself
    · exact AllCallOnly.of_mem_parts h hinner
  | .inclusion .., _, hmem => by simp [parts] at hmem
  | .invocation _ _ _ none, h, hmem => by
    rcases List.mem_cons.mp hmem with hself | hinner
    · cases hself
      exact h.1
    · exact AllCallOnly.of_mem_parts h.2 hinner
  | .invocation _ _ _ (some _), h, hmem => by
    rcases List.mem_cons.mp hmem with hself | hinner
    · cases hself
      exact h.1
    · rcases List.mem_append.mp hinner with hbody | helse
      · exact AllCallOnly.of_mem_parts h.2.1 hbody
      · exact AllCallOnly.of_mem_parts h.2.2 helse
  | .comment, _, hmem => by simp [parts] at hmem

theorem AllCallOnly.of_mem_parts {allowed : Helper → Prop} {registered : Registered}
    {tag : HelperTag} {body : List Segment} {elseBody : Option (List Segment)} :
    ∀ {segments : List Segment}, AllCallOnly allowed segments →
      .invocation registered tag body elseBody ∈ partsAll segments → allowed registered.helper
  | _ :: _, h, hmem => by
    rcases List.mem_append.mp hmem with hfirst | hlater
    · exact CallsOnly.of_mem_parts h.1 hfirst
    · exact AllCallOnly.of_mem_parts h.2 hlater

end

end Segment

open Segment (partsAll)

def Template.parts (template : Template) : List Segment := partsAll template.segments

def Template.Includes (template : Template) (name : String) : Prop :=
  ∃ indent line, .inclusion name indent line ∈ template.parts

def Segment.BlankIndent : Segment → Prop
  | .inclusion _ indent _ => Text.allBlank indent.toList = true
  | _ => True

/-- Inclusions in these segments, at whatever depth, are indented by blanks only. -/
def BlankIndents (segments : List Segment) : Prop := ∀ part ∈ partsAll segments, part.BlankIndent

end Stencil
