import Stencil.Proofs.Engine.Blocks
import Stencil.Proofs.Rendering.Iterations

/-! `each` renders its block once for every element that its transform keeps, and without a
transform it is a section, from the source to the output. -/

namespace Stencil

open Render (segment segments rounds roundsOrElse askedFor invocationNoting)

/-- A call of `each` for some elements renders its block once for each that is kept, in their order
and each at its place among all, and the part after `else` if there are none. The transform is asked
for the elements in order, once for each up to the first whose block fails. -/
structure Iterates {κ σ : Type} (setting : Setting κ) (deeper : Option (Renderer κ)) (sink : Sink σ)
    (registered : Registered) (tag : HelperTag) (body : List Segment)
    (elseBody : Option (List Segment)) (transform : Option FunctionId) (elements : List Value)
    (state : Rendering κ σ) : Prop where
  rendered :
    (segment setting deeper sink (.invocation registered tag body elseBody)).outcome state =
      (roundsOrElse setting (segments setting deeper sink body)
        (segments setting deeper sink (elseBody.getD []))
        (setting.survivors transform elements.length 0 elements)).outcome state
  places : ∀ frame ∈ setting.survivors transform elements.length 0 elements,
    setting.IsRound transform elements frame
  asked : ∃ count ≤ elements.length,
    (invocationNoting setting sink registered.helper tag elseBody.isSome
        (segments setting deeper sink body)
        (segments setting deeper sink (elseBody.getD []))).outcome state =
      (.ok (((segment setting deeper sink (.invocation registered tag body elseBody)).outcome
            state).1, askedFor transform (elements.take count)),
        ((segment setting deeper sink (.invocation registered tag body elseBody)).outcome
          state).2) ∧
    ∀ k < elements.length, k < count ↔
      ((rounds setting (segments setting deeper sink body)
        (setting.survivors transform elements.length 0 (elements.take k))).outcome state).1 = .ok ()

theorem iterates_of_elements {κ σ : Type} {setting : Setting κ} {sink : Sink σ}
    {registered : Registered} (heach : registered.helper = eachHelper) {tag : HelperTag}
    {elseBody : Option (List Segment)} {transform : Option FunctionId} {elements : List Value}
    {state : Rendering κ σ}
    (helements : ((Render.callOf setting state.scope tag elseBody.isSome).param 0).elements =
      some elements)
    (htransform : (Render.callOf setting state.scope tag elseBody.isSome).named? applyKey =
      transform.map Value.function)
    (deeper : Option (Renderer κ)) (body : List Segment) :
    Iterates setting deeper sink registered tag body elseBody transform elements state := by
  obtain ⟨registry, name, helper⟩ := registered
  obtain rfl : helper = eachHelper := heach
  have hcall : Render.Notes setting sink (segments setting deeper sink body)
      (segments setting deeper sink (elseBody.getD []))
      (eachHelper.execute (Render.callOf setting state.scope tag elseBody.isSome)) state _ _ _ :=
    Render.notes_execute helements htransform rfl
  obtain ⟨hnoting, hplain⟩ := Render.outcome_invocationNoting sink eachHelper tag elseBody.isSome
    (segments setting deeper sink body) (segments setting deeper sink (elseBody.getD [])) hcall
  rw [← Render.segment_invocation setting deeper sink ⟨registry, name, eachHelper⟩] at hplain
  refine ⟨hplain, fun frame => Setting.isRound_of_mem_survivors, _,
    Render.reached_le 0 elements state, ?_, fun k hk => Render.lt_reached_iff hk state⟩
  rw [hplain]
  exact hnoting

/-- `each` iterates the elements that its transform keeps, for any body, part after `else`,
transform and state. Without a transform it is a section: a source that is one `each` block of a
name that is not a helper's, and the source with a section of that name instead, compile with the
same error or to templates that give the same result and leave the same state wherever the name
stands for a collection. -/
theorem Engine.each_iterates_survivors {ω σ : Type} (engine : Engine ω) (sink : Sink σ)
    {registered : Registered} (hget : engine.registry.get? "each" = some registered)
    (heach : registered.helper = eachHelper) :
    (∀ deeper tag body elseBody transform elements state,
      ((Render.callOf engine.setting state.scope tag elseBody.isSome).param 0).elements =
        some elements →
      (Render.callOf engine.setting state.scope tag elseBody.isSome).named? applyKey =
        transform.map Value.function →
      Iterates engine.setting deeper sink registered tag body elseBody transform elements state) ∧
    ∀ name template source other inner line closeLine,
      HelperTag.read ("each" ++ " " ++ name) true line = .ok (some (nameTag "each" name line)) →
      engine.registry.contains (String.ofList (Text.firstWord name.toList)) = false →
      Enclosed engine.registry inner →
      tokenize template engine.config.delimiters source =
        .ok (.tag .opening ("each" ++ " " ++ name) line ::
          (inner ++ [.tag .closing "each" closeLine])) →
      tokenize template engine.config.delimiters other =
        .ok (.tag .opening name line :: (inner ++ [.tag .closing name closeLine])) →
      Agree (engine.RendersAlikeIn sink (engine.setting.naming.IsCollection name))
        (engine.compileSource template source) (engine.compileSource template other) := by
  constructor
  · intro deeper tag body elseBody transform elements state helements htransform
    exact iterates_of_elements heach helements htransform deeper body
  · intro name template source other inner line closeLine hread hplain hinner hsource hother
    obtain ⟨registry, called, helper⟩ := registered
    obtain rfl : helper = eachHelper := heach
    have hword : Text.IsWord "each".toList := by decide
    refine Engine.agree_of_blocks hinner hsource hother
      (addItem_nameTag hword hget hread rfl template) (addItem_section hplain template line) ?_
    rintro deeper body state ⟨value, elements, hvalue, helements⟩
    exact (Render.outcome_invocation_eq_plainBlock rfl rfl hvalue helements sink _).symm

def guestEngine : Engine Unit := Setup.toEngine {
  registry := .builtin
  transform := fun _ guest => match guest with
    | .string "Bob" => .skip
    | _ => guest }

def guestTag : HelperTag := ⟨"each", [.name "guests"], [("apply", .name "invited")], true, 1⟩

def guests : List Value := [.string "Ada", .string "Bob", .string "Cy"]

def guestState : Rendering (Store Unit) String :=
  ⟨.ofRoot "party" (.map [("guests", .list guests), ("invited", .function ⟨0⟩)]),
    guestEngine.emptyStore (), ""⟩

def guestTokens : List Token :=
  [.literal "\n" 1, .tag .opening "if iter.hasNext" 2, .tag .escaped "." 2, .literal ", " 2,
    .tag .escaped "else" 2, .tag .escaped "." 2, .tag .closing "if" 2, .literal "\n" 2]

def guestText : String :=
  "\n\x7b\x7b#if iter.hasNext\x7d\x7d\x7b\x7b.\x7d\x7d, \x7b\x7belse\x7d\x7d" ++
    "\x7b\x7b.\x7d\x7d\x7b\x7b/if\x7d\x7d\n"

def guestBlock : String :=
  "\x7b\x7b#each guests\x7d\x7d" ++ guestText ++ "\x7b\x7b/each\x7d\x7d"

def guestSection : String :=
  "\x7b\x7b#guests\x7d\x7d" ++ guestText ++ "\x7b\x7b/guests\x7d\x7d"

theorem Engine.each_iterates_survivors_guests :
    let call : Segment := .invocation ⟨0, "each", eachHelper⟩ guestTag [.output "." true 1]
      (some [.text "nobody"])
    let textOf := fun source => (guestEngine.compileSource "party" source).map fun template =>
      ((guestEngine.renderIn Sink.text template.segments).outcome guestState).2.output
    guestEngine.setting.survivors (some ⟨0⟩) 3 0 guests =
        [⟨.string "Ada", some ⟨1, 3⟩⟩, ⟨.string "Cy", some ⟨3, 3⟩⟩] ∧
      Iterates guestEngine.setting none Sink.text ⟨0, "each", eachHelper⟩ guestTag
        [.output "." true 1] (some [.text "nobody"]) (some ⟨0⟩) guests guestState ∧
      ((segment guestEngine.setting none Sink.text call).outcome guestState).2.output = "AdaCy" ∧
      Agree (guestEngine.RendersAlikeIn Sink.text
          (guestEngine.setting.naming.IsCollection "guests"))
        (guestEngine.compileSource "party" guestBlock)
        (guestEngine.compileSource "party" guestSection) ∧
      guestEngine.setting.naming.IsCollection "guests" guestState.scope ∧
      textOf guestBlock = .ok "Ada, \nBob, \nCy\n" ∧
      textOf guestSection = .ok "Ada, \nBob, \nCy\n" := by
  intro call textOf
  have hget : guestEngine.registry.get? "each" = some ⟨0, "each", eachHelper⟩ := rfl
  obtain ⟨hiterates, hsection⟩ := guestEngine.each_iterates_survivors Sink.text hget rfl
  have hinner : Enclosed guestEngine.registry guestTokens := ⟨by decide, by decide⟩
  have hblock : tokenize "party" guestEngine.config.delimiters guestBlock =
      .ok (.tag .opening ("each" ++ " " ++ "guests") 1 ::
        (guestTokens ++ [.tag .closing "each" 3])) := by
    decide +kernel
  have hother : tokenize "party" guestEngine.config.delimiters guestSection =
      .ok (.tag .opening "guests" 1 :: (guestTokens ++ [.tag .closing "guests" 3])) := by
    decide +kernel
  refine ⟨rfl, hiterates _ _ _ _ _ _ _ rfl rfl, by decide +kernel, ?_, ⟨_, _, rfl, rfl⟩,
    by decide +kernel, by decide +kernel⟩
  exact hsection "guests" "party" guestBlock guestSection guestTokens 1 3 rfl (by decide) hinner
    hblock hother

end Stencil
