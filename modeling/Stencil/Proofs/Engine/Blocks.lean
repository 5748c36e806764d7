import Stencil.Engine
import Stencil.Proofs.Effect
import Stencil.Proofs.Rendering.Recursion
import Stencil.Proofs.Tree.Enclosed

/-! Sources that are one block each. They fail alike or render alike if the two kinds of block do,
whatever stands between their tags. -/

namespace Stencil

open Render (segment)

def Naming.IsCollection (naming : Naming) (name : String) (scope : Scope) : Prop :=
  ∃ value elements, naming.resolve scope name = some value ∧ value.elements = some elements

/-- The name means nothing, or a value without elements. -/
def Naming.IsNoCollection (naming : Naming) (name : String) (scope : Scope) : Prop :=
  ∀ value, naming.resolve scope name = some value → value.elements = none

/-- What a block tag with the name of a helper and one other name is read as. -/
def nameTag (called name : String) (line : Nat) : HelperTag :=
  ⟨called, [.name name], [], true, line⟩

theorem addItem_nameTag {registry : Registry} {registered : Registered} {called name : String}
    {line : Nat} (hcalled : Text.IsWord called.toList)
    (hget : registry.get? called = some registered)
    (hread : HelperTag.read (called ++ " " ++ name) true line =
      .ok (some (nameTag called name line)))
    (hvalid : registered.helper.validate (nameTag called name line) = .ok ()) (template : String) :
    Tree.addItem registry template {} ⟨.tag .opening (called ++ " " ++ name) line, ""⟩ =
      .ok (Tree.openBlock {} (.helper registered (nameTag called name line)) called line) := by
  have hword : String.ofList (Text.firstWord (called ++ " " ++ name).toList) = called := by
    rw [Text.firstWord_eq, String.toList_append, String.toList_append, List.append_assoc]
    simp [Text.words_append_blank hcalled (show Text.isBlank ' ' = true by decide)]
  exact Tree.addItem_call (hword.symm ▸ hget) hread hvalid template

theorem addItem_section {registry : Registry} {name : String}
    (hplain : registry.contains (String.ofList (Text.firstWord name.toList)) = false)
    (template : String) (line : Nat) :
    Tree.addItem registry template {} ⟨.tag .opening name line, ""⟩ =
      .ok (Tree.openBlock {} (.plain false) name line) := by
  have hnone : registry.get? (String.ofList (Text.firstWord name.toList)) = none := by
    simpa [Registry.contains] using hplain
  simp only [Tree.addItem]
  rw [Tree.addTag_opening, Tree.helperCall, hnone]
  rfl

namespace Engine

variable {ω σ : Type}

/-- Wherever the scopes have a property two templates give the same result and leave the same
state. -/
def RendersAlikeIn (engine : Engine ω) (sink : Sink σ) (holds : Scope → Prop)
    (template other : Template) : Prop :=
  ∀ state, holds state.scope →
    (engine.renderIn sink other.segments).outcome state =
      (engine.renderIn sink template.segments).outcome state

/-- Two sources that are one block each, with the same tokens between their tags, fail alike or
render alike where the two kinds of block do. -/
theorem agree_of_blocks {engine : Engine ω} {sink : Sink σ} {holds : Scope → Prop}
    {inner : List Token} (hinner : Enclosed engine.registry inner) {template source other : String}
    {opening second : Token} {opener sectionOpener : Opener} {called name : String}
    {line closeLine : Nat}
    (hsource : tokenize template engine.config.delimiters source =
      .ok (opening :: (inner ++ [.tag .closing called closeLine])))
    (hother : tokenize template engine.config.delimiters other =
      .ok (second :: (inner ++ [.tag .closing name closeLine])))
    (hopening : Tree.addItem engine.registry template {} ⟨opening, ""⟩ =
      .ok (Tree.openBlock {} opener called line))
    (hsecond : Tree.addItem engine.registry template {} ⟨second, ""⟩ =
      .ok (Tree.openBlock {} sectionOpener name line))
    (h : ∀ deeper body state, holds state.scope →
      (segment engine.setting deeper sink
          (OpenBlock.toSegment { opener := sectionOpener, name, line, body })).outcome state =
        (segment engine.setting deeper sink
          (OpenBlock.toSegment { opener, name := called, line, body })).outcome state) :
    Agree (engine.RendersAlikeIn sink holds) (engine.compileSource template source)
      (engine.compileSource template other) := by
  obtain ⟨body, hbody⟩ := compile_block engine.compileOptions hinner template line closeLine
  rw [compileSource, compileSource, hbody source _ _ _ hsource hopening,
    hbody other _ _ _ hother hsecond]
  cases body with
  | error error => exact .error error
  | ok body =>
    refine .ok fun state hstate => ?_
    unfold renderIn
    rw [Render.outcome_all_singleton, Render.outcome_all_singleton]
    exact h _ body state hstate

end Engine

end Stencil
