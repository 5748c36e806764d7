import Stencil.Proofs.Engine.Blocks
import Stencil.Proofs.Rendering.HelperForms

/-! `unless` of a name is the inverted section of it, and `with` its section where the name stands
for no collection, from the source to the output. -/

namespace Stencil

open Render (segment)

namespace Engine

variable {ω σ : Type}

/-- The helper forms of a section agree with it. Anywhere in a template a call of `unless` with a
name and nothing else is the inverted section of the name, and a call of `with` its section where
the name stands for no collection. Sources that are one such block, with anything in between that
ends no part of it, compile with the same error or to templates with the same result and the same
state behind. -/
theorem helper_forms_agree (engine : Engine ω) (sink : Sink σ) {first second : Registered}
    (hunless : engine.registry.get? "unless" = some first) (hfirst : first.helper = unlessHelper)
    (hwith : engine.registry.get? "with" = some second) (hsecond : second.helper = withHelper) :
    (∀ deeper name tag body line state, tag.params = [.name name] → tag.named = [] →
      (segment engine.setting deeper sink (.invocation first tag body none)).outcome state =
        (segment engine.setting deeper sink (.block name true body line)).outcome state) ∧
    (∀ deeper name tag body line state, tag.params = [.name name] →
      engine.setting.naming.IsNoCollection name state.scope →
      (segment engine.setting deeper sink (.invocation second tag body none)).outcome state =
        (segment engine.setting deeper sink (.block name false body line)).outcome state) ∧
    ∀ name template source other inner line closeLine, Enclosed engine.registry inner →
      (HelperTag.read ("unless" ++ " " ++ name) true line =
          .ok (some (nameTag "unless" name line)) →
        tokenize template engine.config.delimiters source =
          .ok (.tag .opening ("unless" ++ " " ++ name) line ::
            (inner ++ [.tag .closing "unless" closeLine])) →
        tokenize template engine.config.delimiters other =
          .ok (.tag .inverted name line :: (inner ++ [.tag .closing name closeLine])) →
        Agree (engine.RendersAlikeIn sink fun _ => True) (engine.compileSource template source)
          (engine.compileSource template other)) ∧
      (HelperTag.read ("with" ++ " " ++ name) true line = .ok (some (nameTag "with" name line)) →
        engine.registry.contains (String.ofList (Text.firstWord name.toList)) = false →
        tokenize template engine.config.delimiters source =
          .ok (.tag .opening ("with" ++ " " ++ name) line ::
            (inner ++ [.tag .closing "with" closeLine])) →
        tokenize template engine.config.delimiters other =
          .ok (.tag .opening name line :: (inner ++ [.tag .closing name closeLine])) →
        Agree (engine.RendersAlikeIn sink (engine.setting.naming.IsNoCollection name))
          (engine.compileSource template source) (engine.compileSource template other)) := by
  obtain ⟨registry, called, helper⟩ := first
  obtain rfl : helper = unlessHelper := hfirst
  obtain ⟨registry', called', helper⟩ := second
  obtain rfl : helper = withHelper := hsecond
  refine ⟨?_, ?_, ?_⟩
  · intro deeper name tag body line state hparams hnamed
    exact Render.outcome_unless_eq_inverted hparams hnamed deeper sink registry called body line
      state
  · intro deeper name tag body line state hparams hplain
    exact Render.outcome_with_eq_plain hparams hplain deeper sink registry' called' body line
  · intro name template source other inner line closeLine hinner
    constructor
    · intro hread hsource hother
      have hword : Text.IsWord "unless".toList := by decide
      refine agree_of_blocks hinner hsource hother
        (addItem_nameTag hword hunless hread rfl template) rfl fun deeper body state _ => ?_
      exact (Render.outcome_unless_eq_inverted rfl rfl deeper sink registry called body line
        state).symm
    · intro hread hplain hsource hother
      have hword : Text.IsWord "with".toList := by decide
      refine agree_of_blocks hinner hsource hother (addItem_nameTag hword hwith hread rfl template)
        (addItem_section hplain template line) fun deeper body state hstate => ?_
      exact (Render.outcome_with_eq_plain rfl hstate deeper sink registry' called' body line).symm

def noticeEngine : Engine Unit := Setup.toEngine { registry := .builtin }

def noticeTokens : List Token :=
  [.literal "\n" 1, .tag .opening "if price" 2, .tag .escaped "price" 2, .tag .escaped "else" 2,
    .literal "ask" 2, .tag .closing "if" 2, .literal "\n" 2]

def noticeBlock (opening closing : String) : String :=
  "\x7b\x7b" ++ opening ++ "\x7d\x7d\n" ++
    "\x7b\x7b#if price\x7d\x7d\x7b\x7bprice\x7d\x7d\x7b\x7belse\x7d\x7dask\x7b\x7b/if\x7d\x7d\n" ++
    "\x7b\x7b" ++ closing ++ "\x7d\x7d"

def noticeScope : Scope := .ofRoot "notice" (.map [("owner", .map [("price", .string "9 & up")])])

theorem helper_forms_agree_notice :
    let textOf := fun source => (noticeEngine.compileSource "notice" source).map fun template =>
      ((noticeEngine.renderIn Sink.text template.segments).outcome
        ⟨noticeScope, noticeEngine.emptyStore (), ""⟩).2.output
    (Agree (noticeEngine.RendersAlikeIn Sink.text fun _ => True)
        (noticeEngine.compileSource "notice" (noticeBlock "#unless sold" "/unless"))
        (noticeEngine.compileSource "notice" (noticeBlock "^sold" "/sold")) ∧
      textOf (noticeBlock "#unless sold" "/unless") = .ok "ask\n" ∧
      textOf (noticeBlock "^sold" "/sold") = .ok "ask\n") ∧
    Agree (noticeEngine.RendersAlikeIn Sink.text
        (noticeEngine.setting.naming.IsNoCollection "owner"))
      (noticeEngine.compileSource "notice" (noticeBlock "#with owner" "/with"))
      (noticeEngine.compileSource "notice" (noticeBlock "#owner" "/owner")) ∧
    noticeEngine.setting.naming.IsNoCollection "owner" noticeScope ∧
    textOf (noticeBlock "#with owner" "/with") = .ok "9 &amp; up\n" ∧
    textOf (noticeBlock "#owner" "/owner") = .ok "9 &amp; up\n" := by
  intro textOf
  have hunless : noticeEngine.registry.get? "unless" = some ⟨0, "unless", unlessHelper⟩ := rfl
  have hwith : noticeEngine.registry.get? "with" = some ⟨0, "with", withHelper⟩ := rfl
  obtain ⟨-, -, hforms⟩ := noticeEngine.helper_forms_agree Sink.text hunless rfl hwith rfl
  have hinner : Enclosed noticeEngine.registry noticeTokens := ⟨by decide, by decide⟩
  refine ⟨⟨?_, by decide +kernel, by decide +kernel⟩, ?_, ?_, by decide +kernel, by decide +kernel⟩
  · exact (hforms "sold" "notice" (noticeBlock "#unless sold" "/unless")
      (noticeBlock "^sold" "/sold") noticeTokens 1 3 hinner).1 rfl (by decide +kernel)
      (by decide +kernel)
  · exact (hforms "owner" "notice" (noticeBlock "#with owner" "/with")
      (noticeBlock "#owner" "/owner") noticeTokens 1 3 hinner).2 rfl (by decide) (by decide +kernel)
      (by decide +kernel)
  · rintro value ⟨⟩
    rfl

end Engine

end Stencil
