import Stencil.Proofs.Rendering.Conditionals
import Stencil.Proofs.Rendering.Iterations

/-! Calls of `unless` and `with` that are sections in other words: `unless` of a name is the
inverted section of that name, and `with` of a name its section where it stands for no
collection. -/

namespace Stencil.Render

variable {κ σ : Type} {setting : Setting κ} {name : String} {tag : HelperTag}

/-- A call of `unless` with nothing but a name is the inverted section of that name. -/
theorem outcome_unless_eq_inverted (hparams : tag.params = [.name name]) (hnamed : tag.named = [])
    (deeper : Option (Renderer κ)) (sink : Sink σ) (registry : Nat) (called : String)
    (body : List Segment) (line : Nat) (state : Rendering κ σ) :
    (segment setting deeper sink
        (.invocation ⟨registry, called, unlessHelper⟩ tag body none)).outcome state =
      (segment setting deeper sink (.block name true body line)).outcome state := by
  have hcall := outcome_segment_conditional setting deeper sink Conditional.falsy registry called
    tag body none state
  have hdecision : Conditional.falsy.decision (callOf setting state.scope tag false)
      state.scope.peek = (setting.naming.resolve state.scope name).all Value.isFalsy := by
    simp only [Conditional.decision, Conditional.decisionBy, callOf, hparams, List.map_cons,
      List.map_nil, Naming.evaluate]
    cases setting.naming.resolve state.scope name <;> rfl
  have hfallback : (callOf setting state.scope tag false).named? Conditional.elseKey = none := by
    simp [callOf, Call.named?, hnamed]
  simp only [Option.isSome_none, hdecision, hfallback] at hcall
  refine hcall.trans ?_
  rw [segment, invertedBlock, outcome_resolve_bind]
  cases (setting.naming.resolve state.scope name).all Value.isFalsy <;> rfl

/-- A call of `with` with nothing but a name is the section of that name, unless it stands for a
collection. -/
theorem outcome_with_eq_plain (hparams : tag.params = [.name name]) {state : Rendering κ σ}
    (hplain : ∀ value, setting.naming.resolve state.scope name = some value → value.elements = none)
    (deeper : Option (Renderer κ)) (sink : Sink σ) (registry : Nat) (called : String)
    (body : List Segment) (line : Nat) :
    (segment setting deeper sink
        (.invocation ⟨registry, called, withHelper⟩ tag body none)).outcome state =
      (segment setting deeper sink (.block name false body line)).outcome state := by
  let call := callOf setting state.scope tag false
  let rendered := segments setting deeper sink body
  have hparam : call.param 0 = (setting.naming.resolve state.scope name).getD .null := by
    simp [call, callOf, Call.param, hparams, Naming.evaluate]
  have hexecute : withHelper.execute call =
      if (call.param 0).isFalsy then HelperAction.renderElse
      else HelperAction.renderBodyUnder (call.param 0) none := rfl
  have hnotes : Notes setting sink rendered (pure ()) (withHelper.execute call) state
      ((plainBlock setting name rendered).outcome state).1 []
      ((plainBlock setting name rendered).outcome state).2 := by
    rw [hexecute, hparam, plainBlock, outcome_resolve_bind]
    cases hvalue : setting.naming.resolve state.scope name with
    | none => exact notes_renderElse state
    | some value =>
      rw [Option.getD_some, Value.isFalsy]
      cases htruth : value.isTruthy with
      | false =>
        simp only [hplain value hvalue, htruth]
        exact notes_renderElse state
      | true =>
        simp only [hplain value hvalue, htruth]
        exact notes_renderBodyUnder value none state
  exact (outcome_invocationNoting sink withHelper tag false rendered (pure ()) hnotes).2

end Stencil.Render
