import Stencil.Render

/-! What a call gives back, by the run of its script. -/

namespace Stencil.Render

variable {κ σ : Type} {setting : Setting κ} {sink : Sink σ} {body elseBody : Render κ σ Unit}

theorem segment_invocation (setting : Setting κ) (deeper : Option (Renderer κ)) (sink : Sink σ)
    (registered : Registered) (tag : HelperTag) (body : List Segment)
    (elseBody : Option (List Segment)) :
    segment setting deeper sink (.invocation registered tag body elseBody) =
      invocation setting sink registered.helper tag elseBody.isSome
        (segments setting deeper sink body)
        (segments setting deeper sink (elseBody.getD [])) := by
  cases elseBody <;> rfl

/-- A call is one run of its script for the arguments that it finds in scope, behind which the
scopes that are left of its own are closed. -/
theorem outcome_invocation {helper : Helper} {tag : HelperTag} {hasElse : Bool}
    {state last : Rendering κ σ} {result : Except Error Unit} {pushed : Nat}
    (h : (runScript setting sink body elseBody 0
      (helper.execute (callOf setting state.scope tag hasElse)).run).outcome state =
        (.ok (result, pushed), last)) :
    (invocation setting sink helper tag hasElse body elseBody).outcome state =
      (result, { last with scope := last.scope.drop pushed }) := by
  have hask {β : Type} (rest : Call → Render κ σ β) :
      ((ask fun state => callOf setting state.scope tag hasElse) >>= rest).outcome state =
        (rest (callOf setting state.scope tag hasElse)).outcome state := rfl
  rw [invocation, hask, outcome_bind, h]
  rfl

/-- A script that only makes one request ends with the answer. -/
theorem outcome_runScript_request {action : Render κ σ Unit} {request : HelperAction Unit}
    (h : runScript setting sink body elseBody 0 request.run =
      (do pure (← action.attempt, 0) : Render κ σ (Except Error Unit × Nat)))
    (state : Rendering κ σ) :
    (runScript setting sink body elseBody 0 request.run).outcome state =
      (.ok ((action.outcome state).1, 0), (action.outcome state).2) := by
  rw [h, outcome_bind, outcome_attempt]
  rfl

end Stencil.Render
