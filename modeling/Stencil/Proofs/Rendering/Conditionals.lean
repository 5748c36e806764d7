import Stencil.Proofs.Helper.Conditional
import Stencil.Proofs.Helper.Discretion
import Stencil.Proofs.Rendering.Calls

/-! A call of a conditional helper renders exactly one of its parts: the block if its decision is
true, and otherwise the part after `else`, or without one the text of its `else` argument as it
is. -/

namespace Stencil

namespace Render

variable {κ σ : Type}

/-- The part of a block that is rendered by a decision; `fallback` is the value whose text stands in
for a missing part after `else`. -/
def branch (setting : Setting κ) (deeper : Option (Renderer κ)) (sink : Sink σ)
    (body : List Segment) (elseBody : Option (List Segment)) (fallback : Option Value)
    (decision : Bool) : Render κ σ Unit :=
  match decision, elseBody, fallback with
  | true, _, _ => segments setting deeper sink body
  | false, some other, _ => segments setting deeper sink other
  | false, none, some value => write sink value.text
  | false, none, none => pure ()

theorem outcome_decided (setting : Setting κ) (deeper : Option (Renderer κ)) (sink : Sink σ)
    (body : List Segment) {elseBody : Option (List Segment)} {call : Call}
    (helse : call.hasElse = elseBody.isSome) (decision : Bool) (state : Rendering κ σ) :
    let chosen :=
      branch setting deeper sink body elseBody (call.named? Conditional.elseKey) decision
    (runScript setting sink (segments setting deeper sink body)
        (segments setting deeper sink (elseBody.getD [])) 0
        (Conditional.decided call decision).run).outcome state =
      (.ok ((chosen.outcome state).1, 0), (chosen.outcome state).2) := by
  intro chosen
  rw [Conditional.decided, helse]
  cases decision with
  | true => exact outcome_runScript_request rfl state
  | false =>
    cases elseBody with
    | some other => exact outcome_runScript_request rfl state
    | none =>
      simp only [chosen]
      cases call.named? Conditional.elseKey with
      | some value => exact outcome_runScript_request rfl state
      | none => rfl

/-- A call of a conditional helper renders the branch that it decides for. -/
theorem outcome_segment_conditional (setting : Setting κ) (deeper : Option (Renderer κ))
    (sink : Sink σ) (c : Conditional) (registry : Nat) (name : String) (tag : HelperTag)
    (body : List Segment) (elseBody : Option (List Segment)) (state : Rendering κ σ) :
    let call := callOf setting state.scope tag elseBody.isSome
    (segment setting deeper sink
        (.invocation ⟨registry, name, c.toHelper⟩ tag body elseBody)).outcome state =
      (branch setting deeper sink body elseBody (call.named? Conditional.elseKey)
        (c.decision call state.scope.peek)).outcome state := by
  intro call
  let chosen := branch setting deeper sink body elseBody (call.named? Conditional.elseKey)
    (c.decision call state.scope.peek)
  have hexecute : (c.toHelper.execute call).run =
      .peek fun top => (Conditional.decided call (c.decision call top)).run :=
    Conditional.run_execute c call
  have hrun : (runScript setting sink (segments setting deeper sink body)
      (segments setting deeper sink (elseBody.getD [])) 0
      (c.toHelper.execute call).run).outcome state =
        (.ok ((chosen.outcome state).1, 0), (chosen.outcome state).2) := by
    have helse : call.hasElse = elseBody.isSome := rfl
    rw [hexecute]
    exact outcome_decided setting deeper sink body helse (c.decision call state.scope.peek) state
  have hcall := outcome_invocation hrun
  rw [segment_invocation]
  exact hcall

end Render

namespace Conditional

def truthy : Conditional := { isMatch := Value.isTruthy }

def falsy : Conditional := { isMatch := Value.isFalsy }

/-- A conditional helper decides by its logic and renders exactly one branch, for any test, default
logic, parameters, named arguments and scopes. So for the same parameters, or for none, `unless`
matches under one logic exactly when `if` does not match under the other. -/
theorem renders_one_branch :
    (∀ (c : Conditional) (call : Call) (top : Value), c.DecidesByLogic call top) ∧
    (∀ {κ σ : Type} (setting : Setting κ) (deeper : Option (Renderer κ)) (sink : Sink σ)
      (c : Conditional) (registry : Nat) (name : String) (tag : HelperTag) (body : List Segment)
      (elseBody : Option (List Segment)) (state : Rendering κ σ),
      let call := Render.callOf setting state.scope tag elseBody.isSome
      (Render.segment setting deeper sink
          (.invocation ⟨registry, name, c.toHelper⟩ tag body elseBody)).outcome state =
        (Render.branch setting deeper sink body elseBody (call.named? elseKey)
          (c.decision call state.scope.peek)).outcome state) ∧
    ifHelper = truthy.toHelper ∧ unlessHelper = falsy.toHelper ∧
    ∀ (call other : Call) (top : Value), other.params = call.params →
      (truthy.Under call .or → falsy.Under other .and →
        falsy.decision other top = !truthy.decision call top) ∧
      (truthy.Under call .and → falsy.Under other .or →
        falsy.decision other top = !truthy.decision call top) := by
  refine ⟨decidesByLogic, ?_, rfl, rfl, fun call other top hparams => ⟨?_, ?_⟩⟩
  · intro κ σ setting deeper sink c registry name tag body elseBody state
    exact Render.outcome_segment_conditional setting deeper sink c registry name tag body elseBody
      state
  · intro hor hand
    exact decision_opposite (fun v => rfl) hparams hor hand top
  · intro hand hor
    have hopposite : ∀ v, truthy.isMatch v = !falsy.isMatch v := fun v => (Bool.not_not _).symm
    rw [decision_opposite hopposite hparams.symm hor hand top, Bool.not_not]

def menuSetting : Setting Unit where
  config := {}
  resolvers := .standard
  transform _ value := value
  find _ := pure none

def menuScope : Scope := .ofRoot "menu" (.map [("vegan", .bool false), ("raw", .string "raw")])

def menuTag (logic : String) : HelperTag where
  name := "menu"
  params := [.name "vegan", .name "raw", .name "hot"]
  named := [(elseKey, .literal (.string "ask <us>")), (logicKey, .literal (.string logic))]
  block := true
  line := 1

def menuCall (logic : String) : Call := Render.callOf menuSetting menuScope (menuTag logic) false

def menuText (c : Conditional) (logic : String) : String :=
  let call : Segment := .invocation ⟨0, "menu", c.toHelper⟩ (menuTag logic) [.text "a few"] none
  ((Render.segment menuSetting none Sink.text call).outcome ⟨menuScope, (), ""⟩).2.output

theorem renders_one_branch_menu :
    truthy.Under (menuCall "oR") .or ∧ falsy.Under (menuCall "xor") .and ∧
      truthy.decision (menuCall "oR") menuScope.peek = true ∧
      falsy.decision (menuCall "xor") menuScope.peek = false ∧
      Id.run ((truthy.decisionBy (Logic.noting Value.isTruthy) (menuCall "oR")
        menuScope.peek).run []) = (true, [.bool false, .string "raw"]) ∧
      menuText truthy "oR" = "a few" ∧ menuText falsy "xor" = "ask <us>" := by
  obtain ⟨hdecides, hrenders, -, -, hopposite⟩ := renders_one_branch
  have hor : truthy.Under (menuCall "oR") .or := .named rfl (by decide)
  have hand : falsy.Under (menuCall "xor") .and := by
    refine .default fun value hvalue logic => ?_
    cases hvalue
    cases logic <;> decide
  have hmatches : truthy.decision (menuCall "oR") menuScope.peek = true :=
    (hdecides truthy (menuCall "oR") menuScope.peek).any (List.cons_ne_nil _ _) hor
  have hmisses : falsy.decision (menuCall "xor") menuScope.peek = false := by
    rw [(hopposite (menuCall "oR") (menuCall "xor") menuScope.peek rfl).1 hor hand, hmatches]
    rfl
  have hasked := (hdecides truthy (menuCall "oR") menuScope.peek).asked .or hor
  rw [hmatches] at hasked
  have htext (c : Conditional) (logic : String) : menuText c logic =
      ((Render.branch menuSetting none Sink.text [.text "a few"] none
        (some (.string "ask <us>")) (c.decision (menuCall logic) menuScope.peek)).outcome
        ⟨menuScope, (), ""⟩).2.output := by
    rw [menuText, hrenders]
    rfl
  refine ⟨hor, hand, hmatches, hmisses, hasked, ?_, ?_⟩
  · rw [htext, hmatches]
    rfl
  · rw [htext, hmisses]
    rfl

end Conditional

end Stencil
