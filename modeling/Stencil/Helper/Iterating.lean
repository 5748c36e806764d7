import Stencil.Helper

/-! Helpers that render a block under other scopes: one per element, or one in all. -/

namespace Stencil

/-- The named argument with the transform of the elements. -/
def applyKey : String := "apply"

namespace EachHelper

def transform? (call : Call) : Except Error (Option FunctionId) :=
  match call.named? applyKey with
  | none => .ok none
  | some (.function f) => .ok (some f)
  | some other => .error (.invalidHelperUsage call.tag.name (.notFunction applyKey other.kind))

/-- What an element is rendered as; nothing if the transform drops it. -/
def element? (transform : Option FunctionId) (element : Value) : HelperAction (Option Value) :=
  match transform with
  | none => pure (some element)
  | some f => do
    let answer ← HelperAction.apply f element
    pure (if answer.isSkip then none else some answer)

/-- Renders the block for the elements behind the first `before` of `size`; tells whether any block
was rendered. -/
def renderElements (transform : Option FunctionId) (size : Nat) :
    Nat → Bool → List Value → HelperAction Bool
  | _, rendered, [] => pure rendered
  | before, rendered, element :: later => do
    match ← element? transform element with
    | none => renderElements transform size (before + 1) rendered later
    | some value =>
      HelperAction.renderBodyUnder value (some ⟨before + 1, size⟩)
      renderElements transform size (before + 1) true later

def execute (call : Call) : HelperAction Unit := do
  let value := call.param 0
  match value.elements with
  | none =>
    throw (.invalidHelperUsage call.tag.name (.notIterable value.kind call.tag.line))
  | some elements =>
    let transform ← HelperAction.ofExcept (transform? call)
    let rendered ← renderElements transform elements.length 0 false elements
    if rendered then pure () else HelperAction.renderElse

end EachHelper

/-- `each` renders its block once per element that its transform keeps, and the part after `else` if
no block was rendered. -/
def eachHelper : Helper where
  supportedKeys := .only [applyKey]
  execute := EachHelper.execute

/-- `with` renders its block under a truthy value, and the part after `else` for a falsy one. -/
def withHelper : Helper where
  supportedKeys := .only []
  execute := fun call =>
    let value := call.param 0
    if value.isFalsy then HelperAction.renderElse
    else HelperAction.renderBodyUnder value none

end Stencil
