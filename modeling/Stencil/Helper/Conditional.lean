import Stencil.Helper

/-! Helpers that render a block if their parameters match a predicate. -/

namespace Stencil

/-- How the matches of several parameters combine. -/
inductive Logic where
  | and
  | or
deriving DecidableEq

namespace Logic

def read? (text : String) : Option Logic :=
  let folded := text.toList.map Char.toLower
  if folded = "and".toList then some .and
  else if folded = "or".toList then some .or
  else none

/-- The result that one match settles, if it settles one. -/
def decides : Logic → Bool → Option Bool
  | .and, false => some false
  | .or, true => some true
  | _, _ => none

def default : Logic → Bool
  | .and => true
  | .or => false

section

variable {α : Type} {m : Type → Type} [Monad m]

/-- Tests values in order up to the first that settles the result; a test may have effects. -/
def evaluateBy (logic : Logic) (test : α → m Bool) : List α → m Bool
  | [] => pure logic.default
  | v :: later => do
    match logic.decides (← test v) with
    | some result => pure result
    | none => evaluateBy logic test later

end

def evaluate {α : Type} (logic : Logic) (isMatch : α → Bool) (values : List α) : Bool :=
  Id.run (logic.evaluateBy (fun v => pure (isMatch v)) values)

/-- A test that notes what it is asked for. -/
def noting {α : Type} (isMatch : α → Bool) (a : α) : StateM (List α) Bool := do
  modify (· ++ [a])
  pure (isMatch a)

/-- The values that evaluating asks for. -/
def tested {α : Type} (logic : Logic) (isMatch : α → Bool) (values : List α) : List α :=
  (Id.run ((logic.evaluateBy (noting isMatch) values).run [])).2

end Logic

/-- A predicate on values and how a helper made of it reads its parameters. -/
structure Conditional where
  isMatch : Value → Bool
  defaultLogic : Logic := .and
  /-- Without parameters the value of the innermost scope is tested. -/
  allowsNoParams : Bool := true

namespace Conditional

def logicKey : String := "logic"

/-- The named argument with the text for the case that nothing else is rendered. -/
def elseKey : String := "else"

/-- The logic that a call names, or the default if it names none or an unknown one. -/
def logic (c : Conditional) (call : Call) : Logic :=
  match call.named? logicKey with
  | none => c.defaultLogic
  | some value => (Logic.read? value.text).getD c.defaultLogic

/-- Decides a call under the innermost value `top` by a test that may have effects. -/
def decisionBy {m : Type → Type} [Monad m] (c : Conditional) (test : Value → m Bool) (call : Call)
    (top : Value) : m Bool :=
  match call.params with
  | [] => test top
  | [single] => test single
  | several => (c.logic call).evaluateBy test several

def decision (c : Conditional) (call : Call) (top : Value) : Bool :=
  Id.run (c.decisionBy (fun v => pure (c.isMatch v)) call top)

def execute (c : Conditional) (call : Call) : HelperAction Unit := do
  if c.decision call (← HelperAction.peek) then
    HelperAction.renderBody
  else if call.hasElse then
    HelperAction.renderElse
  else
    match call.named? elseKey with
    | some value => HelperAction.append value.text
    | none => pure ()

def toHelper (c : Conditional) : Helper where
  requiredParams := if c.allowsNoParams then 0 else 1
  supportedKeys := .only [logicKey, elseKey]
  execute := c.execute

end Conditional

def ifHelper : Helper := Conditional.toHelper { isMatch := Value.isTruthy }

def unlessHelper : Helper := Conditional.toHelper { isMatch := Value.isFalsy }

end Stencil
