import Stencil.Error
import Stencil.Iteration

/-! What a helper may do: a tree of requests to the renderer, each with what follows its answer. -/

namespace Stencil

inductive Script (α : Type) where
  | done (result : α)
  | push (value : Value) (position : Option Iteration) (next : Except Error Unit → Script α)
  /-- Pops a scope that this helper pushed, if one is left. -/
  | pop (next : Option Value → Script α)
  | renderBody (next : Except Error Unit → Script α)
  /-- Renders the part after `else`, if there is one. -/
  | renderElse (next : Except Error Unit → Script α)
  | append (text : String) (next : Except Error Unit → Script α)
  | peek (next : Value → Script α)
  | resolve (name : String) (next : Option Value → Script α)
  /-- Asks the host for the answer of a transform. -/
  | apply (function : FunctionId) (argument : Value) (next : Value → Script α)

namespace Script

def bind {α β : Type} (script : Script α) (rest : α → Script β) : Script β :=
  match script with
  | .done result => rest result
  | .push value position next => .push value position fun answer => (next answer).bind rest
  | .pop next => .pop fun answer => (next answer).bind rest
  | .renderBody next => .renderBody fun answer => (next answer).bind rest
  | .renderElse next => .renderElse fun answer => (next answer).bind rest
  | .append text next => .append text fun answer => (next answer).bind rest
  | .peek next => .peek fun answer => (next answer).bind rest
  | .resolve name next => .resolve name fun answer => (next answer).bind rest
  | .apply function argument next => .apply function argument fun answer => (next answer).bind rest

instance : Monad Script where
  pure := .done
  bind := bind

end Script

/-- The actions of a helper, which end at the first error that is not handled. -/
abbrev HelperAction := ExceptT Error Script

namespace HelperAction

def push (value : Value) (position : Option Iteration) : HelperAction Unit :=
  ExceptT.mk (.push value position .done)

def pop : HelperAction (Option Value) := ExceptT.mk (.pop fun value => .done (.ok value))

def renderBody : HelperAction Unit := ExceptT.mk (.renderBody .done)

def renderElse : HelperAction Unit := ExceptT.mk (.renderElse .done)

def append (text : String) : HelperAction Unit := ExceptT.mk (.append text .done)

def peek : HelperAction Value := ExceptT.mk (.peek fun value => .done (.ok value))

def resolve (name : String) : HelperAction (Option Value) :=
  ExceptT.mk (.resolve name fun value => .done (.ok value))

def apply (function : FunctionId) (argument : Value) : HelperAction Value :=
  ExceptT.mk (.apply function argument fun value => .done (.ok value))

def ofExcept {α : Type} (result : Except Error α) : HelperAction α := ExceptT.mk (.done result)

/-- Renders the body under one more scope, which is popped whether the body fails or not. -/
def renderBodyUnder (value : Value) (position : Option Iteration) : HelperAction Unit := do
  push value position
  let rendered ← ExceptT.mk (.renderBody fun answer => .done (.ok answer))
  let _ ← pop
  ofExcept rendered

end HelperAction

end Stencil
