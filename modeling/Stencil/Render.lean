import Stencil.Config
import Stencil.Effect
import Stencil.Scope
import Stencil.Segment
import Stencil.Sink
import Stencil.Text.Escape

/-! Rendering compiled templates. What a section or a helper opens it closes again, also on an
error, and inclusions nest no deeper than the limit, which bounds the recursion. -/

namespace Stencil

/-- What rendering needs to know: settings, strategies for lookups, the transforms of the host, and
where included templates come from. -/
structure Setting (κ : Type) where
  config : Config
  resolvers : Chain
  transform : FunctionId → Value → Value
  find : String → Effect κ (Option Template)

def Setting.naming {κ : Type} (setting : Setting κ) : Naming :=
  ⟨setting.config.iterationAlias, setting.resolvers⟩

structure Rendering (κ σ : Type) where
  scope : Scope
  store : κ
  output : σ

/-- A rendering as the steps it takes: each looks at the state, may change it, and gives an answer
to go on with. -/
inductive Render (κ σ α : Type) : Type 1 where
  | done (result : Except Error α)
  | step {β : Type} (act : Rendering κ σ → β × Rendering κ σ) (next : β → Render κ σ α)

abbrev Renderer (κ : Type) := (σ : Type) → Sink σ → List Segment → Render κ σ Unit

namespace Render

variable {κ σ α β : Type}

def outcome : Render κ σ α → Rendering κ σ → Except Error α × Rendering κ σ
  | .done result, state => (result, state)
  | .step act next, state =>
    let (answer, changed) := act state
    (next answer).outcome changed

/-- What follows a rendering is done with its result, or not at all. -/
def bind : Render κ σ α → (α → Render κ σ β) → Render κ σ β
  | .done (.ok a), rest => rest a
  | .done (.error error), _ => .done (.error error)
  | .step act next, rest => .step act fun answer => (next answer).bind rest

instance : Monad (Render κ σ) where
  pure a := .done (.ok a)
  bind := bind

def ofExcept (result : Except Error α) : Render κ σ α := .done result

def fail (error : Error) : Render κ σ α := .done (.error error)

/-- Goes on with the result of a rendering, also if it is an error. -/
def attempt : Render κ σ α → Render κ σ (Except Error α)
  | .done result => .done (.ok result)
  | .step act next => .step act fun answer => (next answer).attempt

def ask (f : Rendering κ σ → α) : Render κ σ α := .step (fun state => (f state, state)) pure

def changeScope (f : Scope → Scope) : Render κ σ Unit :=
  .step (fun state => ((), { state with scope := f state.scope })) pure

/-- Renders, then changes the open scopes whether the rendering failed or not. -/
def andFinally (action : Render κ σ α) (f : Scope → Scope) : Render κ σ α := do
  let result ← action.attempt
  changeScope f
  ofExcept result

@[simp] theorem outcome_done (result : Except Error α) (state : Rendering κ σ) :
    (done result : Render κ σ α).outcome state = (result, state) := rfl

@[simp] theorem outcome_step (act : Rendering κ σ → β × Rendering κ σ) (next : β → Render κ σ α)
    (state : Rendering κ σ) :
    (step act next).outcome state = (next (act state).1).outcome (act state).2 := rfl

@[simp] theorem outcome_pure (a : α) (state : Rendering κ σ) :
    (pure a : Render κ σ α).outcome state = (.ok a, state) := rfl

/-- What follows a rendering is done in the state behind it, or not at all. -/
theorem outcome_bind (action : Render κ σ α) (rest : α → Render κ σ β) (state : Rendering κ σ) :
    (action >>= rest).outcome state =
      match action.outcome state with
      | (.ok a, changed) => (rest a).outcome changed
      | (.error error, changed) => (.error error, changed) := by
  induction action generalizing state with
  | done result => cases result <;> rfl
  | step act next ih => exact ih _ _

theorem outcome_attempt (action : Render κ σ α) (state : Rendering κ σ) :
    action.attempt.outcome state = (.ok (action.outcome state).1, (action.outcome state).2) := by
  induction action generalizing state with
  | done result => rfl
  | step act next ih => exact ih _ _

theorem outcome_andFinally (action : Render κ σ α) (f : Scope → Scope) (state : Rendering κ σ) :
    (action.andFinally f).outcome state =
      ((action.outcome state).1,
        { (action.outcome state).2 with scope := f (action.outcome state).2.scope }) := by
  simp only [andFinally, outcome_bind, outcome_attempt]
  rfl

def write (sink : Sink σ) (text : String) : Render κ σ Unit :=
  .step
    (fun state =>
      let (taken, output) := sink.write text state.output
      (taken, { state with output }))
    fun taken => .done (if taken then .ok () else .error .write)

def writeAll (sink : Sink σ) : List String → Render κ σ Unit
  | [] => pure ()
  | text :: later => do
    write sink text
    writeAll sink later

def resolve (setting : Setting κ) (name : String) : Render κ σ (Option Value) :=
  ask fun state => setting.naming.resolve state.scope name

def push (setting : Setting κ) (value : Value) (position : Option Iteration) : Render κ σ Unit :=
  .step
    (fun state =>
      match state.scope.push setting.config.scopeLimit value position with
      | .error error => (.error error, state)
      | .ok scope => (.ok (), { state with scope }))
    .done

def pop : Render κ σ (Option Value) :=
  .step
    (fun state =>
      let (value, scope) := state.scope.pop
      (value, { state with scope }))
    pure

/-- Renders under one more scope, which is closed whether the rendering fails or not. -/
def under (setting : Setting κ) (value : Value) (position : Option Iteration)
    (body : Render κ σ Unit) : Render κ σ Unit := do
  push setting value position
  body.andFinally fun scope => scope.pop.2

/-- The text of a value: nothing for a missing name and for false, escaped or as it is. -/
def output (setting : Setting κ) (sink : Sink σ) (name : String) (escaped : Bool) :
    Render κ σ Unit := do
  match ← resolve setting name with
  | none => pure ()
  | some (.bool false) => pure ()
  | some value =>
    if escaped && !setting.config.skipEscaping then
      writeAll sink ((Text.escapePieces value.text.toList).map String.ofList)
    else write sink value.text

/-- Renders a body once for each element behind the first `before` of `size`. -/
def elements (setting : Setting κ) (body : Render κ σ Unit) (size : Nat) :
    Nat → List Value → Render κ σ Unit
  | _, [] => pure ()
  | before, element :: later => do
    under setting element (some ⟨before + 1, size⟩) body
    elements setting body size (before + 1) later

/-- A section: once per element of a collection, once for any other truthy value. -/
def plainBlock (setting : Setting κ) (name : String) (body : Render κ σ Unit) :
    Render κ σ Unit := do
  match ← resolve setting name with
  | none => pure ()
  | some value =>
    match value.elements with
    | some found => elements setting body found.length 0 found
    | none => if value.isTruthy then under setting value none body else pure ()

/-- An inverted section: once for a missing or falsy value. -/
def invertedBlock (setting : Setting κ) (name : String) (body : Render κ σ Unit) :
    Render κ σ Unit := do
  if (← resolve setting name).all Value.isFalsy then body else pure ()

/-- The pieces of a text whose lines are put behind an indent. -/
def indentedPieces (indent text : String) : List String :=
  (Text.lines text.toList).flatMap fun line => [indent, String.ofList line]

/-- Goes on with a rendering that has put a text in place of the output. -/
def collectBehind : String → Render κ String Unit → Render κ σ String
  | text, .done result => .done (result.map fun _ => text)
  | text, .step act next =>
    .step
      (fun state =>
        let (answer, inner) := act ⟨state.scope, state.store, text⟩
        ((answer, inner.output), ⟨inner.scope, inner.store, state.output⟩))
      fun (answer, text) => collectBehind text (next answer)

/-- Renders into an empty text in place of the output. -/
def collect (body : Render κ String Unit) : Render κ σ String := collectBehind "" body

def find (setting : Setting κ) (name : String) : Render κ σ (Option Template) :=
  .step
    (fun state =>
      let (result, store) := (setting.find name).outcome state.store
      (result, { state with store }))
    ofExcept

/-- Renders a template in place. A missing one renders nothing; `deeper` renders its segments, or is
nothing when inclusions may nest no deeper. -/
def inclusion (setting : Setting κ) (sink : Sink σ) (deeper : Option (Renderer κ))
    (name indent : String) : Render κ σ Unit := do
  match ← find setting name with
  | none => pure ()
  | some template =>
    match deeper with
    | none => fail (.recursionLimit name setting.config.inclusionLimit)
    | some render => do
      changeScope (.enter name)
      let rendered : Render κ σ Unit :=
        if indent.isEmpty then render σ sink template.segments
        else do
          let text ← collect (render String .text template.segments)
          writeAll sink (indentedPieces indent text)
      rendered.andFinally .leave

/-- Runs a script against the renderer, where `pushed` scopes are its own. Gives its result and how
many of its scopes are left. -/
def runScript (setting : Setting κ) (sink : Sink σ) (body elseBody : Render κ σ Unit) :
    Nat → Script α → Render κ σ (α × Nat)
  | pushed, .done result => pure (result, pushed)
  | pushed, .push value position next => do
    match ← (push setting value position).attempt with
    | .ok () => runScript setting sink body elseBody (pushed + 1) (next (.ok ()))
    | .error error => runScript setting sink body elseBody pushed (next (.error error))
  | pushed, .pop next =>
    match pushed with
    | 0 => runScript setting sink body elseBody 0 (next none)
    | left + 1 => do
      runScript setting sink body elseBody left (next (← pop))
  | pushed, .renderBody next => do
    runScript setting sink body elseBody pushed (next (← body.attempt))
  | pushed, .renderElse next => do
    runScript setting sink body elseBody pushed (next (← elseBody.attempt))
  | pushed, .append text next => do
    runScript setting sink body elseBody pushed (next (← (write sink text).attempt))
  | pushed, .peek next => do
    runScript setting sink body elseBody pushed (next (← ask fun state => state.scope.peek))
  | pushed, .resolve name next => do
    runScript setting sink body elseBody pushed (next (← resolve setting name))
  | pushed, .apply function argument next =>
    runScript setting sink body elseBody pushed (next (setting.transform function argument))

def callOf (setting : Setting κ) (scope : Scope) (tag : HelperTag) (hasElse : Bool) : Call where
  tag := tag
  params := tag.params.map (setting.naming.evaluate scope)
  named := tag.named.map fun (key, argument) => (key, setting.naming.evaluate scope argument)
  hasElse := hasElse

/-- Calls a helper. Scopes that it leaves open are closed behind it. -/
def invocation (setting : Setting κ) (sink : Sink σ) (helper : Helper) (tag : HelperTag)
    (hasElse : Bool) (body elseBody : Render κ σ Unit) : Render κ σ Unit := do
  let call ← ask fun state => callOf setting state.scope tag hasElse
  let (result, pushed) ← runScript setting sink body elseBody 0 (helper.execute call).run
  changeScope (.drop pushed)
  ofExcept result

mutual

def segment (setting : Setting κ) (deeper : Option (Renderer κ)) (sink : Sink σ) :
    Segment → Render κ σ Unit
  | .text text => write sink text
  | .output name escaped _ => output setting sink name escaped
  | .block name false body _ => plainBlock setting name (segments setting deeper sink body)
  | .block name true body _ => invertedBlock setting name (segments setting deeper sink body)
  | .inclusion name indent _ => inclusion setting sink deeper name indent
  | .invocation registered tag body none =>
    invocation setting sink registered.helper tag false (segments setting deeper sink body)
      (pure ())
  | .invocation registered tag body (some elseBody) =>
    invocation setting sink registered.helper tag true (segments setting deeper sink body)
      (segments setting deeper sink elseBody)
  | .comment => pure ()

def segments (setting : Setting κ) (deeper : Option (Renderer κ)) (sink : Sink σ) :
    List Segment → Render κ σ Unit
  | [] => pure ()
  | first :: later => do
    segment setting deeper sink first
    segments setting deeper sink later

end

/-- Renders segments where inclusions may nest so much deeper. -/
def nested (setting : Setting κ) : Nat → Renderer κ
  | 0 => fun _ sink => segments setting none sink
  | depth + 1 => fun _ sink => segments setting (some (nested setting depth)) sink

/-- Renders segments, in the inclusions that the state is in. -/
def all (setting : Setting κ) (sink : Sink σ) (body : List Segment) : Render κ σ Unit := do
  let depth ← ask fun state => setting.config.inclusionLimit - state.scope.inclusions.length
  nested setting depth σ sink body

end Render

end Stencil
