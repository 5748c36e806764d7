import Stencil.Proofs.Rendering.Moments

/-! Where a rendering meets a limit, and a logic for renderings under the assumption that the errors
of the limits they meet are known. -/

namespace Stencil

def Error.isLimit : Error → Bool
  | .recursionLimit .. => true
  | _ => false

def Passed {α : Type} (known : Error → Prop) (result : Except Error α) : Prop :=
  ∀ error, result = .error error → error.isLimit = true → known error

theorem passed_ok {α : Type} (known : Error → Prop) (a : α) : Passed known (.ok a) := by
  intro error h
  contradiction

theorem passed_error {α : Type} {known : Error → Prop} {error : Error}
    (h : error.isLimit = false) : Passed known (.error error : Except Error α) := by
  intro other hother hlimit
  rw [← Except.error.inj hother, h] at hlimit
  contradiction

namespace Render

variable {κ σ α β : Type}

def pushStep (setting : Setting κ) (value : Value) (position : Option Iteration)
    (state : Rendering κ σ) : Except Error Unit × Rendering κ σ :=
  match state.scope.push setting.config.scopeLimit value position with
  | .error error => (.error error, state)
  | .ok scope => (.ok (), { state with scope })

def findStep (setting : Setting κ) (name : String) (state : Rendering κ σ) :
    Except Error (Option Template) × Rendering κ σ :=
  let (result, store) := (setting.find name).outcome state.store
  (result, { state with store })

def collectStep (text : String) (act : Rendering κ String → β × Rendering κ String)
    (state : Rendering κ σ) : (β × String) × Rendering κ σ :=
  let (answer, inner) := act ⟨state.scope, state.store, text⟩
  ((answer, inner.output), ⟨inner.scope, inner.store, state.output⟩)

theorem push_eq (setting : Setting κ) (value : Value) (position : Option Iteration) :
    (push setting value position : Render κ σ Unit) =
      .step (pushStep setting value position) .done := rfl

theorem find_eq (setting : Setting κ) (name : String) :
    (find setting name : Render κ σ (Option Template)) =
      .step (findStep setting name) ofExcept := rfl

theorem collectBehind_step (text : String) (act : Rendering κ String → β × Rendering κ String)
    (next : β → Render κ String Unit) :
    (collectBehind text (.step act next) : Render κ σ String) =
      .step (collectStep text act) fun (answer, text) => collectBehind text (next answer) := rfl

/-- A step goes for more than a limit allows: it opens a scope when exactly as many as may be are
open, or finds a template to include when exactly as many as may be are being included. -/
inductive Refused (setting : Setting κ) :
    {σ β : Type} → (Rendering κ σ → β × Rendering κ σ) → Rendering κ σ → Error → Prop where
  | scope {σ : Type} {state : Rendering κ σ} (value : Value) (position : Option Iteration)
      (hfull : state.scope.frames.length = setting.config.scopeLimit) :
    Refused setting (pushStep setting value position) state
      (.recursionLimit state.scope.currentTemplate setting.config.scopeLimit)
  | inclusion {σ : Type} {state : Rendering κ σ} {name : String} {template : Template}
      (hfound : ((setting.find name).outcome state.store).1 = .ok (some template))
      (hfull : state.scope.inclusions.length = setting.config.inclusionLimit) :
    Refused setting (findStep setting name) state
      (.recursionLimit name setting.config.inclusionLimit)
  | collected {σ β : Type} {act : Rendering κ String → β × Rendering κ String}
      {state : Rendering κ σ} {text : String} {error : Error}
      (h : Refused setting act ⟨state.scope, state.store, text⟩ error) :
    Refused setting (collectStep text act) state error

/-- Somewhere on its way a rendering is refused a step, with this error. -/
inductive Refuses (setting : Setting κ) : Render κ σ α → Rendering κ σ → Error → Prop where
  | here {β : Type} {act : Rendering κ σ → β × Rendering κ σ} {next : β → Render κ σ α}
      {state : Rendering κ σ} {error : Error} (h : Refused setting act state error) :
    Refuses setting (.step act next) state error
  | later {β : Type} {act : Rendering κ σ → β × Rendering κ σ} {next : β → Render κ σ α}
      {state : Rendering κ σ} {error : Error}
      (h : Refuses setting (next (act state).1) (act state).2 error) :
    Refuses setting (.step act next) state error

/-- As long as the errors of refused steps are known, `always` holds at every moment and `ends`
holds at the end. -/
def Guided (setting : Setting κ) (known : Error → Prop) (always : Rendering κ σ → Prop)
    (ends : Except Error α → Rendering κ σ → Prop) : Render κ σ α → Rendering κ σ → Prop
  | .done result, state => always state ∧ ends result state
  | .step act next, state => always state ∧
    ((∀ error, Refused setting act state error → known error) →
      (next (act state).1).Guided setting known always ends (act state).2)

variable {setting : Setting κ} {known : Error → Prop} {always : Rendering κ σ → Prop}
  {state : Rendering κ σ}

theorem Guided.along {ends : Except Error α → Rendering κ σ → Prop} {action : Render κ σ α}
    (h : action.Guided setting known always ends state)
    (hknown : ∀ error, Refuses setting action state error → known error) :
    action.Along always ends state := by
  induction action generalizing state with
  | done result => exact h
  | step act next ih =>
    have hlater := h.2 fun error herror => hknown error (.here herror)
    exact ⟨h.1, ih _ hlater fun error herror => hknown error (.later herror)⟩

theorem Guided.mono {ends later : Except Error α → Rendering κ σ → Prop} {action : Render κ σ α}
    (h : action.Guided setting known always ends state)
    (hends : ∀ result s, always s → ends result s → later result s) :
    action.Guided setting known always later state := by
  induction action generalizing state with
  | done result => exact ⟨h.1, hends _ _ h.1 h.2⟩
  | step act next ih => exact ⟨h.1, fun hrefused => ih _ (h.2 hrefused)⟩

theorem Guided.bind {ends : Except Error β → Rendering κ σ → Prop} {action : Render κ σ α}
    {rest : α → Render κ σ β}
    (h : action.Guided setting known always (fun result s => match result with
      | .ok a => (rest a).Guided setting known always ends s
      | .error error => ends (.error error) s) state) :
    (action >>= rest).Guided setting known always ends state := by
  induction action generalizing state with
  | done result =>
    cases result with
    | ok a => exact h.2
    | error error => exact h
  | step act next ih => exact ⟨h.1, fun hrefused => ih _ (h.2 hrefused)⟩

theorem Guided.attempt {ends : Except Error (Except Error α) → Rendering κ σ → Prop}
    {action : Render κ σ α}
    (h : action.Guided setting known always (fun result s => ends (.ok result) s) state) :
    action.attempt.Guided setting known always ends state := by
  induction action generalizing state with
  | done result => exact h
  | step act next ih => exact ⟨h.1, fun hrefused => ih _ (h.2 hrefused)⟩

/-- What a rendering into a text keeps about scopes and stores, it keeps in place of the output. -/
theorem guided_collectBehind (keeps : Scope → κ → Prop)
    (ends : Except Error Unit → Scope → κ → Prop) {body : Render κ String Unit} {text : String}
    (h : body.Guided setting known (fun moment => keeps moment.scope moment.store)
      (fun result last => ends result last.scope last.store) ⟨state.scope, state.store, text⟩) :
    (collectBehind text body : Render κ σ String).Guided setting known
      (fun moment => keeps moment.scope moment.store)
      (fun result last => ends (result.map fun _ => ()) last.scope last.store) state := by
  induction body generalizing state text with
  | done result => cases result <;> exact h
  | step act next ih =>
    rw [collectBehind_step]
    refine ⟨h.1, fun hrefused => ?_⟩
    have hinner := h.2 fun error herror => hrefused error (.collected herror)
    exact ih _ hinner

end Render

end Stencil
