import Stencil.Render

/-! The moments of a rendering, and a logic for what holds at all of them and at its end. -/

namespace Stencil.Render

variable {κ σ α β : Type}

/-- The states a rendering passes through, from the one it starts in to the one it ends in. -/
def moments : Render κ σ α → Rendering κ σ → List (Rendering κ σ)
  | .done _, state => [state]
  | .step act next, state => state :: (next (act state).1).moments (act state).2

theorem outcome_mem_moments (action : Render κ σ α) (state : Rendering κ σ) :
    (action.outcome state).2 ∈ action.moments state := by
  induction action generalizing state with
  | done result => simp [moments]
  | step act next ih => exact List.mem_cons_of_mem _ (ih _ _)

/-- From a state on, `always` holds at every moment and `ends` holds at the end. -/
def Along (always : Rendering κ σ → Prop) (ends : Except Error α → Rendering κ σ → Prop) :
    Render κ σ α → Rendering κ σ → Prop
  | .done result, state => always state ∧ ends result state
  | .step act next, state => always state ∧ (next (act state).1).Along always ends (act state).2

theorem along_iff {always : Rendering κ σ → Prop} {ends : Except Error α → Rendering κ σ → Prop}
    {action : Render κ σ α} {state : Rendering κ σ} :
    action.Along always ends state ↔
      (∀ moment ∈ action.moments state, always moment) ∧
        ends (action.outcome state).1 (action.outcome state).2 := by
  induction action generalizing state with
  | done result => simp [Along, moments]
  | step act next ih => simp [Along, moments, ih, and_assoc]

section Rules

variable {always weaker : Rendering κ σ → Prop} {ends : Except Error α → Rendering κ σ → Prop}
  {state : Rendering κ σ}

theorem Along.mono {later : Except Error α → Rendering κ σ → Prop} {action : Render κ σ α}
    (h : action.Along always ends state) (halways : ∀ s, always s → weaker s)
    (hends : ∀ result s, always s → ends result s → later result s) :
    action.Along weaker later state := by
  induction action generalizing state with
  | done result => exact ⟨halways _ h.1, hends _ _ h.1 h.2⟩
  | step act next ih => exact ⟨halways _ h.1, ih _ h.2⟩

/-- A rendering is followed by what its result asks for, or ends with its error. -/
theorem Along.bind {ends : Except Error β → Rendering κ σ → Prop} {action : Render κ σ α}
    {rest : α → Render κ σ β}
    (h : action.Along always (fun result s => match result with
      | .ok a => (rest a).Along always ends s
      | .error error => ends (.error error) s) state) :
    (action >>= rest).Along always ends state := by
  induction action generalizing state with
  | done result =>
    cases result with
    | ok a => exact h.2
    | error error => exact h
  | step act next ih => exact ⟨h.1, ih _ h.2⟩

theorem Along.attempt {ends : Except Error (Except Error α) → Rendering κ σ → Prop}
    {action : Render κ σ α}
    (h : action.Along always (fun result s => ends (.ok result) s) state) :
    action.attempt.Along always ends state := by
  induction action generalizing state with
  | done result => exact h
  | step act next ih => exact ⟨h.1, ih _ h.2⟩

theorem Along.ask {ends : Except Error β → Rendering κ σ → Prop} {f : Rendering κ σ → α}
    {rest : α → Render κ σ β} (h : always state)
    (hrest : (rest (f state)).Along always ends state) :
    (ask f >>= rest).Along always ends state := ⟨h, hrest⟩

theorem Along.changeScope {f : Scope → Scope} {rest : Unit → Render κ σ α} (h : always state)
    (hrest : (rest ()).Along always ends { state with scope := f state.scope }) :
    (changeScope f >>= rest).Along always ends state := ⟨h, hrest⟩

theorem Along.andFinally {action : Render κ σ α} {f : Scope → Scope}
    (h : action.Along always (fun result s =>
      always { s with scope := f s.scope } ∧ ends result { s with scope := f s.scope }) state) :
    (action.andFinally f).Along always ends state := by
  unfold Render.andFinally
  refine Along.bind (Along.attempt (h.mono (fun _ hs => hs) ?_))
  intro result s hs hend
  exact Along.changeScope hs hend

end Rules

end Stencil.Render
