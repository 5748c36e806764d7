import Stencil.Error

/-! Actions that may fail and that change a state, which keeps its changes when they fail. -/

namespace Stencil

abbrev Effect (σ α : Type) := ExceptT Error (StateM σ) α

structure Part (σ τ : Type) where
  get : σ → τ
  set : τ → σ → σ

namespace Effect

def outcome {σ α : Type} (action : Effect σ α) (state : σ) : Except Error α × σ := action state

def ofExcept {σ α : Type} (result : Except Error α) : Effect σ α := fun state => (result, state)

@[simp] theorem outcome_pure {σ α : Type} (a : α) (state : σ) :
    (pure a : Effect σ α).outcome state = (.ok a, state) := rfl

@[simp] theorem outcome_throw {σ α : Type} (error : Error) (state : σ) :
    (throw error : Effect σ α).outcome state = (.error error, state) := rfl

@[simp] theorem outcome_ofExcept {σ α : Type} (result : Except Error α) (state : σ) :
    (ofExcept result).outcome state = (result, state) := rfl

/-- What follows an action runs in the state behind it, or not at all. -/
theorem outcome_bind {σ α β : Type} (action : Effect σ α) (rest : α → Effect σ β) (state : σ) :
    (action >>= rest).outcome state =
      match action.outcome state with
      | (.ok a, changed) => (rest a).outcome changed
      | (.error error, changed) => (.error error, changed) := by
  simp only [outcome, bind, ExceptT.bind, ExceptT.mk, StateT.bind]
  rcases action state with ⟨error | a, changed⟩ <;> rfl

def onPart {σ τ α : Type} (part : Part σ τ) (action : Effect τ α) : Effect σ α := fun state =>
  let (result, changed) := action.outcome (part.get state)
  (result, part.set changed state)

end Effect

end Stencil
