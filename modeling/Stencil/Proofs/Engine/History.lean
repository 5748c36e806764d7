import Stencil.Proofs.Engine.Caching
import Stencil.Proofs.Engine.Requests
import Stencil.Proofs.Rendering.Lookups

/-! The life of an engine in a world that changes between its requests: the stores that it passes
through, one step after the other. -/

namespace Stencil

inductive Turn (ω : Type) where
  | edit (change : ω → ω)
  | find (name : String)
  | request (request : Request)

namespace Engine

variable {ω : Type}

def afterTurn (engine : Engine ω) (store : Store ω) : Turn ω → Store ω
  | .edit change => { store with world := change store.world }
  | .find name => ((engine.find name).outcome store).2
  | .request request => (engine.respond store request).2

/-- The stores from asking for a template on, where `next` gives those from having it on. -/
def passedByGet (engine : Engine ω) (name : String) (store : Store ω)
    (next : Instance → Store ω → List (Store ω)) : List (Store ω) :=
  match (engine.get name).outcome store with
  | (.error _, after) => [store, after]
  | (.ok found, after) => store :: next found after

def passedByGetAll (engine : Engine ω) : List String → Store ω → List (Store ω)
  | [], store => [store]
  | name :: later, store =>
    engine.passedByGet name store fun _ after => passedByGetAll engine later after

def passedByRendering {σ : Type} (engine : Engine ω) (sink : Sink σ) (output : σ)
    (template : Template) (data : Value) (store : Store ω) : List (Store ω) :=
  ((engine.renderIn sink template.segments).moments
    ⟨.ofRoot template.name data, store, output⟩).map Rendering.store

def passedByRequest (engine : Engine ω) (store : Store ω) : Request → List (Store ω)
  | .get name => engine.passedByGet name store fun _ after => [after]
  | .render name data =>
    match data.toValue with
    | .error _ => [store]
    | .ok value =>
      engine.passedByGet name store fun found after =>
        engine.passedByRendering .text "" found.template value after
  | .renderTo sink output name data =>
    engine.passedByGet name store fun found after =>
      match data.toValue with
      | .error _ => [after]
      | .ok value => engine.passedByRendering sink output found.template value after
  | .renderTemplate sink output template data =>
    engine.passedByRendering sink output template data store
  | .renderSource source data =>
    match engine.compileSource inlineTemplateName source, data.toValue with
    | .ok template, .ok value => engine.passedByRendering .text "" template value store
    | _, _ => [store]
  | .precompileAll =>
    let (names, world) := (Locator.allIdentifiers engine.locators).outcome store.world
    let named : Store ω := { store with world }
    match names with
    | .error _ => [store, named]
    | .ok names => store :: engine.passedByGetAll (sortNames names) named
  | .invalidate matched => [store, (Engine.invalidate store matched).2]
  | .clearCache => [store, Engine.clearCache store]
  | .refresh => [store, engine.refresh store]
  | .wait span => [store, { store with clock := store.clock + span }]

def passedByTurn (engine : Engine ω) (store : Store ω) : Turn ω → List (Store ω)
  | .edit change => [store, { store with world := change store.world }]
  | .find name => [store, ((engine.find name).outcome store).2]
  | .request request => engine.passedByRequest store request

/-- The stores that an engine passes through in some turns. -/
def history (engine : Engine ω) (store : Store ω) : List (Turn ω) → List (Store ω)
  | [] => [store]
  | turn :: later =>
    engine.passedByTurn store turn ++ engine.history (engine.afterTurn store turn) later

/-- What happens to a store at a time: a template is looked for, something changes that is not in
the cache, or entries are dropped. -/
inductive Step (engine : Engine ω) : Store ω → Store ω → Prop where
  | looks (name : String) (store : Store ω) :
    Step engine store ((engine.find name).outcome store).2
  | elsewhere (world : ω) (clock : Nat) (store : Store ω) :
    Step engine store { store with world, clock }
  | invalidates (matched : String → Bool) (store : Store ω) :
    Step engine store (Engine.invalidate store matched).2
  | clears (world : ω) (store : Store ω) : Step engine store (clearCache { store with world })

inductive Passage (engine : Engine ω) : Store ω → List (Store ω) → Store ω → Prop where
  | stop (store : Store ω) : Passage engine store [store] store
  | step {store next last : Store ω} {later : List (Store ω)} (hstep : engine.Step store next)
      (hlater : Passage engine next later last) : Passage engine store (store :: later) last

section Passages

variable {engine : Engine ω} {store middle last : Store ω}

theorem Step.refl (engine : Engine ω) (store : Store ω) : engine.Step store store :=
  .elsewhere store.world store.clock store

theorem Step.passage (h : engine.Step store last) : engine.Passage store [store, last] last :=
  .step h (.stop last)

theorem Passage.append {first second : List (Store ω)} (h : engine.Passage store first middle)
    (hlater : engine.Passage middle second last) :
    engine.Passage store (first ++ second) last := by
  induction h with
  | stop store => exact .step (Step.refl engine store) hlater
  | step hstep _ ih => exact .step hstep (ih hlater)

theorem Passage.exists_eq_append {stores : List (Store ω)} (h : engine.Passage store stores last) :
    ∃ passed, stores = passed ++ [last] := by
  induction h with
  | stop store => exact ⟨[], rfl⟩
  | step hstep _ ih =>
    obtain ⟨passed, rfl⟩ := ih
    exact ⟨_ :: passed, rfl⟩

/-- Asking for a template looks for it once, and then goes on with it or stops. -/
theorem passage_get {name : String} {next : Instance → Store ω → List (Store ω)}
    (herror : ∀ error after, (engine.get name).outcome store = (.error error, after) → after = last)
    (hok : ∀ found after, (engine.get name).outcome store = (.ok found, after) →
      engine.Passage after (next found after) last) :
    engine.Passage store (engine.passedByGet name store next) last := by
  have hstep : engine.Step store ((engine.get name).outcome store).2 := by
    rw [get_outcome_snd]
    exact .looks name store
  unfold passedByGet
  rcases hget : (engine.get name).outcome store with ⟨error | found, after⟩ <;> rw [hget] at hstep
  · exact herror error after hget ▸ hstep.passage
  · exact .step hstep (hok found after hget)

theorem passage_getAll (engine : Engine ω) (names : List String) (store : Store ω) :
    engine.Passage store (engine.passedByGetAll names store)
      ((engine.getAll names).outcome store).2 := by
  induction names generalizing store with
  | nil => exact .stop store
  | cons name later ih =>
    rw [passedByGetAll, getAll_cons_outcome]
    apply passage_get
    · intro error after hget
      rw [hget]
    · intro found after hget
      rw [hget]
      exact ih after

theorem step_of_looksUp (h : Render.LooksUp engine.setting store last) :
    engine.Step store last := by
  rcases h with rfl | ⟨name, rfl⟩
  · exact Step.refl engine _
  · rw [find_setting]
    exact .looks name store

theorem passage_moments {σ α : Type} {action : Render (Store ω) σ α}
    (h : action.OnlyLooksUp engine.setting) (state : Rendering (Store ω) σ) :
    engine.Passage state.store ((action.moments state).map Rendering.store)
      (action.outcome state).2.store := by
  induction action generalizing state with
  | done result => exact .stop state.store
  | step act next ih =>
    exact .step (step_of_looksUp (h.1 state)) (ih (act state).1 (h.2 _) (act state).2)

theorem passage_rendering {σ : Type} (engine : Engine ω) (sink : Sink σ) (output : σ)
    (template : Template) (data : Value) (store : Store ω) :
    engine.Passage store (engine.passedByRendering sink output template data store)
      ((engine.renderTemplate sink template data).outcome (store, output)).2.1 :=
  passage_moments (Render.onlyLooksUp_all engine.setting sink template.segments)
    ⟨.ofRoot template.name data, store, output⟩

theorem passage_textOf (engine : Engine ω) (template : Template) (data : Value) (store : Store ω) :
    engine.Passage store (engine.passedByRendering .text "" template data store)
      ((engine.textOf template data).outcome store).2 :=
  engine.passage_rendering .text "" template data store

theorem passage_precompileAll (engine : Engine ω) (store : Store ω) :
    engine.Passage store (engine.passedByRequest store .precompileAll)
      (engine.precompileAll.outcome store).2 := by
  rw [precompileAll_outcome]
  simp only [passedByRequest]
  rcases (Locator.allIdentifiers engine.locators).outcome store.world with ⟨error | names, world⟩
  · exact (Step.elsewhere world store.clock store).passage
  · exact .step (.elsewhere world store.clock store) (engine.passage_getAll _ _)

theorem passage_request (engine : Engine ω) (store : Store ω) (request : Request) :
    engine.Passage store (engine.passedByRequest store request)
      (engine.respond store request).2 := by
  cases request with
  | get name =>
    apply passage_get
    · intro error after hget
      simp [respond, hget]
    · intro found after hget
      simp only [respond, hget]
      exact .stop after
  | render name data =>
    simp only [passedByRequest, respond, render_outcome]
    cases data.toValue with
    | error error => exact .stop store
    | ok value =>
      apply passage_get
      · intro error after hget
        rw [hget]
      · intro found after hget
        rw [hget]
        exact engine.passage_textOf found.template value after
  | renderTo sink output name data =>
    simp only [passedByRequest, respond, renderTo_outcome]
    apply passage_get
    · intro error after hget
      rw [hget]
    · intro found after hget
      rw [hget]
      cases data.toValue with
      | error error => exact .stop after
      | ok value => exact engine.passage_rendering sink output found.template value after
  | renderSource source data =>
    simp only [passedByRequest, respond, renderSource_outcome]
    cases engine.compileSource inlineTemplateName source with
    | error error => exact .stop store
    | ok template =>
      cases data.toValue with
      | error error => exact .stop store
      | ok value => exact engine.passage_textOf template value store
  | renderTemplate sink output template data =>
    exact engine.passage_rendering sink output template data store
  | precompileAll => exact engine.passage_precompileAll store
  | invalidate matched => exact (Step.invalidates matched store).passage
  | clearCache => exact (Step.clears store.world store).passage
  | refresh => exact (Step.clears (Locator.refreshAll engine.locators store.world) store).passage
  | wait span => exact (Step.elsewhere store.world (store.clock + span) store).passage

theorem passage_turn (engine : Engine ω) (store : Store ω) (turn : Turn ω) :
    engine.Passage store (engine.passedByTurn store turn) (engine.afterTurn store turn) := by
  cases turn with
  | edit change => exact (Step.elsewhere (change store.world) store.clock store).passage
  | find name => exact (Step.looks name store).passage
  | request request => exact engine.passage_request store request

/-- What an engine passes through is one step after the other, up to the store behind its turns. -/
theorem passage_history (engine : Engine ω) (turns : List (Turn ω)) (store : Store ω) :
    engine.Passage store (engine.history store turns) (turns.foldl engine.afterTurn store) := by
  induction turns generalizing store with
  | nil => exact .stop store
  | cons turn later ih => exact (engine.passage_turn store turn).append (ih _)

end Passages

end Engine

end Stencil
