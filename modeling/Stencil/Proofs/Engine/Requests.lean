import Stencil.Engine

/-! What the requests to an engine come to, in terms of looking for templates and rendering them. -/

namespace Stencil.Engine

variable {ω σ : Type}

theorem get_outcome (engine : Engine ω) (name : String) (store : Store ω) :
    (engine.get name).outcome store =
      match (engine.find name).outcome store with
      | (.error error, after) => (.error error, after)
      | (.ok none, after) => (.error (.templateNotFound name), after)
      | (.ok (some found), after) => (.ok found, after) := by
  rw [get, Effect.outcome_bind]
  rcases (engine.find name).outcome store with ⟨error | _ | found, after⟩ <;> rfl

theorem get_outcome_snd (engine : Engine ω) (name : String) (store : Store ω) :
    ((engine.get name).outcome store).2 = ((engine.find name).outcome store).2 := by
  rw [get_outcome]
  rcases (engine.find name).outcome store with ⟨error | _ | found, after⟩ <;> rfl

theorem find_of_get_eq_ok {engine : Engine ω} {name : String} {store after : Store ω}
    {found : Instance} (h : (engine.get name).outcome store = (.ok found, after)) :
    (engine.find name).outcome store = (.ok (some found), after) := by
  rw [get_outcome] at h
  rcases hfind : (engine.find name).outcome store with ⟨error | _ | other, changed⟩ <;>
    rw [hfind] at h <;> cases h
  rfl

theorem textOf_outcome (engine : Engine ω) (template : Template) (data : Value) (store : Store ω) :
    (engine.textOf template data).outcome store =
      let rendered := (engine.renderTemplate .text template data).outcome (store, "")
      (rendered.1.map fun _ => rendered.2.2, rendered.2.1) := rfl

theorem renderValue_outcome (engine : Engine ω) (name : String) (data : Value) (store : Store ω) :
    (engine.renderValue name data).outcome store =
      match (engine.get name).outcome store with
      | (.error error, after) => (.error error, after)
      | (.ok found, after) => (engine.textOf found.template data).outcome after := by
  rw [renderValue, Effect.outcome_bind]
  rcases (engine.get name).outcome store with ⟨error | found, after⟩ <;> rfl

/-- The data of a text is read before its template is looked for. -/
theorem render_outcome (engine : Engine ω) (name : String) (data : DataSource) (store : Store ω) :
    (engine.render name data).outcome store =
      match data.toValue with
      | .error error => (.error error, store)
      | .ok value =>
        match (engine.get name).outcome store with
        | (.error error, after) => (.error error, after)
        | (.ok found, after) => (engine.textOf found.template value).outcome after := by
  rw [render, Effect.outcome_bind, Effect.outcome_ofExcept]
  cases data.toValue with
  | error error => rfl
  | ok value => exact engine.renderValue_outcome name value store

/-- What goes to a sink is looked for before its data is read. -/
theorem renderTo_outcome (engine : Engine ω) (sink : Sink σ) (name : String) (data : DataSource)
    (store : Store ω) (output : σ) :
    (engine.renderTo sink name data).outcome (store, output) =
      match (engine.get name).outcome store with
      | (.error error, after) => (.error error, after, output)
      | (.ok found, after) =>
        match data.toValue with
        | .error error => (.error error, after, output)
        | .ok value =>
          (engine.renderTemplate sink found.template value).outcome (after, output) := by
  have hget : ((engine.get name).onPart storePart).outcome (store, output) =
      (((engine.get name).outcome store).1, ((engine.get name).outcome store).2, output) := rfl
  rw [renderTo, Effect.outcome_bind, hget]
  rcases (engine.get name).outcome store with ⟨error | found, after⟩
  · rfl
  · simp only [Effect.outcome_bind, Effect.outcome_ofExcept]
    cases data.toValue <;> rfl

theorem renderSource_outcome (engine : Engine ω) (source : String) (data : DataSource)
    (store : Store ω) :
    (engine.renderSource source data).outcome store =
      match engine.compileSource inlineTemplateName source, data.toValue with
      | .error error, _ => (.error error, store)
      | .ok _, .error error => (.error error, store)
      | .ok template, .ok value => (engine.textOf template value).outcome store := by
  simp only [renderSource, Effect.outcome_bind, Effect.outcome_ofExcept]
  cases engine.compileSource inlineTemplateName source with
  | error error => rfl
  | ok template => cases data.toValue <;> rfl

theorem getAll_cons_outcome (engine : Engine ω) (name : String) (later : List String)
    (store : Store ω) :
    (engine.getAll (name :: later)).outcome store =
      match (engine.get name).outcome store with
      | (.error error, after) => (.error error, after)
      | (.ok _, after) => (engine.getAll later).outcome after := by
  rw [getAll, Effect.outcome_bind]
  rcases (engine.get name).outcome store with ⟨error | found, after⟩ <;> rfl

theorem precompileAll_outcome (engine : Engine ω) (store : Store ω) :
    engine.precompileAll.outcome store =
      match (Locator.allIdentifiers engine.locators).outcome store.world with
      | (.error error, world) => (.error error, { store with world })
      | (.ok names, world) =>
        let compiled := (engine.getAll (sortNames names)).outcome { store with world }
        (compiled.1.map fun _ => (sortNames names).length, compiled.2) := by
  have hnames : ((Locator.allIdentifiers engine.locators).onPart Store.worldPart).outcome store =
      (((Locator.allIdentifiers engine.locators).outcome store.world).1,
        { store with
          world := ((Locator.allIdentifiers engine.locators).outcome store.world).2 }) := rfl
  rw [precompileAll, Effect.outcome_bind, hnames]
  rcases (Locator.allIdentifiers engine.locators).outcome store.world with ⟨error | names, world⟩
  · rfl
  · simp only [Effect.outcome_bind]
    rcases (engine.getAll (sortNames names)).outcome { store with world } with
      ⟨error | _, after⟩ <;> rfl

end Stencil.Engine
