import Stencil.Proofs.Engine.Find
import Stencil.Proofs.Engine.Requests
import Stencil.Proofs.Rendering.Matching

/-! Engines that find templates alike in related stores answer alike, and stay in related stores. -/

namespace Stencil.Engine

variable {ω σ : Type}

/-- Two engines that find the same templates in related stores, and that compile and render
alike. -/
structure FindsAlike (related : Store ω → Store ω → Prop) (engine other : Engine ω) : Prop where
  find : ∀ name, Effect.Matches related
    (fun found second => second.map Instance.template = found.map Instance.template)
    (engine.find name) (other.find name)
  setting : engine.setting.Alike other.setting
  compile : other.compileSource = engine.compileSource

namespace FindsAlike

variable {related : Store ω → Store ω → Prop} {engine other : Engine ω}

theorem get (h : FindsAlike related engine other) (name : String) :
    Effect.Matches related (fun found second => second.template = found.template)
      (engine.get name) (other.get name) := by
  apply (h.find name).bind
  intro found second hsame
  rcases found with _ | found <;> rcases second with _ | second <;>
    simp only [Option.map_some, Option.map_none, Option.some.injEq, reduceCtorEq] at hsame
  · exact Effect.matches_ofExcept (.error _)
  · exact Effect.matches_pure hsame

theorem findAlike (h : FindsAlike related engine other) :
    Render.FindAlike related engine.setting other.setting := by
  intro name store second hrelated
  obtain ⟨hagree, hafter⟩ := h.find name store second hrelated
  rw [find_setting, find_setting]
  exact ⟨hagree.map fun _ _ hsame => hsame, hafter⟩

/-- Rendering a template gives the same result and the same output. -/
theorem renderTemplate (h : FindsAlike related engine other) (sink : Sink σ) (template : Template)
    (data : Value) :
    Effect.Matches (fun state second => related state.1 second.1 ∧ second.2 = state.2)
      (fun a b => b = a) (engine.renderTemplate sink template data)
      (other.renderTemplate sink template data) := by
  rintro ⟨store, output⟩ ⟨second, written⟩ ⟨hrelated, rfl⟩
  obtain ⟨hresult, hlast⟩ :=
    Render.matches_all h.findAlike h.setting sink template.segments
      ⟨.ofRoot template.name data, store, written⟩ ⟨.ofRoot template.name data, second, written⟩
      ⟨rfl, rfl, hrelated⟩
  exact ⟨agree_eq hresult, hlast.store, hlast.output⟩

theorem textOf (h : FindsAlike related engine other) {template second : Template}
    (hsame : second = template) (data : Value) :
    Effect.Matches related (fun a b => b = a) (engine.textOf template data)
      (other.textOf second data) := by
  subst hsame
  intro store moved hrelated
  obtain ⟨hresult, hafter, houtput⟩ :=
    h.renderTemplate .text second data (store, "") (moved, "") ⟨hrelated, rfl⟩
  rw [textOf_outcome, textOf_outcome]
  refine ⟨?_, hafter⟩
  simp only [houtput]
  exact agree_eq (hresult.map fun _ _ _ => rfl)

theorem render (h : FindsAlike related engine other) (name : String) (data : DataSource) :
    Effect.Matches related (fun a b => b = a) (engine.render name data)
      (other.render name data) := by
  apply (Effect.matches_ofExcept (agree_eq rfl)).bind
  rintro value _ rfl
  exact (h.get name).bind fun found second hsame => h.textOf hsame _

theorem renderSource (h : FindsAlike related engine other) (source : String) (data : DataSource) :
    Effect.Matches related (fun a b => b = a) (engine.renderSource source data)
      (other.renderSource source data) := by
  have hcompile : other.compileSource inlineTemplateName source =
      engine.compileSource inlineTemplateName source := by
    rw [h.compile]
  apply (Effect.matches_ofExcept (agree_eq hcompile)).bind
  rintro template _ rfl
  apply (Effect.matches_ofExcept (agree_eq rfl)).bind
  rintro value _ rfl
  exact h.textOf rfl _

theorem renderTo (h : FindsAlike related engine other) (sink : Sink σ) (name : String)
    (data : DataSource) :
    Effect.Matches (fun state second => related state.1 second.1 ∧ second.2 = state.2)
      (fun a b => b = a) (engine.renderTo sink name data) (other.renderTo sink name data) := by
  have hget : Effect.Matches
      (fun (state second : Store ω × σ) => related state.1 second.1 ∧ second.2 = state.2)
      (fun found second => second.template = found.template)
      ((engine.get name).onPart storePart) ((other.get name).onPart storePart) := by
    rintro state second ⟨hrelated, houtput⟩
    obtain ⟨hagree, hafter⟩ := h.get name state.1 second.1 hrelated
    exact ⟨hagree, hafter, houtput⟩
  apply hget.bind
  intro found second hsame
  apply (Effect.matches_ofExcept (agree_eq rfl)).bind
  rintro value _ rfl
  rw [hsame]
  exact h.renderTemplate sink found.template _

theorem getAll (h : FindsAlike related engine other) (names : List String) :
    Effect.Matches related (fun a b => b = a) (engine.getAll names) (other.getAll names) := by
  induction names with
  | nil => exact Effect.matches_pure rfl
  | cons name later ih => exact (h.get name).bind fun _ _ _ => ih

end FindsAlike

end Stencil.Engine
