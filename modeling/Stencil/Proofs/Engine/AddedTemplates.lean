import Stencil.Proofs.Engine.Find
import Stencil.Proofs.Locator

/-! Templates added to an engine itself are served before those of all locators but the ones that
have the highest of all priorities, which are asked first. -/

namespace Stencil.Setup

variable {ω : Type} {setup : Setup ω}

/-- The locators of an engine with templates of its own: those of the highest priority in the order
added, its own templates, and the others. -/
theorem locators_toEngine (h : setup.templates ≠ []) :
    ∃ lower, setup.toEngine.locators =
      setup.locators.filter (fun locator => locator.priority = Int32.maxValue) ++
        .ofEntries Int32.maxValue (sortEntries setup.templates) :: lower := by
  have hadded : setup.allLocators =
      setup.locators ++ [.ofEntries Int32.maxValue (sortEntries setup.templates)] := by
    simp [allLocators, h]
  obtain ⟨lower, hlower⟩ := sortRanked_concat_highest Locator.priority setup.locators
    (show (Locator.ofEntries Int32.maxValue (sortEntries setup.templates) : Locator ω).priority =
      Int32.maxValue from rfl)
  exact ⟨lower, by rw [toEngine, hadded, hlower]⟩

/-- A name with a template of the engine's own is located by the locators of the highest priority,
if one of them has it or fails, and else as the source that was added last. -/
theorem located_toEngine {name source : String}
    (h : setup.templates.reverse.lookup name = some source) (world : ω) :
    setup.toEngine.located name world =
      match (Locator.firstSource name
        (setup.locators.filter fun locator => locator.priority = Int32.maxValue)).outcome world with
      | (.ok none, after) => (.ok (some source), after)
      | found => found := by
  have hadded : setup.templates ≠ [] := by
    rintro hnone
    simp [hnone] at h
  obtain ⟨lower, hlocators⟩ := locators_toEngine hadded
  have hown : (sortEntries setup.templates).lookup name = some source := by
    rw [lookup_sortEntries, h]
  have hserved : ∀ after, (Locator.firstSource name
      (.ofEntries Int32.maxValue (sortEntries setup.templates) :: lower)).outcome after =
        (.ok (some source), after) := by
    intro after
    rw [Locator.firstSource, Effect.outcome_bind]
    simp only [Locator.ofEntries, hown, Effect.outcome_pure]
  rw [Engine.located, hlocators, Locator.firstSource_append]
  rcases (Locator.firstSource name (setup.locators.filter fun locator =>
    locator.priority = Int32.maxValue)).outcome world with ⟨error | _ | other, after⟩
  · rfl
  · exact hserved after
  · rfl

/-- A template added to an engine is loaded as the source last added under its name, unless a
locator of the highest of all priorities has the name or fails for it. Where no locator has that
priority, none is asked. -/
theorem load_added_template {name source : String}
    (h : setup.templates.reverse.lookup name = some source) (store : Store ω) :
    ((setup.toEngine.load name).outcome store =
      match (Locator.firstSource name
        (setup.locators.filter fun locator => locator.priority = Int32.maxValue)).outcome
          store.world with
      | (.ok none, world) =>
        ((setup.toEngine.compileSource name source).map some, { store with world })
      | (found, world) => (setup.toEngine.compileFound name found, { store with world })) ∧
    ((∀ locator ∈ setup.locators, locator.priority ≠ Int32.maxValue) →
      (setup.toEngine.load name).outcome store =
        ((setup.toEngine.compileSource name source).map some, store)) := by
  have hload : (setup.toEngine.load name).outcome store =
      match (Locator.firstSource name
        (setup.locators.filter fun locator => locator.priority = Int32.maxValue)).outcome
          store.world with
      | (.ok none, world) =>
        ((setup.toEngine.compileSource name source).map some, { store with world })
      | (found, world) => (setup.toEngine.compileFound name found, { store with world }) := by
    rw [Engine.load_outcome, located_toEngine h]
    rcases (Locator.firstSource name (setup.locators.filter fun locator =>
      locator.priority = Int32.maxValue)).outcome store.world with
      ⟨error | _ | other, world⟩ <;> rfl
  refine ⟨hload, fun hlower => ?_⟩
  have hnone : setup.locators.filter (fun locator => locator.priority = Int32.maxValue) = [] := by
    rw [List.filter_eq_nil_iff]
    intro locator hlocator hhighest
    exact hlower locator hlocator (of_decide_eq_true hhighest)
  rw [hload, hnone]
  rfl

/-- A locator as urgent as can be, and an engine with two templates of the name that it has. -/
def crowdedSetup : Setup Unit where
  locators := [.ofEntries Int32.maxValue [("a", "located")], .ofEntries 100 [("b", "lower")]]
  templates := [("a", "added"), ("b", "first"), ("b", "second")]

theorem load_added_template_second :
    crowdedSetup.templates.reverse.lookup "b" = some "second" ∧
      (crowdedSetup.toEngine.load "b").outcome (crowdedSetup.toEngine.emptyStore ()) =
        ((crowdedSetup.toEngine.compileSource "b" "second").map some,
          crowdedSetup.toEngine.emptyStore ()) := by
  have hadded : crowdedSetup.templates.reverse.lookup "b" = some "second" := by decide
  exact ⟨hadded, (load_added_template hadded (crowdedSetup.toEngine.emptyStore ())).1⟩

/-- The locator of the highest priority is asked before the template of the same name. -/
theorem not_added_template_first :
    ¬ ∀ (setup : Setup Unit) (name source : String) (store : Store Unit),
      setup.templates.reverse.lookup name = some source →
        ((setup.toEngine.load name).outcome store).1 =
          (setup.toEngine.compileSource name source).map some := by
  intro h
  have hadded : crowdedSetup.templates.reverse.lookup "a" = some "added" := by decide
  have hsame := h crowdedSetup "a" "added" (crowdedSetup.toEngine.emptyStore ()) hadded
  have hload : (crowdedSetup.toEngine.located "a" ()).1 = .ok (some "located") := by
    decide +kernel
  have htokens : tokenize "a" {} "located" = .ok [.literal "located" 1] ∧
      tokenize "a" {} "added" = .ok [.literal "added" 1] := by
    decide +kernel
  have hdelimiters : crowdedSetup.toEngine.compileOptions.delimiters = {} := rfl
  have hlocated : crowdedSetup.toEngine.compileSource "a" "located" =
      .ok ⟨"a", [.text "located"]⟩ := by
    rw [Engine.compileSource, compile, hdelimiters, htokens.1]
    rfl
  have hsecond : crowdedSetup.toEngine.compileSource "a" "added" = .ok ⟨"a", [.text "added"]⟩ := by
    rw [Engine.compileSource, compile, hdelimiters, htokens.2]
    rfl
  rw [Engine.load_outcome, show (crowdedSetup.toEngine.emptyStore ()).world = () from rfl, hload,
    Engine.compileFound, hlocated, hsecond] at hsame
  simp [Except.map] at hsame

end Stencil.Setup
