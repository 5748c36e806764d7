import Stencil.Locator
import Stencil.Proofs.Effect

/-! Locators that keep to their answers: one that does, and several that are asked one after the
other. -/

namespace Stencil.Locator

/-- A locator that keeps to its answers in worlds that are alike, and leaves them alike. -/
structure Steady {ω : Type} (alike : ω → ω → Prop) (locator : Locator ω) : Prop where
  locate : ∀ name, (locator.locate name).Steady alike
  identifiers : ∀ world second, alike world second →
    (locator.identifiers.outcome second).1 = (locator.identifiers.outcome world).1 ∧
      alike (locator.identifiers.outcome world).2 (locator.identifiers.outcome second).2
  refresh : ∀ world second, alike world second →
    alike (locator.refresh world) (locator.refresh second)

theorem steady_ofEntries {ω : Type} (alike : ω → ω → Prop) (priority : Int32)
    (entries : List (String × String)) : (ofEntries priority entries).Steady alike where
  locate name := Effect.steady_pure (entries.lookup name)
  identifiers _ _ h := ⟨rfl, h⟩
  refresh _ _ h := h

variable {ω : Type} {alike : ω → ω → Prop} {locators : List (Locator ω)}

theorem firstSource_append (name : String) (locators later : List (Locator ω)) (world : ω) :
    (firstSource name (locators ++ later)).outcome world =
      match (firstSource name locators).outcome world with
      | (.ok none, after) => (firstSource name later).outcome after
      | found => found := by
  induction locators generalizing world with
  | nil => rfl
  | cons locator others ih =>
    rw [List.cons_append, firstSource, firstSource, Effect.outcome_bind, Effect.outcome_bind]
    rcases (locator.locate name).outcome world with ⟨error | _ | source, after⟩
    · rfl
    · exact ih after
    · rfl

def Missed (name : String) (locators : List (Locator ω)) (world after : ω) : Prop :=
  Effect.Runs (fun locator => locator.locate name) locators (locators.map fun _ => none) world after

theorem Missed.firstSource_eq_none {name : String} {world after : ω}
    (h : Missed name locators world after) :
    (firstSource name locators).outcome world = (.ok none, after) := by
  induction locators generalizing world with
  | nil =>
    cases h
    rfl
  | cons locator later ih =>
    obtain ⟨-⟩ | ⟨hfirst, hlater⟩ := h
    rw [firstSource, Effect.outcome_bind, hfirst]
    exact ih hlater

/-- The first locator that does not say that it has nothing decides. -/
theorem Missed.firstSource_eq {name : String} {earlier : List (Locator ω)} {locator : Locator ω}
    {world between after : ω} {answer : Except Error (Option String)}
    (h : Missed name earlier world between)
    (hasked : (locator.locate name).outcome between = (answer, after))
    (hdecides : answer ≠ .ok none)
    (later : List (Locator ω)) :
    (firstSource name (earlier ++ locator :: later)).outcome world = (answer, after) := by
  rw [firstSource_append, h.firstSource_eq_none]
  simp only
  rw [firstSource, Effect.outcome_bind, hasked]
  rcases answer with error | _ | source
  · rfl
  · contradiction
  · rfl

theorem missed_or_decided (name : String) (locators : List (Locator ω)) (world : ω) :
    (∃ after, Missed name locators world after) ∨
      ∃ earlier locator later between answer after, locators = earlier ++ locator :: later ∧
        Missed name earlier world between ∧
        (locator.locate name).outcome between = (answer, after) ∧ answer ≠ .ok none := by
  induction locators generalizing world with
  | nil => exact .inl ⟨world, .nil world⟩
  | cons first others ih =>
    by_cases hmiss : ((first.locate name).outcome world).1 = .ok none
    · have hfirst : (first.locate name).outcome world =
          (.ok none, ((first.locate name).outcome world).2) := Prod.ext hmiss rfl
      rcases ih ((first.locate name).outcome world).2 with ⟨after, hothers⟩ |
        ⟨earlier, locator, later, between, answer, after, rfl, hearlier, hasked, hdecides⟩
      · exact .inl ⟨after, .cons hfirst hothers⟩
      · exact .inr ⟨first :: earlier, locator, later, between, answer, after, rfl,
          .cons hfirst hearlier, hasked, hdecides⟩
    · exact .inr ⟨[], first, others, world, _, _, rfl, .nil world, rfl, hmiss⟩

/-- The names that some locators list are put together, in the order of the locators. -/
theorem allIdentifiers_of_runs {lists : List (List String)} {world after : ω}
    (h : Effect.Runs identifiers locators lists world after) :
    (allIdentifiers locators).outcome world = (.ok lists.flatten, after) := by
  induction h with
  | nil state => rfl
  | cons hfirst _ ih =>
    rw [allIdentifiers, Effect.outcome_bind, hfirst]
    simp [Effect.outcome_map, ih, Except.map]

theorem allIdentifiers_of_fails {earlier later : List (Locator ω)} {locator : Locator ω}
    {lists : List (List String)} {world between after : ω} {error : Error}
    (hearlier : Effect.Runs identifiers earlier lists world between)
    (hfailed : locator.identifiers.outcome between = (.error error, after)) :
    (allIdentifiers (earlier ++ locator :: later)).outcome world = (.error error, after) := by
  induction hearlier with
  | nil state =>
    rw [List.nil_append, allIdentifiers, Effect.outcome_bind, hfailed]
  | cons hfirst _ ih =>
    rw [List.cons_append, allIdentifiers, Effect.outcome_bind, hfirst]
    simp [Effect.outcome_map, ih hfailed, Except.map]

/-- Asked in order, the first locator that has a source of this name has this one. -/
inductive FirstHit (name : String) : List (Locator ω) → ω → String → Prop where
  | here {locator : Locator ω} {world : ω} {source : String}
      (hhit : ((locator.locate name).outcome world).1 = .ok (some source))
      (later : List (Locator ω)) : FirstHit name (locator :: later) world source
  | later {locator : Locator ω} {world after : ω} {source : String} {later : List (Locator ω)}
      (hmiss : (locator.locate name).outcome world = (.ok none, after))
      (hlater : FirstHit name later after source) : FirstHit name (locator :: later) world source

theorem firstHit_of_firstSource {name : String} {world : ω} {source : String}
    (h : ((firstSource name locators).outcome world).1 = .ok (some source)) :
    FirstHit name locators world source := by
  induction locators generalizing world with
  | nil => cases h
  | cons locator later ih =>
    rw [firstSource, Effect.outcome_bind] at h
    rcases hasked : (locator.locate name).outcome world with ⟨error | _ | found, after⟩ <;>
      rw [hasked] at h
    · cases h
    · exact .later hasked (ih h)
    · obtain rfl : found = source := by
        simpa using h
      exact .here (congrArg Prod.fst hasked) later

theorem steady_firstSource (hsteady : ∀ locator ∈ locators, locator.Steady alike) (name : String) :
    (firstSource name locators).Steady alike := by
  induction locators with
  | nil => exact Effect.steady_pure none
  | cons locator later ih =>
    have hlater := ih fun other hother => hsteady other (by simp [hother])
    refine ((hsteady locator (by simp)).locate name).bind fun found => ?_
    cases found with
    | none => exact hlater
    | some source => exact Effect.steady_pure (some source)

theorem matches_allIdentifiers (hsteady : ∀ locator ∈ locators, locator.Steady alike) :
    Effect.Matches alike (fun a b => b = a) (allIdentifiers locators)
      (allIdentifiers locators) := by
  induction locators with
  | nil => exact Effect.matches_pure rfl
  | cons locator later ih =>
    have hfirst : Effect.Matches alike (fun a b => b = a) locator.identifiers
        locator.identifiers := by
      intro world second halike
      obtain ⟨hnames, hafter⟩ := (hsteady locator (by simp)).identifiers world second halike
      exact ⟨agree_eq hnames, hafter⟩
    refine hfirst.bind ?_
    rintro names _ rfl
    refine (ih fun other hother => hsteady other (by simp [hother])).bind ?_
    rintro others _ rfl
    exact Effect.matches_pure rfl

theorem alike_refreshAll (hsteady : ∀ locator ∈ locators, locator.Steady alike)
    {world second : ω} (h : alike world second) :
    alike (refreshAll locators world) (refreshAll locators second) := by
  induction locators generalizing world second with
  | nil => exact h
  | cons locator later ih =>
    have hfirst := (hsteady locator (by simp)).refresh world second h
    exact ih (fun other hother => hsteady other (by simp [hother])) hfirst

end Stencil.Locator
