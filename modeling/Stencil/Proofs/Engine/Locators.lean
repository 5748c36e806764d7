import Stencil.Proofs.Engine.Find
import Stencil.Proofs.Engine.Requests
import Stencil.Proofs.Locator

/-! The order in which an engine asks its locators, and which of their answers it takes. -/

namespace Stencil

def Setup.ownLocators {ω : Type} (setup : Setup ω) : List (Locator ω) :=
  if setup.templates.isEmpty then []
  else [.ofEntries Int32.maxValue (sortEntries setup.templates)]

theorem Setup.allLocators_eq {ω : Type} (setup : Setup ω) :
    setup.allLocators = setup.locators ++ setup.ownLocators := by
  rw [allLocators, ownLocators]
  split
  · rw [List.append_nil]
  · rfl

namespace Engine

open Locator (Missed)
open Effect (Runs)

variable {ω : Type} {engine : Engine ω} {name : String}

inductive Loads (engine : Engine ω) (name : String) (world : ω) :
    Except Error (Option Template) → ω → Prop where
  | missed {after : ω} (hall : Missed name engine.locators world after) :
      Loads engine name world (.ok none) after
  | found {earlier later : List (Locator ω)} {locator : Locator ω} {between after : ω}
      {source : String} (hsplit : engine.locators = earlier ++ locator :: later)
      (hearlier : Missed name earlier world between)
      (hasked : (locator.locate name).outcome between = (.ok (some source), after)) :
      Loads engine name world ((engine.compileSource name source).map some) after
  | failed {earlier later : List (Locator ω)} {locator : Locator ω} {between after : ω}
      {error : Error} (hsplit : engine.locators = earlier ++ locator :: later)
      (hearlier : Missed name earlier world between)
      (hasked : (locator.locate name).outcome between = (.error error, after)) :
      Loads engine name world (.error error) after

/-- A decided answer is compiled, or is the failure. -/
theorem loads_of_decided {earlier later : List (Locator ω)} {locator : Locator ω}
    {world between after : ω} {answer : Except Error (Option String)}
    (hsplit : engine.locators = earlier ++ locator :: later)
    (hearlier : Missed name earlier world between)
    (hasked : (locator.locate name).outcome between = (answer, after))
    (hdecides : answer ≠ .ok none) :
    engine.Loads name world (engine.compileFound name answer) after := by
  rcases answer with error | _ | source
  · exact .failed hsplit hearlier hasked
  · contradiction
  · exact .found hsplit hearlier hasked

theorem Loads.load_outcome {world after : ω} {result : Except Error (Option Template)}
    (h : engine.Loads name world result after) (store : Store ω) (hworld : store.world = world) :
    (engine.load name).outcome store = (result, { store with world := after }) := by
  subst hworld
  rw [Engine.load_outcome, located]
  cases h with
  | missed hall => rw [hall.firstSource_eq_none, compileFound]
  | found hsplit hearlier hasked =>
    rw [hsplit, hearlier.firstSource_eq hasked (by simp), compileFound]
  | failed hsplit hearlier hasked =>
    rw [hsplit, hearlier.firstSource_eq hasked (by simp), compileFound]

theorem loads_load (engine : Engine ω) (name : String) (store : Store ω) :
    engine.Loads name store.world ((engine.load name).outcome store).1
      ((engine.load name).outcome store).2.world := by
  rcases Locator.missed_or_decided name engine.locators store.world with ⟨after, hall⟩ |
    ⟨earlier, locator, later, between, answer, after, hsplit, hearlier, hasked, hdecides⟩
  · have hloads : engine.Loads name store.world _ after := .missed hall
    rw [hloads.load_outcome store rfl]
    exact hloads
  · have hloads := loads_of_decided hsplit hearlier hasked hdecides
    rw [hloads.load_outcome store rfl]
    exact hloads

theorem load_outcome_iff {store after : Store ω} {result : Except Error (Option Template)} :
    (engine.load name).outcome store = (result, after) ↔
      ∃ world, engine.Loads name store.world result world ∧ after = { store with world } := by
  constructor
  · intro h
    have hloads := loads_load engine name store
    have houtcome := hloads.load_outcome store rfl
    rw [h] at hloads houtcome
    exact ⟨_, hloads, (Prod.mk.inj houtcome).2⟩
  · rintro ⟨world, hloads, rfl⟩
    exact hloads.load_outcome store rfl

/-- Nothing is found exactly if all locators have nothing. -/
theorem load_eq_none_iff {store : Store ω} :
    ((engine.load name).outcome store).1 = .ok none ↔
      ∃ after, Missed name engine.locators store.world after := by
  constructor
  · intro h
    have hloads := loads_load engine name store
    rw [h] at hloads
    generalize hresult : (.ok none : Except Error (Option Template)) = result at hloads
    cases hloads with
    | missed hall => exact ⟨_, hall⟩
    | @found _ _ _ _ _ source _ _ _ =>
      cases hcompile : engine.compileSource name source <;>
        simp [hcompile, Except.map] at hresult
    | failed => contradiction
  · rintro ⟨after, hall⟩
    have hloads : engine.Loads name store.world _ after := .missed hall
    rw [hloads.load_outcome store rfl]

/-- The names of some lists, each of them once and in ascending order. -/
structure Distinct (lists : List (List String)) (names : List String) : Prop where
  ascending : names.Pairwise (· < ·)
  mem_iff : ∀ name, name ∈ names ↔ ∃ list ∈ lists, name ∈ list

theorem Distinct.eq_sortNames {lists : List (List String)} {names : List String}
    (h : Distinct lists names) : names = sortNames lists.flatten := by
  refine eq_of_pairwise_of_mem_iff (fun _ _ => String.lt_asymm) h.ascending
    (pairwise_sortNames _) fun name => ?_
  rw [h.mem_iff, mem_sortNames, List.mem_flatten]

theorem distinct_sortNames (lists : List (List String)) :
    Distinct lists (sortNames lists.flatten) where
  ascending := pairwise_sortNames _
  mem_iff name := by rw [mem_sortNames, List.mem_flatten]

theorem getAll_of_runs {names : List String} {instances : List Instance} {store after : Store ω}
    (h : Runs engine.get names instances store after) :
    (engine.getAll names).outcome store = (.ok (), after) := by
  induction h with
  | nil state => rfl
  | cons hfirst _ ih =>
    rw [getAll_cons_outcome, hfirst]
    exact ih

theorem getAll_of_fails {earlier later : List String} {instances : List Instance}
    {store between after : Store ω} {error : Error}
    (hearlier : Runs engine.get earlier instances store between)
    (hfailed : (engine.get name).outcome between = (.error error, after)) :
    (engine.getAll (earlier ++ name :: later)).outcome store = (.error error, after) := by
  induction hearlier with
  | nil state => rw [List.nil_append, getAll_cons_outcome, hfailed]
  | cons hfirst _ ih =>
    rw [List.cons_append, getAll_cons_outcome, hfirst]
    exact ih hfailed

/-- Compiling every template that the locators list. It ends with the number of the names, or at the
first failure, be it to list names or to compile the template of one. -/
inductive Precompiles (engine : Engine ω) (store : Store ω) :
    Except Error Nat → Store ω → Prop where
  | unlisted {earlier later : List (Locator ω)} {locator : Locator ω} {lists : List (List String)}
      {between world : ω} {error : Error} (hsplit : engine.locators = earlier ++ locator :: later)
      (hearlier : Runs Locator.identifiers earlier lists store.world between)
      (hfailed : locator.identifiers.outcome between = (.error error, world)) :
      Precompiles engine store (.error error) { store with world }
  | stopped {lists : List (List String)} {world : ω} {earlier later : List String} {name : String}
      {instances : List Instance} {between after : Store ω} {error : Error}
      (hlisted : Runs Locator.identifiers engine.locators lists store.world world)
      (hnames : Distinct lists (earlier ++ name :: later))
      (hearlier : Runs engine.get earlier instances { store with world } between)
      (hfailed : (engine.get name).outcome between = (.error error, after)) :
      Precompiles engine store (.error error) after
  | compiled {lists : List (List String)} {world : ω} {names : List String}
      {instances : List Instance} {after : Store ω}
      (hlisted : Runs Locator.identifiers engine.locators lists store.world world)
      (hnames : Distinct lists names)
      (hgot : Runs engine.get names instances { store with world } after) :
      Precompiles engine store (.ok names.length) after

theorem Precompiles.precompileAll_outcome {store after : Store ω} {result : Except Error Nat}
    (h : engine.Precompiles store result after) :
    engine.precompileAll.outcome store = (result, after) := by
  rw [Engine.precompileAll_outcome]
  cases h with
  | unlisted hsplit hearlier hfailed =>
    rw [hsplit, Locator.allIdentifiers_of_fails hearlier hfailed]
  | stopped hlisted hnames hearlier hfailed =>
    rw [Locator.allIdentifiers_of_runs hlisted]
    simp only [← hnames.eq_sortNames, getAll_of_fails hearlier hfailed]
    rfl
  | compiled hlisted hnames hgot =>
    rw [Locator.allIdentifiers_of_runs hlisted]
    simp only [← hnames.eq_sortNames, getAll_of_runs hgot]
    rfl

theorem exists_precompiles (engine : Engine ω) (store : Store ω) :
    ∃ result after, engine.Precompiles store result after := by
  rcases Effect.runs_or_fails Locator.identifiers engine.locators store.world with
    ⟨lists, world, hlisted⟩ |
    ⟨earlier, locator, later, lists, between, error, world, hsplit, hearlier, hfailed⟩
  · have hnames := distinct_sortNames lists
    rcases Effect.runs_or_fails engine.get (sortNames lists.flatten) { store with world } with
      ⟨instances, after, hgot⟩ |
      ⟨earlier, name, later, instances, between, error, after, hsplit, hearlier, hfailed⟩
    · exact ⟨_, after, .compiled hlisted hnames hgot⟩
    · rw [hsplit] at hnames
      exact ⟨_, after, .stopped hlisted hnames hearlier hfailed⟩
  · exact ⟨_, _, .unlisted hsplit hearlier hfailed⟩

theorem precompileAll_outcome_iff {store after : Store ω} {result : Except Error Nat} :
    engine.precompileAll.outcome store = (result, after) ↔
      engine.Precompiles store result after := by
  refine ⟨fun h => ?_, Precompiles.precompileAll_outcome⟩
  obtain ⟨other, moved, hprecompiles⟩ := exists_precompiles engine store
  have houtcome := hprecompiles.precompileAll_outcome
  rw [h] at houtcome
  obtain ⟨rfl, rfl⟩ := Prod.mk.inj houtcome
  exact hprecompiles

/-- What is got of a template that is not cached is what loading it comes to. -/
theorem get_of_uncached {store : Store ω} (h : engine.cached? name store = none) :
    ((engine.get name).outcome store).1 =
      match ((engine.load name).outcome store).1 with
      | .error error => .error error
      | .ok none => .error (.templateNotFound name)
      | .ok (some template) => .ok (freshInstance store template) := by
  rw [get_outcome, find_outcome, h, load_outcome]
  rcases engine.compileFound name (engine.located name store.world).1 with
    error | _ | template <;> rfl

/-- An engine asks its locators in their order. To load a template it asks them for its source, up
to the first that has it or fails. To compile all templates it asks them for their names, and to
refresh it tells them to forget what they know. -/
structure AsksInOrder (engine : Engine ω) : Prop where
  load : ∀ name store result after, (engine.load name).outcome store = (result, after) ↔
    ∃ world, engine.Loads name store.world result world ∧ after = { store with world }
  missed : ∀ name store, ((engine.load name).outcome store).1 = .ok none ↔
    ∃ after, Missed name engine.locators store.world after
  /-- Whatever the locators behind the deciding one are, they make no difference. -/
  unasked : ∀ earlier locator later others name store between,
    engine.locators = earlier ++ locator :: later → Missed name earlier store.world between →
    ((locator.locate name).outcome between).1 ≠ .ok none →
    (({ engine with locators := earlier ++ locator :: others } : Engine ω).load name).outcome
        store =
      (engine.load name).outcome store
  precompileAll : ∀ store result after,
    engine.precompileAll.outcome store = (result, after) ↔ engine.Precompiles store result after
  got : ∀ name store, engine.cached? name store = none →
    ((engine.get name).outcome store).1 =
      match ((engine.load name).outcome store).1 with
      | .error error => .error error
      | .ok none => .error (.templateNotFound name)
      | .ok (some template) => .ok (freshInstance store template)
  refresh : ∀ store, (engine.refresh store).world =
    engine.locators.foldl (fun world locator => locator.refresh world) store.world

theorem asksInOrder (engine : Engine ω) : engine.AsksInOrder where
  load _ _ _ _ := load_outcome_iff
  missed _ _ := load_eq_none_iff
  unasked := by
    intro earlier locator later others name store between hsplit hearlier hdecides
    let other : Engine ω := { engine with locators := earlier ++ locator :: others }
    have hsame : other.locators = earlier ++ locator :: others := rfl
    have hloads := loads_of_decided hsplit hearlier rfl hdecides
    have hother := loads_of_decided hsame hearlier rfl hdecides
    rw [hloads.load_outcome store rfl, hother.load_outcome store rfl]
    rfl
  precompileAll _ _ _ := precompileAll_outcome_iff
  got _ _ := get_of_uncached
  refresh _ := rfl

end Engine

namespace Setup

variable {ω : Type}

/-- The locators of an engine stand in descending order of priority, those of equal priority in the
order added, with the templates of the engine, if it has any, as the last one added. The engine asks
them in this order. -/
theorem locators_asked_in_order (setup : Setup ω) :
    StablyDescending Locator.priority (setup.locators ++ setup.ownLocators)
        setup.toEngine.locators ∧
      setup.toEngine.AsksInOrder := by
  have hsorted : setup.toEngine.locators =
      sortRanked Locator.priority (setup.locators ++ setup.ownLocators) := by
    rw [← allLocators_eq, toEngine]
  rw [hsorted]
  exact ⟨stablyDescending_sortRanked Locator.priority _, setup.toEngine.asksInOrder⟩

def notingLocator (label : String) (priority : Int32) (answer : Except Error (Option String)) :
    Locator (List String) where
  priority := priority
  locate _ := fun journal => (answer, journal ++ [label])
  identifiers := pure []

def notedSetup : Setup (List String) where
  locators := [
    notingLocator "full" 1 (.ok (some "hello")),
    notingLocator "broken" 1 (.error (.templateNotFound "a")),
    notingLocator "empty" 5 (.ok none)]
  templates := [("b", "added")]

/-- The locator that fails stands behind another one of its priority, and is not asked. -/
theorem locators_asked_in_order_noted :
    (notedSetup.toEngine.load "a").outcome (notedSetup.toEngine.emptyStore []) =
      ((notedSetup.toEngine.compileSource "a" "hello").map some,
        notedSetup.toEngine.emptyStore ["empty", "full"]) := by
  obtain ⟨-, hasks⟩ := locators_asked_in_order notedSetup
  have hsplit : notedSetup.toEngine.locators =
      [.ofEntries Int32.maxValue [("b", "added")], notingLocator "empty" 5 (.ok none)] ++
        notingLocator "full" 1 (.ok (some "hello")) ::
          [notingLocator "broken" 1 (.error (.templateNotFound "a"))] := rfl
  have hmissed : Locator.Missed "a"
      [.ofEntries Int32.maxValue [("b", "added")], notingLocator "empty" 5 (.ok none)] []
      ["empty"] :=
    .cons rfl (.cons rfl (.nil ["empty"]))
  exact (hasks.load _ _ _ _).mpr ⟨["empty", "full"], .found hsplit hmissed rfl, rfl⟩

end Setup

end Stencil
