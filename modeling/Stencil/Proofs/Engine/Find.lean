import Stencil.Engine
import Stencil.Proofs.Effect
import Stencil.Proofs.Ordered

/-! What an engine answers when it is asked for a template, and what it keeps of the answer. -/

namespace Stencil

theorem Cache.mem_of_get? {cache : Cache} {now : Nat} {name : String} {found : Instance}
    (h : cache.get? now name = some found) : (name, found) ∈ cache.entries := by
  obtain ⟨hlookup, -⟩ := Option.filter_eq_some_iff.mp h
  obtain ⟨earlier, later, hsplit, -⟩ := List.lookup_eq_some_iff.mp hlookup
  simp [hsplit]

namespace Engine

variable {ω : Type}

def compileFound (engine : Engine ω) (name : String) :
    Except Error (Option String) → Except Error (Option Template)
  | .error error => .error error
  | .ok none => .ok none
  | .ok (some source) => (engine.compileSource name source).map some

theorem compileFound_eq_ok_iff {engine : Engine ω} {name : String}
    {found : Except Error (Option String)} {template : Template} :
    engine.compileFound name found = .ok (some template) ↔
      ∃ source, found = .ok (some source) ∧ engine.compileSource name source = .ok template := by
  rcases found with error | _ | source
  · simp [compileFound]
  · simp [compileFound]
  · cases hcompile : engine.compileSource name source <;>
      simp [compileFound, hcompile, Except.map]

def located (engine : Engine ω) (name : String) (world : ω) : Except Error (Option String) × ω :=
  (Locator.firstSource name engine.locators).outcome world

def cached? (engine : Engine ω) (name : String) (store : Store ω) : Option Instance :=
  if engine.config.cacheEnabled then store.cache.get? store.clock name else none

theorem mem_of_cached? {engine : Engine ω} {name : String} {store : Store ω} {found : Instance}
    (h : engine.cached? name store = some found) : (name, found) ∈ store.cache.entries := by
  unfold cached? at h
  split at h
  · exact Cache.mem_of_get? h
  · contradiction

def freshInstance (store : Store ω) (template : Template) : Instance :=
  ⟨store.compilations, store.clock, template⟩

/-- The store behind a compilation, which is kept where templates are cached. -/
def keep (engine : Engine ω) (name : String) (store : Store ω) (template : Template) : Store ω :=
  { store with
    compilations := store.compilations + 1
    cache :=
      if engine.config.cacheEnabled then
        { store.cache with
          entries := insertEntry name (freshInstance store template) store.cache.entries }
      else store.cache }

theorem mem_keep {engine : Engine ω} {name : String} {store : Store ω} {template : Template}
    {entry : String × Instance} (h : entry ∈ (engine.keep name store template).cache.entries) :
    entry = (name, freshInstance store template) ∨ entry ∈ store.cache.entries := by
  unfold keep at h
  simp only at h
  split at h
  · exact mem_insertEntry h
  · exact .inr h

theorem compiled_outcome (store : Store ω) (template : Template) :
    (Store.compiled template).outcome store =
      (.ok (freshInstance store template), { store with compilations := store.compilations + 1 }) :=
  rfl

theorem publish_outcome {name : String} (store : Store ω) (compiled : Instance)
    (h : store.cache.get? store.clock name = none) :
    (Store.publish name compiled).outcome store =
      (.ok compiled, { store with
        cache := { store.cache with
          entries := insertEntry name compiled store.cache.entries } }) := by
  simp only [Effect.outcome, Store.publish, Cache.publish, h]

theorem load_outcome (engine : Engine ω) (name : String) (store : Store ω) :
    (engine.load name).outcome store =
      (engine.compileFound name (engine.located name store.world).1,
        { store with world := (engine.located name store.world).2 }) := by
  rw [load, Effect.outcome_bind, Effect.outcome_onPart]
  have hworld : Store.worldPart.get store = store.world := rfl
  simp only [hworld, located]
  rcases (Locator.firstSource name engine.locators).outcome store.world with
    ⟨error | _ | source, world⟩
  · rfl
  · rfl
  · simp only [Effect.outcome_map, Effect.outcome_ofExcept]
    rfl

/-- A cached template is found as it is. Another one is located and compiled, and is kept where
templates are cached. -/
theorem find_outcome (engine : Engine ω) (name : String) (store : Store ω) :
    (engine.find name).outcome store =
      match engine.cached? name store with
      | some found => (.ok (some found), store)
      | none =>
        let asked : Store ω := { store with world := (engine.located name store.world).2 }
        match engine.compileFound name (engine.located name store.world).1 with
        | .error error => (.error error, asked)
        | .ok none => (.ok none, asked)
        | .ok (some template) =>
          (.ok (some (freshInstance store template)), engine.keep name asked template) := by
  have hload := engine.load_outcome name store
  unfold find cached?
  cases henabled : engine.config.cacheEnabled with
  | false =>
    simp only [Bool.false_eq_true, if_false]
    rw [Effect.outcome_bind, hload]
    rcases engine.compileFound name (engine.located name store.world).1 with error | _ | template
    · rfl
    · rfl
    · simp only [Effect.outcome_map, keep, henabled]
      rfl
  | true =>
    simp only [if_true]
    unfold Store.getOrCompile
    rw [Effect.outcome_bind]
    have hget : (MonadState.get : Effect (Store ω) (Store ω)).outcome store = (.ok store, store) :=
      rfl
    simp only [hget]
    cases hcached : store.cache.get? store.clock name with
    | some found => rfl
    | none =>
      simp only []
      rw [Effect.outcome_bind, hload]
      rcases engine.compileFound name (engine.located name store.world).1 with error | _ | template
      · rfl
      · rfl
      · let asked : Store ω := { store with world := (engine.located name store.world).2 }
        have hpublish := publish_outcome { asked with compilations := asked.compilations + 1 }
          (freshInstance asked template) hcached
        simp only [Effect.outcome_bind, compiled_outcome, Effect.outcome_map]
        rw [hpublish, keep, if_pos henabled]
        rfl

theorem find_setting (engine : Engine ω) (name : String) (store : Store ω) :
    (engine.setting.find name).outcome store =
      (((engine.find name).outcome store).1.map (Option.map Instance.template),
        ((engine.find name).outcome store).2) := by
  have hmap : engine.setting.find name = Option.map Instance.template <$> engine.find name := by
    rw [map_eq_pure_bind]
    rfl
  rw [hmap, Effect.outcome_map]

/-- Where templates are not cached a search compiles what is located. -/
theorem find_setting_of_uncached {engine : Engine ω} (h : engine.config.cacheEnabled = false)
    {name source : String} {store : Store ω} {template : Template}
    (hlocated : (engine.located name store.world).1 = .ok (some source))
    (hcompile : engine.compileSource name source = .ok template) :
    ((engine.setting.find name).outcome store).1 = .ok (some template) := by
  have hcached : engine.cached? name store = none := by simp [cached?, h]
  rw [find_setting, find_outcome, hcached, hlocated]
  simp only [compileFound, hcompile]
  rfl

end Engine

end Stencil
