import Stencil.Proofs.Engine.Find
import Stencil.Proofs.Ordered
import Stencil.Proofs.Rendering.Limits
import Stencil.Proofs.Rendering.Recursion

/-! Engines with the standard helpers render every template within the two limits, in whatever way
the templates include each other. -/

namespace Stencil

section Compiling

variable {registry : Registry} {template : String}

theorem isLimit_of_tokenize {delimiters : Delimiters} {source : String} {error : Error}
    (h : tokenize template delimiters source = .error error) : error.isLimit = false := by
  simp only [tokenize, Lexing.error?] at h
  cases hfault : (Lexing.ofSource delimiters source).fault with
  | none => simp [hfault] at h
  | some fault =>
    simp only [hfault, Option.map_some, Except.error.injEq] at h
    exact h ▸ rfl

theorem Tree.Rejects.isLimit (htrusted : ∀ entry ∈ registry.helpers, entry.2.Trusted) {tree : Tree}
    {item : Item} {error : Error} (h : Rejects registry template tree item error) :
    error.isLimit = false := by
  cases h with
  | unopened root name line indent => rfl
  | misnamed root outer hname line indent => rfl
  | secondElse root outer hhelper hdivided line indent => rfl
  | unreadable hcall hcalled hread indent => rfl
  | invalid hcall hcalled hwellFormed hinvalid indent =>
    have hget := (Registry.called?_eq_some hcalled).2
    exact (htrusted _ (Registry.get?_eq_some hget).2).checks _ _ hinvalid

theorem Tree.isLimit_of_foldlM (htrusted : ∀ entry ∈ registry.helpers, entry.2.Trusted)
    {items : List Item} {tree : Tree} {error : Error}
    (h : items.foldlM (addItem registry template) tree = .error error) : error.isLimit = false := by
  induction items generalizing tree with
  | nil => contradiction
  | cons item later ih =>
    rw [List.foldlM_cons] at h
    cases hitem : addItem registry template tree item with
    | error fault =>
      rw [hitem] at h
      obtain rfl := Except.error.inj h
      exact (rejects_of_addItem hitem).isLimit htrusted
    | ok next =>
      rw [hitem] at h
      exact ih h

theorem Tree.isLimit_of_ofItems (htrusted : ∀ entry ∈ registry.helpers, entry.2.Trusted)
    {items : List Item} {error : Error} (h : ofItems registry template items = .error error) :
    error.isLimit = false := by
  unfold ofItems at h
  cases hread : items.foldlM (addItem registry template) {} with
  | error fault =>
    rw [hread] at h
    obtain rfl := Except.error.inj h
    exact isLimit_of_foldlM htrusted hread
  | ok tree =>
    rw [hread] at h
    obtain ⟨root, _ | ⟨block, outer⟩⟩ := tree
    · contradiction
    · exact Except.error.inj h ▸ rfl

/-- Compiling fails for what stands in the source, and for no limit. -/
theorem isLimit_of_compile {options : CompileOptions}
    (htrusted : ∀ entry ∈ options.registry.helpers, entry.2.Trusted) {name source : String}
    {error : Error} (h : compile options name source = .error error) : error.isLimit = false := by
  unfold compile at h
  cases htokens : tokenize name options.delimiters source with
  | error fault =>
    rw [htokens] at h
    obtain rfl := Except.error.inj h
    exact isLimit_of_tokenize htokens
  | ok tokens =>
    cases hsegments : Tree.ofItems options.registry name
        (itemsOf options.registry options.trimLines tokens) with
    | error fault =>
      simp only [htokens, bind, Except.bind, hsegments, Except.error.injEq] at h
      exact h ▸ Tree.isLimit_of_ofItems htrusted hsegments
    | ok segments =>
      simp only [htokens, bind, Except.bind, hsegments, pure, Except.pure] at h
      contradiction

end Compiling

/-- A locator that fails for reasons of its own, and not with the error for a limit of rendering. -/
def Locator.Plain {ω : Type} (locator : Locator ω) : Prop :=
  ∀ name world error, ((locator.locate name).outcome world).1 = .error error → error.isLimit = false

theorem Locator.plain_ofEntries {ω : Type} (priority : Int32) (entries : List (String × String)) :
    (Locator.ofEntries priority entries : Locator ω).Plain := by
  intro name world error h
  contradiction

theorem Locator.isLimit_of_firstSource {ω : Type} {locators : List (Locator ω)}
    (hplain : ∀ locator ∈ locators, locator.Plain) {name : String} {world : ω} {error : Error}
    (h : ((firstSource name locators).outcome world).1 = .error error) : error.isLimit = false := by
  induction locators generalizing world with
  | nil => contradiction
  | cons locator later ih =>
    rw [firstSource, Effect.outcome_bind] at h
    rcases hasked : (locator.locate name).outcome world with ⟨fault | _ | source, behind⟩
    · simp only [hasked, Except.error.injEq] at h
      exact hplain locator (by simp) name world error (by rw [hasked, h])
    · simp only [hasked] at h
      exact ih (fun other hother => hplain other (by simp [hother])) h
    · simp [hasked] at h

namespace Engine

open Render

variable {ω σ : Type}

def Compiles (engine : Engine ω) (template : Template) : Prop :=
  ∃ name source, engine.compileSource name source = .ok template

def Sound (engine : Engine ω) (store : Store ω) : Prop :=
  ∀ entry ∈ store.cache.entries, engine.Compiles entry.2.template

theorem sound_emptyStore (engine : Engine ω) (world : ω) :
    engine.Sound (engine.emptyStore world) := by
  simp [Sound, emptyStore]

variable {engine : Engine ω}

theorem compileFound_eq_some {name : String} {located : Except Error (Option String)}
    {template : Template} (h : engine.compileFound name located = .ok (some template)) :
    engine.Compiles template := by
  obtain ⟨source, -, hcompile⟩ := compileFound_eq_ok_iff.mp h
  exact ⟨name, source, hcompile⟩

/-- Finding templates keeps a store sound, and finds what the engine makes of some source. -/
theorem Sound.find {store : Store ω} (h : engine.Sound store) (name : String) :
    engine.Sound ((engine.find name).outcome store).2 ∧
      ∀ found, ((engine.find name).outcome store).1 = .ok (some found) →
        engine.Compiles found.template := by
  rw [find_outcome]
  cases hcached : engine.cached? name store with
  | some found =>
    refine ⟨h, ?_⟩
    rintro _ ⟨⟩
    exact h _ (mem_of_cached? hcached)
  | none =>
    simp only []
    rcases hfound : engine.compileFound name (engine.located name store.world).1 with
      error | _ | template
    · exact ⟨h, by simp⟩
    · exact ⟨h, by simp⟩
    · have hcompiles := compileFound_eq_some hfound
      constructor
      · intro entry hentry
        rcases mem_keep hentry with rfl | hold
        · exact hcompiles
        · exact h entry hold
      · rintro _ ⟨⟩
        exact hcompiles

theorem isLimit_of_find (htrusted : ∀ entry ∈ engine.registry.helpers, entry.2.Trusted)
    (hplain : ∀ locator ∈ engine.locators, locator.Plain) {name : String} {store : Store ω}
    {error : Error} (h : ((engine.find name).outcome store).1 = .error error) :
    error.isLimit = false := by
  rw [find_outcome] at h
  cases hcached : engine.cached? name store with
  | some found => simp [hcached] at h
  | none =>
    simp only [hcached] at h
    rcases hlocated : (engine.located name store.world).1 with fault | _ | source
    · simp only [hlocated, compileFound, Except.error.injEq] at h
      exact h ▸ Locator.isLimit_of_firstSource hplain hlocated
    · simp [hlocated, compileFound] at h
    · rcases hcompile : engine.compileSource name source with fault | template
      · simp only [hlocated, compileFound, hcompile, Except.map, Except.error.injEq] at h
        exact h ▸ isLimit_of_compile htrusted hcompile
      · simp [hlocated, compileFound, hcompile, Except.map] at h

theorem Sound.find_setting {store : Store ω} (h : engine.Sound store) (name : String) :
    engine.Sound ((engine.setting.find name).outcome store).2 ∧
      ∀ template, ((engine.setting.find name).outcome store).1 = .ok (some template) →
        engine.Compiles template := by
  obtain ⟨hafter, hcompiles⟩ := h.find name
  rw [Engine.find_setting]
  refine ⟨hafter, fun template htemplate => ?_⟩
  rcases hfind : ((engine.find name).outcome store).1 with error | _ | found
  · simp [hfind, Except.map] at htemplate
  · simp [hfind, Except.map] at htemplate
  · simp only [hfind, Except.map, Option.map_some, Except.ok.injEq, Option.some.injEq] at htemplate
    exact htemplate ▸ hcompiles found hfind

/-- What an engine finds calls only the helpers that it has. -/
theorem provides {allowed : Helper → Prop}
    (hallowed : ∀ entry ∈ engine.registry.helpers, allowed entry.2) :
    engine.setting.Provides allowed engine.Sound where
  keeps name store hsound := (hsound.find_setting name).1
  finds name store template hsound h := by
    obtain ⟨given, source, hcompile⟩ := (hsound.find_setting name).2 template h
    exact allCallOnly_of_compile hallowed hcompile

theorem supplies (htrusted : ∀ entry ∈ engine.registry.helpers, entry.2.Trusted)
    (hplain : ∀ locator ∈ engine.locators, locator.Plain) :
    engine.setting.Supplies engine.Sound where
  toProvides := provides htrusted
  fails name store error _ h := by
    rw [find_setting] at h
    rcases hfind : ((engine.find name).outcome store).1 with fault | answer
    · simp only [hfind, Except.map, Except.error.injEq] at h
      exact h ▸ isLimit_of_find htrusted hplain hfind
    · simp [hfind, Except.map] at h

theorem scopeLimit_pos {config : Config} (h : config.validate = .ok ()) :
    0 < config.scopeLimit := by
  have hnone : config.fault? = none := by
    unfold Config.validate at h
    split at h
    · contradiction
    · assumption
  unfold Config.fault? at hnone
  split at hnone
  · contradiction
  · split at hnone
    · contradiction
    · split at hnone
      · contradiction
      · exact Nat.pos_of_ne_zero (by simpa using hnone)

/-- A usable engine with standard helpers renders its templates within its limits. However its
templates include each other, the recursion through inclusions is over before it is one level deeper
than the limit. At no moment are more inclusions active or more scopes open than the limits allow.
An error for a limit is that of a step on the way, which opens a scope where as many as may be are
open, or includes a template that exists where as many as may be are active. -/
theorem renders_within_limits {engine : Engine ω} (hvalid : engine.config.validate = .ok ())
    (hhelpers : ∀ entry ∈ engine.registry.helpers, entry.2.IsBuiltin)
    (hplain : ∀ locator ∈ engine.locators, locator.Plain) {template : Template}
    (htemplate : engine.Compiles template) {store : Store ω} (hstore : engine.Sound store)
    (data : Value) (sink : Sink σ) (output : σ) :
    let start : Rendering (Store ω) σ := ⟨.ofRoot template.name data, store, output⟩
    let rendering := engine.renderIn sink template.segments
    (∀ (bottom : Renderer (Store ω)) (count : Nat), engine.config.inclusionLimit < count →
      (unrolled engine.setting bottom count σ sink template.segments).outcome start =
        rendering.outcome start) ∧
    (∀ moment ∈ rendering.moments start,
      moment.scope.inclusions.length ≤ engine.config.inclusionLimit ∧
        moment.scope.frames.length ≤ engine.config.scopeLimit) ∧
    (∀ name limit, ((engine.renderTemplate sink template data).outcome (store, output)).1 =
        .error (.recursionLimit name limit) →
      Refuses engine.setting rendering start (.recursionLimit name limit)) ∧
    engine.Sound ((engine.renderTemplate sink template data).outcome (store, output)).2.1 := by
  intro start rendering
  have htrusted : ∀ entry ∈ engine.registry.helpers, entry.2.Trusted :=
    fun entry hentry => (hhelpers entry hentry).trusted
  have hcalls : Segment.AllCallOnly Helper.Trusted template.segments := by
    obtain ⟨name, source, hcompile⟩ := htemplate
    exact allCallOnly_of_compile htrusted hcompile
  have hwithin : WithinLimits engine.setting start.scope :=
    ⟨scopeLimit_pos hvalid, Nat.zero_le _⟩
  have hguided := limited_all (supplies htrusted hplain) (Refuses engine.setting rendering start)
    sink hcalls start hwithin hstore rfl
  obtain ⟨hmoments, hlast⟩ := along_iff.mp (hguided.along fun _ hrefuses => hrefuses)
  have hend := hmoments _ (outcome_mem_moments rendering start)
  refine ⟨?_, ?_, ?_, hend.2⟩
  · intro bottom count hcount
    exact outcome_unrolled engine.setting sink template.segments (Nat.zero_le _) bottom hcount
  · intro moment hmoment
    obtain ⟨hframes, hinclusions⟩ := (hmoments moment hmoment).1
    exact ⟨hinclusions, hframes⟩
  · intro name limit herror
    exact hlast.2 _ herror rfl

def loopSetup : Setup Unit where
  config := { inclusionLimit := 2 }
  templates := [("loop", "\x7b\x7b> loop\x7d\x7d")]
  registry := .builtin

def loopTemplate : Template := ⟨"loop", [.inclusion "loop" "" 1]⟩

theorem renders_within_limits_loop :
    let engine := loopSetup.toEngine
    let store := engine.emptyStore ()
    ((engine.renderTemplate .text loopTemplate .null).outcome (store, "")).1 =
        .error (.recursionLimit "loop" 2) ∧
      Refuses engine.setting (engine.renderIn .text loopTemplate.segments)
        ⟨.ofRoot "loop" .null, store, ""⟩ (.recursionLimit "loop" 2) := by
  intro engine store
  have hvalid : engine.config.validate = .ok () := by decide
  have hhelpers : ∀ entry ∈ engine.registry.helpers, entry.2.IsBuiltin :=
    fun _ => List.mem_map_of_mem
  have hplain : ∀ locator ∈ engine.locators, locator.Plain := by
    intro locator hlocator
    obtain rfl := List.mem_singleton.mp hlocator
    exact Locator.plain_ofEntries _ _
  have htemplate : engine.Compiles loopTemplate := by
    have htokens : tokenize "loop" {} "\x7b\x7b> loop\x7d\x7d" =
        .ok [.tag .inclusion "loop" 1] := by
      decide +kernel
    refine ⟨"loop", "\x7b\x7b> loop\x7d\x7d", ?_⟩
    rw [compileSource, compile, show engine.compileOptions.delimiters = {} from rfl, htokens]
    rfl
  have herror : ((engine.renderTemplate .text loopTemplate .null).outcome (store, "")).1 =
      .error (.recursionLimit "loop" 2) := by
    decide +kernel
  obtain ⟨-, -, hrefuses, -⟩ := renders_within_limits hvalid hhelpers hplain htemplate
    (sound_emptyStore engine ()) .null .text ""
  exact ⟨herror, hrefuses "loop" 2 herror⟩

end Engine

end Stencil
