import Stencil.Cache
import Stencil.Compile
import Stencil.Helper.Builtin
import Stencil.Locator
import Stencil.Render

/-! Engines: settings, locators, strategies for lookups and helpers, put together once, and what can
be asked of them in a world that changes. -/

namespace Stencil

def inlineTemplateName : String := "<inline>"

abbrev DataSource := Except String Json

def DataSource.toValue : DataSource → Except Error Value
  | .error reason => .error (.serialization reason)
  | .ok data => .ok (.ofJson data)

structure Setup (ω : Type) where
  config : Config := {}
  locators : List (Locator ω) := []
  /-- Templates by name; of several with one name the last stays. -/
  templates : List (String × String) := []
  resolvers : List RankedResolver := []
  /-- Values that every template sees; of several with one name the last stays. -/
  globals : List (String × Value) := []
  registry : Registry := {}
  transform : FunctionId → Value → Value := fun _ _ => .null

structure Engine (ω : Type) where
  config : Config
  /-- In the order in which they are asked. -/
  locators : List (Locator ω)
  resolvers : Chain
  registry : Registry
  transform : FunctionId → Value → Value

namespace Setup

variable {ω : Type}

/-- The strategies of an engine: the standard ones, its own, and its global data. -/
def chain (setup : Setup ω) : Chain :=
  let own := Chain.standard.addAll setup.resolvers
  if setup.globals.isEmpty then own
  else own.add Resolver.globalDataPriority (.globalData (sortEntries setup.globals))

/-- The locators of an engine in the order added, its own templates last. -/
def allLocators (setup : Setup ω) : List (Locator ω) :=
  if setup.templates.isEmpty then setup.locators
  else setup.locators ++ [.ofEntries Int32.maxValue (sortEntries setup.templates)]

def toEngine (setup : Setup ω) : Engine ω where
  config := setup.config
  locators := sortRanked Locator.priority setup.allLocators
  resolvers := setup.chain
  registry := setup.registry
  transform := setup.transform

end Setup

namespace Engine

variable {ω : Type}

def emptyStore (engine : Engine ω) (world : ω) : Store ω where
  world := world
  cache := { expiration := engine.config.cacheExpiration }

def compileOptions (engine : Engine ω) : CompileOptions :=
  ⟨engine.config.delimiters, engine.registry, engine.config.trimLines⟩

def compileSource (engine : Engine ω) (name source : String) : Except Error Template :=
  compile engine.compileOptions name source

def load (engine : Engine ω) (name : String) : Effect (Store ω) (Option Template) := do
  match ← (Locator.firstSource name engine.locators).onPart Store.worldPart with
  | none => pure none
  | some source => some <$> Effect.ofExcept (engine.compileSource name source)

def find (engine : Engine ω) (name : String) : Effect (Store ω) (Option Instance) := do
  if engine.config.cacheEnabled then
    Store.getOrCompile name (engine.load name)
  else
    match ← engine.load name with
    | none => pure none
    | some template => some <$> Store.compiled template

def get (engine : Engine ω) (name : String) : Effect (Store ω) Instance := do
  match ← engine.find name with
  | none => throw (.templateNotFound name)
  | some found => pure found

def setting (engine : Engine ω) : Setting (Store ω) where
  config := engine.config
  resolvers := engine.resolvers
  transform := engine.transform
  find := fun name => do
    let found ← engine.find name
    pure (found.map Instance.template)

/-- Renders segments in given scopes, which stay with the output. -/
def renderIn {σ : Type} (engine : Engine ω) (sink : Sink σ) (segments : List Segment) :
    Render (Store ω) σ Unit :=
  Render.all engine.setting sink segments

def renderTemplate {σ : Type} (engine : Engine ω) (sink : Sink σ) (template : Template)
    (data : Value) : Effect (Store ω × σ) Unit := fun (store, output) =>
  let (result, state) :=
    (engine.renderIn sink template.segments).outcome
      ⟨.ofRoot template.name data, store, output⟩
  (result, (state.store, state.output))

def storePart {σ : Type} : Part (Store ω × σ) (Store ω) := ⟨Prod.fst, fun store s => (store, s.2)⟩

def renderTo {σ : Type} (engine : Engine ω) (sink : Sink σ) (name : String) (data : DataSource) :
    Effect (Store ω × σ) Unit := do
  let found ← (engine.get name).onPart storePart
  let value ← Effect.ofExcept data.toValue
  engine.renderTemplate sink found.template value

def textOf (engine : Engine ω) (template : Template) (data : Value) :
    Effect (Store ω) String := fun store =>
  let (result, store, text) := (engine.renderTemplate .text template data).outcome (store, "")
  (result.map fun _ => text, store)

def renderValue (engine : Engine ω) (name : String) (data : Value) : Effect (Store ω) String := do
  let found ← engine.get name
  engine.textOf found.template data

/-- The text of the template of a name, for data that has to be read first. -/
def render (engine : Engine ω) (name : String) (data : DataSource) : Effect (Store ω) String := do
  let value ← Effect.ofExcept data.toValue
  engine.renderValue name value

/-- The text of a source that is compiled for this one rendering. -/
def renderSource (engine : Engine ω) (source : String) (data : DataSource) :
    Effect (Store ω) String := do
  let template ← Effect.ofExcept (engine.compileSource inlineTemplateName source)
  let value ← Effect.ofExcept data.toValue
  engine.textOf template value

def getAll (engine : Engine ω) : List String → Effect (Store ω) Unit
  | [] => pure ()
  | name :: later => do
    let _ ← engine.get name
    getAll engine later

/-- Compiles every template that the locators name, and counts them. -/
def precompileAll (engine : Engine ω) : Effect (Store ω) Nat := do
  let names ← (Locator.allIdentifiers engine.locators).onPart Store.worldPart
  let distinct := sortNames names
  engine.getAll distinct
  pure distinct.length

def invalidate (store : Store ω) (matched : String → Bool) : Nat × Store ω :=
  let (count, cache) := store.cache.invalidate matched
  (count, { store with cache })

def clearCache (store : Store ω) : Store ω := { store with cache := store.cache.clear }

/-- Lets every locator forget what it learned, and empties the cache. -/
def refresh (engine : Engine ω) (store : Store ω) : Store ω :=
  clearCache { store with world := Locator.refreshAll engine.locators store.world }

def describe (engine : Engine ω) (store : Store ω) : String :=
  let parts := [
    ("config", engine.config.describe),
    ("locators", Config.natText engine.locators.length),
    ("resolvers", engine.resolvers.describe),
    ("helpers", engine.registry.describe),
    ("cached", Config.natText store.cache.size)]
  "Engine \x7b " ++
    String.intercalate ", " (parts.map fun (name, text) => name ++ ": " ++ text) ++ " \x7d"

end Engine

/-- Builds an engine in a world. An unusable configuration is an error, and so is, if everything is
to be compiled at once, a template that fails to compile. -/
def Setup.build {ω : Type} (setup : Setup ω) (world : ω) : Except Error (Engine ω × Store ω) := do
  setup.config.validate
  let engine := setup.toEngine
  let store := engine.emptyStore world
  if setup.config.precompile then
    let (result, store) := engine.precompileAll.outcome store
    let _ ← result
    pure (engine, store)
  else pure (engine, store)

end Stencil
