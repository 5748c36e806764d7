import Mathlib.Logic.Basic
import Stencil.Proofs.Engine.Alike
import Stencil.Proofs.Locator

/-! Caching is invisible: with locators that keep to their answers, an engine that caches templates
and one that does not answer alike to all requests, also to those that fail. -/

namespace Stencil

inductive Request where
  | get (name : String)
  | render (name : String) (data : DataSource)
  | renderTo {σ : Type} (sink : Sink σ) (output : σ) (name : String) (data : DataSource)
  | renderTemplate {σ : Type} (sink : Sink σ) (output : σ) (template : Template) (data : Value)
  | renderSource (source : String) (data : DataSource)
  | precompileAll
  | invalidate (matched : String → Bool)
  | clearCache
  | refresh
  /-- Time passes, in nanoseconds. -/
  | wait (span : Nat)

inductive Answer where
  | template (result : Except Error Template)
  | text (result : Except Error String)
  | written {σ : Type} (result : Except Error Unit) (output : σ)
  | count (result : Except Error Nat)
  | done

namespace Engine

variable {ω : Type}

/-- The answer to a request; how many templates an invalidation drops is not part of it. -/
def respond (engine : Engine ω) (store : Store ω) : Request → Answer × Store ω
  | .get name =>
    let (result, after) := (engine.get name).outcome store
    (.template (result.map Instance.template), after)
  | .render name data =>
    let (result, after) := (engine.render name data).outcome store
    (.text result, after)
  | .renderTo sink output name data =>
    let (result, after, written) := (engine.renderTo sink name data).outcome (store, output)
    (.written result written, after)
  | .renderTemplate sink output template data =>
    let (result, after, written) :=
      (engine.renderTemplate sink template data).outcome (store, output)
    (.written result written, after)
  | .renderSource source data =>
    let (result, after) := (engine.renderSource source data).outcome store
    (.text result, after)
  | .precompileAll =>
    let (result, after) := engine.precompileAll.outcome store
    (.count result, after)
  | .invalidate matched => (.done, (Engine.invalidate store matched).2)
  | .clearCache => (.done, Engine.clearCache store)
  | .refresh => (.done, engine.refresh store)
  | .wait span => (.done, { store with clock := store.clock + span })

def respondAll (engine : Engine ω) (store : Store ω) : List Request → List Answer × Store ω
  | [] => ([], store)
  | request :: later =>
    let (answer, after) := engine.respond store request
    let (answers, last) := engine.respondAll after later
    (answer :: answers, last)

def caching (engine : Engine ω) (enabled : Bool) : Engine ω :=
  { engine with config := { engine.config with cacheEnabled := enabled } }

end Engine

def Setup.caching {ω : Type} (setup : Setup ω) (enabled : Bool) : Setup ω :=
  { setup with config := { setup.config with cacheEnabled := enabled } }

namespace Engine

section Twins

variable {ω : Type} {engine : Engine ω} {alike : ω → ω → Prop}
  {answers : String → Except Error (Option String)}

def Located (engine : Engine ω) (alike : ω → ω → Prop)
    (answers : String → Except Error (Option String)) : Prop :=
  ∀ name world second, alike world second →
    (engine.located name world).1 = answers name ∧ (engine.located name second).1 = answers name ∧
      alike (engine.located name world).2 (engine.located name second).2 ∧
      alike world (engine.located name second).2

/-- Two stores behind the same requests, the second one of an engine that does not cache. Every
cached template is what its name would be compiled to now. -/
structure Twin (engine : Engine ω) (alike : ω → ω → Prop)
    (answers : String → Except Error (Option String)) (store second : Store ω) : Prop where
  worlds : alike store.world second.world
  entries : ∀ entry ∈ store.cache.entries,
    engine.compileFound entry.1 (answers entry.1) = .ok (some entry.2.template)

/-- Whatever is cached, a name is found as what its answer is compiled to, with and without a
cache. -/
theorem Twin.find (hlocated : engine.Located alike answers) {store second : Store ω}
    (h : Twin engine alike answers store second) (name : String) :
    ((engine.find name).outcome store).1.map (Option.map Instance.template) =
        engine.compileFound name (answers name) ∧
      (((engine.caching false).find name).outcome second).1.map (Option.map Instance.template) =
        engine.compileFound name (answers name) ∧
      Twin engine alike answers ((engine.find name).outcome store).2
        (((engine.caching false).find name).outcome second).2 := by
  obtain ⟨hworld, hsecond, hboth, halone⟩ := hlocated name store.world second.world h.worlds
  rw [find_outcome, find_outcome]
  have hplain : (engine.caching false).cached? name second = none := rfl
  have hcompile : (engine.caching false).compileFound = engine.compileFound := rfl
  have hlocate : (engine.caching false).located = engine.located := rfl
  have hkeep : ∀ asked template, (engine.caching false).keep name asked template =
      { asked with compilations := asked.compilations + 1 } := fun _ _ => rfl
  simp only [hplain, hcompile, hlocate, hkeep, hsecond]
  cases hcached : engine.cached? name store with
  | some found =>
    have hentry : engine.compileFound name (answers name) = .ok (some found.template) :=
      h.entries _ (mem_of_cached? hcached)
    simp only [hentry]
    -- Only the engine without a cache has asked its locators, which `halone` covers.
    exact ⟨rfl, rfl, halone, h.entries⟩
  | none =>
    simp only [hworld]
    rcases hfound : engine.compileFound name (answers name) with error | _ | template
    · exact ⟨rfl, rfl, hboth, h.entries⟩
    · exact ⟨rfl, rfl, hboth, h.entries⟩
    · refine ⟨rfl, rfl, hboth, ?_⟩
      intro entry hentry
      rcases mem_keep hentry with rfl | hold
      · exact hfound
      · exact h.entries entry hold

theorem findsAlike (hlocated : engine.Located alike answers) :
    FindsAlike (Twin engine alike answers) engine (engine.caching false) where
  find name store second h := by
    obtain ⟨hfound, hother, hafter⟩ := h.find hlocated name
    exact ⟨agree_of_map (hother.trans hfound.symm), hafter⟩
  setting := ⟨rfl, rfl, rfl, rfl, rfl⟩
  compile := rfl

theorem matches_precompileAll (hlocated : engine.Located alike answers)
    (hsteady : ∀ locator ∈ engine.locators, locator.Steady alike) :
    Effect.Matches (Twin engine alike answers) (fun a b => b = a) engine.precompileAll
      (engine.caching false).precompileAll := by
  have hnames : Effect.Matches (Twin engine alike answers) (fun a b => b = a)
      ((Locator.allIdentifiers engine.locators).onPart Store.worldPart)
      ((Locator.allIdentifiers engine.locators).onPart Store.worldPart) := by
    intro store second h
    obtain ⟨hagree, hafter⟩ :=
      Locator.matches_allIdentifiers hsteady store.world second.world h.worlds
    exact ⟨hagree, hafter, h.entries⟩
  refine hnames.bind ?_
  rintro names _ rfl
  exact ((findsAlike hlocated).getAll _).bind fun _ _ _ => Effect.matches_pure rfl

theorem Twin.drop {store second : Store ω} (h : Twin engine alike answers store second)
    {kept others : List (String × Instance)} (hkept : ∀ entry ∈ kept, entry ∈ store.cache.entries) :
    Twin engine alike answers
      { store with cache := { store.cache with entries := kept } }
      { second with cache := { second.cache with entries := others } } :=
  ⟨h.worlds, fun entry hentry => h.entries entry (hkept entry hentry)⟩

/-- One request is answered alike, and leaves stores behind that answer the next one alike. -/
theorem Twin.respond (hlocated : engine.Located alike answers)
    (hsteady : ∀ locator ∈ engine.locators, locator.Steady alike) {store second : Store ω}
    (h : Twin engine alike answers store second) (request : Request) :
    ((engine.caching false).respond second request).1 = (engine.respond store request).1 ∧
      Twin engine alike answers (engine.respond store request).2
        ((engine.caching false).respond second request).2 := by
  have hfinds := findsAlike hlocated
  cases request with
  | get name =>
    obtain ⟨hagree, hafter⟩ := hfinds.get name store second h
    exact ⟨congrArg Answer.template (hagree.map fun _ _ hsame => hsame), hafter⟩
  | render name data =>
    obtain ⟨hagree, hafter⟩ := hfinds.render name data store second h
    exact ⟨congrArg Answer.text hagree.eq, hafter⟩
  | renderTo sink output name data =>
    obtain ⟨hagree, hafter, houtput⟩ :=
      hfinds.renderTo sink name data (store, output) (second, output) ⟨h, rfl⟩
    exact ⟨congrArg₂ Answer.written hagree.eq houtput, hafter⟩
  | renderTemplate sink output template data =>
    obtain ⟨hagree, hafter, houtput⟩ :=
      hfinds.renderTemplate sink template data (store, output) (second, output) ⟨h, rfl⟩
    exact ⟨congrArg₂ Answer.written hagree.eq houtput, hafter⟩
  | renderSource source data =>
    obtain ⟨hagree, hafter⟩ := hfinds.renderSource source data store second h
    exact ⟨congrArg Answer.text hagree.eq, hafter⟩
  | precompileAll =>
    obtain ⟨hagree, hafter⟩ := matches_precompileAll hlocated hsteady store second h
    exact ⟨congrArg Answer.count hagree.eq, hafter⟩
  | invalidate matched => exact ⟨rfl, h.drop fun _ hentry => (List.mem_filter.mp hentry).1⟩
  | clearCache => exact ⟨rfl, h.drop fun _ hentry => absurd hentry List.not_mem_nil⟩
  | refresh =>
    have hworlds := Locator.alike_refreshAll hsteady h.worlds
    exact ⟨rfl, hworlds, fun _ hentry => absurd hentry List.not_mem_nil⟩
  | wait span => exact ⟨rfl, h.worlds, h.entries⟩

/-- So are any requests, one after the other. -/
theorem Twin.respondAll (hlocated : engine.Located alike answers)
    (hsteady : ∀ locator ∈ engine.locators, locator.Steady alike) {store second : Store ω}
    (h : Twin engine alike answers store second) (requests : List Request) :
    ((engine.caching false).respondAll second requests).1 = (engine.respondAll store requests).1 ∧
      Twin engine alike answers (engine.respondAll store requests).2
        ((engine.caching false).respondAll second requests).2 := by
  induction requests generalizing store second with
  | nil => exact ⟨rfl, h⟩
  | cons request later ih =>
    obtain ⟨hanswer, hafter⟩ := h.respond hlocated hsteady request
    obtain ⟨hanswers, hlast⟩ := ih hafter
    exact ⟨congrArg₂ List.cons hanswer hanswers, hlast⟩

theorem exists_located (hsteady : ∀ locator ∈ engine.locators, locator.Steady alike) {world : ω}
    (hworld : alike world world) :
    engine.Located alike fun name => (engine.located name world).1 := by
  intro name first second halike
  obtain ⟨answer, hanswer⟩ := Locator.steady_firstSource hsteady name
  have hstart : (engine.located name world).1 = answer := (hanswer world world hworld).1
  simp only [hstart]
  exact hanswer first second halike

end Twins

end Engine

section Building

variable {ω : Type} {alike : ω → ω → Prop} {setup : Setup ω}

theorem Setup.steady_locators (hsteady : ∀ locator ∈ setup.locators, locator.Steady alike) :
    ∀ locator ∈ setup.toEngine.locators, locator.Steady alike := by
  intro locator hlocator
  have hmem : locator ∈ setup.allLocators := mem_sortRanked.mp hlocator
  unfold allLocators at hmem
  split at hmem
  · exact hsteady locator hmem
  · rcases List.mem_append.mp hmem with hown | htemplates
    · exact hsteady locator hown
    · obtain rfl := List.mem_singleton.mp htemplates
      exact Locator.steady_ofEntries alike _ _

theorem Setup.build_eq (setup : Setup ω) (world : ω) :
    setup.build world =
      match setup.config.validate with
      | .error error => .error error
      | .ok () =>
        let store := setup.toEngine.emptyStore world
        if setup.config.precompile then
          match setup.toEngine.precompileAll.outcome store with
          | (.error error, _) => .error error
          | (.ok _, after) => .ok (setup.toEngine, after)
        else .ok (setup.toEngine, store) := by
  unfold build
  rcases setup.config.validate with error | ⟨⟩
  · rfl
  · simp only
    cases setup.config.precompile with
    | false => rfl
    | true =>
      rcases setup.toEngine.precompileAll.outcome (setup.toEngine.emptyStore world) with
        ⟨error | count, after⟩ <;> rfl

/-- Both engines are built, or neither is and for the same reason. -/
theorem Setup.build_twins (hsteady : ∀ locator ∈ setup.locators, locator.Steady alike) {world : ω}
    (hworld : alike world world) :
    Agree
      (fun built other => built.1 = setup.toEngine.caching true ∧
        other.1 = (setup.toEngine.caching true).caching false ∧
        Engine.Twin (setup.toEngine.caching true) alike
          (fun name => (setup.toEngine.located name world).1) built.2 other.2)
      ((setup.caching true).build world) ((setup.caching false).build world) := by
  let engine : Engine ω := setup.toEngine.caching true
  let empty : Store ω := engine.emptyStore world
  have hlocators : ∀ locator ∈ engine.locators, locator.Steady alike := steady_locators hsteady
  have hlocated : engine.Located alike fun name => (engine.located name world).1 :=
    Engine.exists_located hlocators hworld
  have hempty : engine.Twin alike (fun name => (engine.located name world).1) empty empty :=
    ⟨hworld, fun _ hentry => absurd hentry List.not_mem_nil⟩
  have hengine : (setup.caching true).toEngine = engine := rfl
  have hother : (setup.caching false).toEngine = engine.caching false := rfl
  have hstore : (engine.caching false).emptyStore world = engine.emptyStore world := rfl
  have hconfig : ∀ enabled, (setup.caching enabled).config.validate = setup.config.validate ∧
      (setup.caching enabled).config.precompile = setup.config.precompile :=
    fun _ => ⟨rfl, rfl⟩
  rw [build_eq, build_eq]
  simp only [hengine, hother, hstore, hconfig]
  rcases setup.config.validate with error | ⟨⟩
  · exact .error error
  · cases setup.config.precompile with
    | false => exact .ok ⟨rfl, rfl, hempty⟩
    | true =>
      obtain ⟨hagree, hafter⟩ :=
        Engine.matches_precompileAll hlocated hlocators empty empty hempty
      simp only [if_true]
      rcases hfirst : engine.precompileAll.outcome (engine.emptyStore world) with
          ⟨error | count, store⟩ <;>
        rcases hsecond : (engine.caching false).precompileAll.outcome (engine.emptyStore world) with
          ⟨fault | other, second⟩ <;>
        rw [hfirst, hsecond] at hagree hafter <;> cases hagree
      · exact .error error
      · exact .ok ⟨rfl, rfl, hafter⟩

/-- With locators that keep to their answers, caching changes no answer to any requests, in whatever
order they come: neither a text or an output, nor a template, nor a count, nor an error, the one of
building included. After any requests, with and without a cache, a name is found as what it was
loaded as at the start, or fails as it failed then, also where it is included. -/
theorem caching_invisible (hsteady : ∀ locator ∈ setup.locators, locator.Steady alike) {world : ω}
    (hworld : alike world world) (requests : List Request) :
    ((setup.caching true).build world).map
        (fun (engine, store) => (engine.respondAll store requests).1) =
      ((setup.caching false).build world).map
        (fun (engine, store) => (engine.respondAll store requests).1) ∧
    ∀ enabled engine store name, (setup.caching enabled).build world = .ok (engine, store) →
      ((engine.setting.find name).outcome (engine.respondAll store requests).2).1 =
        ((engine.load name).outcome (engine.emptyStore world)).1 := by
  have hlocators : ∀ locator ∈ (setup.toEngine.caching true).locators, locator.Steady alike :=
    Setup.steady_locators hsteady
  have hlocated := Engine.exists_located hlocators hworld
  have hbuilt := Setup.build_twins hsteady hworld
  constructor
  · refine (hbuilt.map ?_).symm
    rintro ⟨_, store⟩ ⟨_, second⟩ ⟨rfl, rfl, htwin⟩
    exact (htwin.respondAll hlocated hlocators requests).1
  · intro enabled engine store name hbuild
    have hload : ((engine.load name).outcome (engine.emptyStore world)).1 =
        engine.compileFound name (engine.located name world).1 := by
      rw [Engine.load_outcome]
      rfl
    rw [hload, Engine.find_setting]
    cases enabled with
    | true =>
      rw [hbuild] at hbuilt
      rcases hother : (setup.caching false).build world with error | ⟨other, second⟩ <;>
        rw [hother] at hbuilt <;> cases hbuilt
      rename_i hpair
      obtain ⟨rfl, rfl, htwin⟩ := hpair
      obtain ⟨-, hlast⟩ := htwin.respondAll hlocated hlocators requests
      exact (hlast.find hlocated name).1
    | false =>
      rw [hbuild] at hbuilt
      rcases hother : (setup.caching true).build world with error | ⟨other, first⟩ <;>
        rw [hother] at hbuilt <;> cases hbuilt
      rename_i hpair
      obtain ⟨rfl, rfl, htwin⟩ := hpair
      obtain ⟨-, hlast⟩ := htwin.respondAll hlocated hlocators requests
      exact (hlast.find hlocated name).2.1

end Building

def pageTemplates : List (String × String) :=
  [("page", "Hi\x7b\x7b> part\x7d\x7d"), ("part", "\x7b\x7b#open\x7d\x7d"), ("plain", "Hi"),
    ("sealed", "\x7b\x7b> locked\x7d\x7d")]

/-- Counts how often it is asked, so that a cache leaves another world behind. -/
def countingLocator : Locator Nat where
  locate := fun name asked =>
    (if name = "locked" then .error (.locator name "locked.txt" "denied")
      else .ok (pageTemplates.lookup name), asked + 1)
  identifiers := fun asked => (.ok (pageTemplates.map Prod.fst), asked + 1)

def pageSetup : Setup Nat where
  locators := [countingLocator]

def pageRequests : List Request :=
  [.render "plain" (.ok .null), .render "page" (.ok .null), .get "missing", .precompileAll,
    .render "sealed" (.ok .null), .invalidate (fun name => name == "plain"), .wait 60,
    .render "plain" (.ok .null), .refresh, .render "sealed" (.ok .null)]

theorem caching_invisible_page :
    (∀ locator ∈ pageSetup.locators, locator.Steady fun _ _ => True) ∧
      ((pageSetup.caching true).build 0).map
          (fun (engine, store) => (engine.respondAll store pageRequests).1) =
        ((pageSetup.caching false).build 0).map
          (fun (engine, store) => (engine.respondAll store pageRequests).1) := by
  have hsteady : ∀ locator ∈ pageSetup.locators, locator.Steady fun _ _ => True := by
    intro locator hlocator
    obtain rfl := List.mem_singleton.mp hlocator
    exact
      { locate := fun _ => ⟨_, fun _ _ _ => ⟨rfl, rfl, trivial, trivial⟩⟩
        identifiers := fun _ _ _ => ⟨rfl, trivial⟩
        refresh := fun _ _ _ => trivial }
  exact ⟨hsteady, (caching_invisible hsteady trivial pageRequests).1⟩

end Stencil
