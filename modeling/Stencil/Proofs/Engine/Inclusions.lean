import Stencil.Proofs.Engine.History
import Stencil.Proofs.Engine.Sinks
import Stencil.Proofs.Rendering.Inclusions
import Stencil.Proofs.Text.Search

/-! A tag that includes a template stands for the text of the template. With sources that do not
change it makes no difference whether a template is included, through the cache and one inclusion
deeper, or its segments are rendered where the tag is. -/

namespace Stencil

variable {ω σ : Type} {alike : ω → ω → Prop}

/-- An engine starts with nothing in its cache that it would not find. -/
theorem Setup.twin_of_build {setup : Setup ω}
    (hsteady : ∀ locator ∈ setup.locators, locator.Steady alike) {world : ω}
    (hworld : alike world world) {engine : Engine ω} {start : Store ω}
    (hbuild : setup.build world = .ok (engine, start)) :
    engine = setup.toEngine ∧ ∃ second,
      Engine.Twin engine alike (fun name => (engine.located name world).1) start second := by
  have hlocators := steady_locators hsteady
  have hlocated := Engine.exists_located hlocators hworld
  have hempty : Engine.Twin setup.toEngine alike
      (fun name => (setup.toEngine.located name world).1) (setup.toEngine.emptyStore world)
      (setup.toEngine.emptyStore world) :=
    ⟨hworld, fun _ hentry => absurd hentry List.not_mem_nil⟩
  rw [build_eq] at hbuild
  rcases hvalid : setup.config.validate with error | ⟨⟩ <;> simp only [hvalid] at hbuild
  · cases hbuild
  · cases hprecompile : setup.config.precompile with
    | false =>
      simp only [hprecompile, Bool.false_eq_true, if_false, Except.ok.injEq, Prod.mk.injEq]
        at hbuild
      obtain ⟨rfl, rfl⟩ := hbuild
      exact ⟨rfl, _, hempty⟩
    | true =>
      obtain ⟨-, hafter⟩ := Engine.matches_precompileAll hlocated hlocators _ _ hempty
      simp only [hprecompile, if_true] at hbuild
      rcases hall : setup.toEngine.precompileAll.outcome (setup.toEngine.emptyStore world) with
          ⟨error | count, after⟩ <;>
        simp only [hall, reduceCtorEq, Except.ok.injEq, Prod.mk.injEq] at hbuild hafter
      obtain ⟨rfl, rfl⟩ := hbuild
      exact ⟨rfl, _, hafter⟩

namespace Engine

open Render

variable {engine : Engine ω} {start store : Store ω}

/-- The stores that an engine has behind requests, and on the way of one: rendering changes them by
looking for templates alone. -/
inductive Visits (engine : Engine ω) (start : Store ω) : Store ω → Prop where
  | start : Visits engine start start
  | looks {store : Store ω} (h : Visits engine start store) (name : String) :
    Visits engine start ((engine.find name).outcome store).2
  | responds {store : Store ω} (h : Visits engine start store) (request : Request) :
    Visits engine start (engine.respond store request).2

theorem Visits.moments {α : Type} {action : Render (Store ω) σ α}
    (haction : action.OnlyLooksUp engine.setting) {state : Rendering (Store ω) σ}
    (h : engine.Visits start state.store) :
    ∀ moment ∈ action.moments state, engine.Visits start moment.store := by
  induction action generalizing state with
  | done result => simpa [Render.moments] using h
  | step act next ih =>
    have hchanged : engine.Visits start (act state).2.store := by
      rcases haction.1 state with hsame | ⟨name, hfound⟩
      · exact hsame ▸ h
      · rw [hfound, find_setting]
        exact h.looks name
    exact List.forall_mem_cons.mpr ⟨h, ih (act state).1 (haction.2 _) hchanged⟩

/-- Wherever a rendering is, the store is one of these. -/
theorem Visits.renderIn {state : Rendering (Store ω) σ} (h : engine.Visits start state.store)
    (sink : Sink σ) (segments : List Segment) :
    ∀ moment ∈ (engine.renderIn sink segments).moments state, engine.Visits start moment.store :=
  Visits.moments (onlyLooksUp_all engine.setting sink segments) h

section Settled

variable {answers : String → Except Error (Option String)}
  (hlocated : engine.Located alike answers)

include hlocated

theorem Visits.exists_twin (hsteady : ∀ locator ∈ engine.locators, locator.Steady alike)
    (hstart : ∃ second, Twin engine alike answers start second)
    (h : engine.Visits start store) : ∃ second, Twin engine alike answers store second := by
  induction h with
  | start => exact hstart
  | looks h name ih =>
    obtain ⟨second, htwin⟩ := ih
    exact ⟨_, (htwin.find hlocated name).2.2⟩
  | responds h request ih =>
    obtain ⟨second, htwin⟩ := ih
    exact ⟨_, (htwin.respond hlocated hsteady request).2⟩

/-- Where locators know nothing by a name, neither does the cache, and only they are asked. -/
theorem Twin.find_unknown {second : Store ω} (h : Twin engine alike answers store second)
    {name : String} (hnone : answers name = .ok none) :
    (engine.find name).outcome store =
      (.ok none, { store with world := (engine.located name store.world).2 }) := by
  obtain ⟨hworld, -⟩ := hlocated name store.world second.world h.worlds
  have hmissing : engine.cached? name store = none := by
    by_contra hcached
    obtain ⟨found, hfound⟩ := Option.ne_none_iff_exists'.mp hcached
    have hentry := h.entries _ (mem_of_cached? hfound)
    simp [hnone, compileFound] at hentry
  rw [find_outcome, hmissing, hworld, hnone]
  rfl

theorem keeps_twins {allowed : Helper → Prop}
    (hhelpers : ∀ entry ∈ engine.registry.helpers, allowed entry.2) :
    engine.setting.Keeps allowed
      (fun store => ∃ second, Twin engine alike answers store second)
      fun name => engine.compileFound name (answers name) where
  keeps name store := by
    rintro ⟨second, htwin⟩
    rw [find_setting]
    exact ⟨_, (htwin.find hlocated name).2.2⟩
  finds name store := by
    rintro ⟨second, htwin⟩
    rw [find_setting]
    exact (htwin.find hlocated name).1
  calls name template hfound := by
    obtain ⟨source, -, hcompile⟩ := compileFound_eq_ok_iff.mp hfound
    exact allCallOnly_of_compile hhelpers hcompile

end Settled

def RendersLines (engine : Engine ω) (name source : String) (scope : Scope) (store : Store ω)
    (lines : List (List Char)) : Prop :=
  Text.AreLines lines ∧ ∃ template last, engine.compileSource name source = .ok template ∧
    (engine.renderIn .text template.segments).outcome ⟨scope, store, ""⟩ = (.ok (), last) ∧
    last.output.toList = lines.flatten

section Places

variable {stores : Store ω → Prop} {answers : String → Except Error (Option String)}
  (hkeeps : engine.setting.Keeps Helper.IsBuiltin stores
    fun name => engine.compileFound name (answers name))
  (hstore : stores store) {sink : Sink σ} {scope : Scope} {output : σ} {name source : String}

include hkeeps

theorem entails_of_mem_deeperIn {inner : Renderer (Store ω)}
    (h : inner ∈ deeperIn engine.setting scope) :
    EntailsEverywhere stores inner (nested engine.setting
      (engine.setting.config.inclusionLimit - scope.inclusions.length)) := by
  obtain ⟨depth, hdepth, rfl⟩ := exists_of_mem_deeperIn h
  exact entails_nested (hkeeps.mono fun _ hbuiltin => hbuiltin.givesUp) hdepth

theorem follows_of_mem_deeperIn {inner : Renderer (Store ω)}
    (h : inner ∈ deeperIn engine.setting scope) : FollowsEverywhere stores inner := by
  obtain ⟨depth, -, rfl⟩ := exists_of_mem_deeperIn h
  exact follows_nested (hkeeps.mono fun _ hbuiltin => hbuiltin.heeds).provides depth

include hstore

theorem compiles_of_inclusion (hsource : answers name = .ok (some source)) {indent : String}
    {deeper : Option (Renderer (Store ω))} {last : Rendering (Store ω) σ}
    (h : (inclusion engine.setting sink deeper name indent).outcome ⟨scope, store, output⟩ =
      (.ok (), last)) :
    ∃ template, engine.compileSource name source = .ok template := by
  obtain ⟨found, hanswer⟩ := found_of_inclusion h
  rw [hkeeps.finds name store hstore, hsource, compileFound] at hanswer
  cases hcompile : engine.compileSource name source with
  | error error =>
    rw [hcompile] at hanswer
    cases hanswer
  | ok template => exact ⟨template, rfl⟩

/-- A tag without an indent that succeeds does so in place. -/
theorem renderIn_of_inclusion (hsource : answers name = .ok (some source)) {line : Nat}
    {last : Rendering (Store ω) σ}
    (h : (engine.renderIn sink [.inclusion name "" line]).outcome ⟨scope, store, output⟩ =
      (.ok (), last)) :
    ∃ template behind, engine.compileSource name source = .ok template ∧
      (engine.renderIn sink template.segments).outcome ⟨scope, store, output⟩ = (.ok (), behind) ∧
      behind.output = last.output := by
  rw [renderIn, outcome_all_inclusion] at h
  obtain ⟨template, hcompile⟩ := compiles_of_inclusion hkeeps hstore hsource h
  have hfound : engine.compileFound name (answers name) = .ok (some template) :=
    compileFound_eq_ok_iff.mpr ⟨source, hsource, hcompile⟩
  obtain ⟨behind, hplace, hsame⟩ := entails_of_inclusion
    (hkeeps.mono fun _ hbuiltin => hbuiltin.givesUp) hfound sink
    (fun _ => entails_of_mem_deeperIn hkeeps) ⟨scope, store, output⟩ ⟨scope, store, output⟩ () last
    ⟨rfl, rfl, hstore, hstore⟩ h trivial
  exact ⟨template, behind, hcompile, hplace, hsame.output⟩

/-- What is rendered aside, one inclusion deeper, are the lines of the text in place. -/
theorem rendersLines_of_renderedAside {template : Template} {written : Rendering (Store ω) String}
    (h : RenderedAside engine.setting (deeperIn engine.setting scope) name scope store template
      written) :
    ∃ source, answers name = .ok (some source) ∧
      engine.RendersLines name source scope store (Text.lines written.output.toList) := by
  obtain ⟨hfound, inner, hinner, hrendered⟩ := h
  have hanswer := (hkeeps.finds name store hstore).symm.trans hfound
  obtain ⟨source, hsource, hcompile⟩ := compileFound_eq_ok_iff.mp hanswer
  have hcalls := (hkeeps.mono fun _ hbuiltin => hbuiltin.givesUp).calls name template hanswer
  obtain ⟨behind, hplaced, hsame⟩ := entails_of_mem_deeperIn hkeeps hinner String .text
    template.segments hcalls
    ⟨scope.enter name, ((engine.setting.find name).outcome store).2, ""⟩ ⟨scope, store, ""⟩ ()
    written ⟨rfl, rfl, hkeeps.keeps name store hstore, hstore⟩ hrendered trivial
  refine ⟨source, hsource, Text.areLines_lines _, template, behind, hcompile, hplaced, ?_⟩
  rw [hsame.output, Text.flatten_lines]

/-- Behind an indent these lines are written, as far as the sink takes them. -/
theorem writes_of_renderedAside {template : Template} {written : Rendering (Store ω) String}
    (h : RenderedAside engine.setting (deeperIn engine.setting scope) name scope store template
      written) {indent : String} (hindent : indent ≠ "") (sink : Sink σ) (output : σ) (line : Nat) :
    let tag := (engine.renderIn sink [.inclusion name indent line]).outcome ⟨scope, store, output⟩
    ∃ source lines taken, answers name = .ok (some source) ∧
      engine.RendersLines name source scope store lines ∧
      sink.writeUntil (lines.flatMap fun text => [indent, String.ofList text]) output =
        (taken, tag.2.output) ∧
      tag.1 = (if taken then .ok () else .error .write) ∧
      (lines.flatten = [] → tag.2.output = output) := by
  intro tag
  obtain ⟨source, hsource, hlines⟩ := rendersLines_of_renderedAside hkeeps hstore h
  have htag : tag = _ := (outcome_all_inclusion engine.setting sink name indent line _).trans
    (h.outcome hindent sink)
  refine ⟨source, _, (sink.writeUntil (indentedPieces indent written.output) output).1, hsource,
    hlines, ?_, ?_, ?_⟩
  · rw [htag]
    rfl
  · rw [htag]
  · intro hempty
    rw [Text.flatten_lines] at hempty
    rw [htag, indentedPieces, hempty]
    rfl

/-- If a tag succeeds, with whatever indent, its template is rendered aside. -/
theorem renderedAside_of_renderIn (hsource : answers name = .ok (some source)) {indent : String}
    {line : Nat} {last : Rendering (Store ω) σ}
    (h : (engine.renderIn sink [.inclusion name indent line]).outcome ⟨scope, store, output⟩ =
      (.ok (), last)) :
    ∃ template written, RenderedAside engine.setting (deeperIn engine.setting scope) name scope
      store template written := by
  rw [renderIn, outcome_all_inclusion] at h
  obtain ⟨template, hcompile⟩ := compiles_of_inclusion hkeeps hstore hsource h
  have hanswer : engine.compileFound name (answers name) = .ok (some template) :=
    compileFound_eq_ok_iff.mpr ⟨source, hsource, hcompile⟩
  have hcalls := (hkeeps.mono fun _ hbuiltin => hbuiltin.heeds).calls name template hanswer
  obtain ⟨written, haside⟩ := exists_renderedAside (fun _ => follows_of_mem_deeperIn hkeeps)
    ((hkeeps.finds name store hstore).trans hanswer) hcalls (hkeeps.keeps name store hstore) h
  exact ⟨template, written, haside⟩

end Places

/-- What is found in vain is rendered as nothing. -/
theorem renderIn_vain_inclusion {name : String} {after : Store ω}
    (hfind : (engine.find name).outcome store = (.ok none, after)) (sink : Sink σ) (scope : Scope)
    (output : σ) (indent : String) (line : Nat) :
    (engine.renderIn sink [.inclusion name indent line]).outcome ⟨scope, store, output⟩ =
      (.ok (), ⟨scope, after, output⟩) := by
  have hvain : (engine.setting.find name).outcome store = (.ok none, after) := by
    rw [find_setting, hfind]
    rfl
  rw [renderIn, outcome_all_inclusion, outcome_inclusion, hvain]

/-- A tag that includes a template behaves as the text of the template in its place. For an engine
with the standard helpers and with locators that keep to their answers, wherever a rendering is:
without an indent, what succeeds as a tag succeeds in place, with the same output and in the same
scopes. Behind an indent, the lines of that text are written where the tag succeeds with it or
without it, each behind the indent, and nothing else is; nothing of an empty text. The text is
compiled as the engine compiles every source, from its own delimiters on. A name that no locator
knows is rendered as nothing, and only the locators are asked for it. Behind an indent a failed tag
has written nothing, unless the sink has refused a piece of these lines. -/
theorem inclusion_in_place {setup : Setup ω}
    (hhelpers : ∀ entry ∈ setup.registry.helpers, entry.2.IsBuiltin)
    (hsteady : ∀ locator ∈ setup.locators, locator.Steady alike) {world : ω}
    (hworld : alike world world) {engine : Engine ω} {start store : Store ω}
    (hbuild : setup.build world = .ok (engine, start)) (hstore : engine.Visits start store)
    (sink : Sink σ) (scope : Scope) (output : σ) (name : String) (line : Nat) :
    let tag := fun indent =>
      (engine.renderIn sink [.inclusion name indent line]).outcome ⟨scope, store, output⟩
    let pieces := fun indent (lines : List (List Char)) =>
      lines.flatMap fun text => [indent, String.ofList text]
    (∀ source, (engine.located name world).1 = .ok (some source) →
      ((tag "").1 = .ok () → ∃ template last,
        engine.compileSource name source = .ok template ∧
        (engine.renderIn sink template.segments).outcome ⟨scope, store, output⟩ = (.ok (), last) ∧
        last.output = (tag "").2.output ∧ last.scope = scope ∧ (tag "").2.scope = scope) ∧
      ∀ indent ≠ "", (tag "").1 = .ok () ∨ (tag indent).1 = .ok () → ∃ lines taken,
        engine.RendersLines name source scope store lines ∧
        sink.writeUntil (pieces indent lines) output = (taken, (tag indent).2.output) ∧
        (tag indent).1 = (if taken then .ok () else .error .write) ∧
        (lines.flatten = [] → (tag indent).2.output = output)) ∧
    ((engine.located name world).1 = .ok none → ∀ indent, tag indent = (.ok (), ⟨scope,
      { store with world := (engine.located name store.world).2 }, output⟩)) ∧
    ∀ indent ≠ "", ∀ error, (tag indent).1 = .error error →
      (tag indent).2.output = output ∨ ∃ source lines,
        (engine.located name world).1 = .ok (some source) ∧
        engine.RendersLines name source scope store lines ∧
        sink.writeUntil (pieces indent lines) output = (false, (tag indent).2.output) := by
  intro tag pieces
  obtain ⟨rfl, hstart⟩ := Setup.twin_of_build hsteady hworld hbuild
  have hlocators := Setup.steady_locators hsteady
  have hlocated := exists_located hlocators hworld
  have hkeeps := keeps_twins hlocated hhelpers
  have htwin := hstore.exists_twin hlocated hlocators hstart
  refine ⟨fun source hsource => ⟨fun hok => ?_, fun indent hindent hok => ?_⟩,
    fun hnone indent => ?_, fun indent hindent error herror => ?_⟩
  · obtain ⟨template, last, hcompile, hplace, houtput⟩ :=
      renderIn_of_inclusion hkeeps htwin hsource (Prod.ext hok rfl)
    have hscope := setup.toEngine.scope_of_renderIn sink
    have hlast := hscope template.segments ⟨scope, store, output⟩
    rw [hplace] at hlast
    exact ⟨template, last, hcompile, hplace, houtput, hlast, hscope _ _⟩
  · obtain ⟨template, written, haside⟩ : ∃ template written,
        RenderedAside setup.toEngine.setting (deeperIn setup.toEngine.setting scope) name scope
          store template written := by
      rcases hok with hplain | hindented
      · exact renderedAside_of_renderIn hkeeps htwin hsource (Prod.ext hplain rfl)
      · exact renderedAside_of_renderIn hkeeps htwin hsource (Prod.ext hindented rfl)
    obtain ⟨other, lines, taken, hother, hlines, hwritten, hresult, hempty⟩ :=
      writes_of_renderedAside hkeeps htwin haside hindent sink output line
    obtain rfl : other = source := by simpa using hother.symm.trans hsource
    exact ⟨lines, taken, hlines, hwritten, hresult, hempty⟩
  · obtain ⟨second, hsecond⟩ := htwin
    have hfind := hsecond.find_unknown hlocated hnone
    exact renderIn_vain_inclusion hfind sink scope output indent line
  · have hfailed :=
      (outcome_all_inclusion setup.toEngine.setting sink name indent line _).symm.trans
        (Prod.ext herror rfl : tag indent = (.error error, (tag indent).2))
    refine (output_of_failed_inclusion hindent hfailed).imp_right ?_
    rintro ⟨template, written, haside⟩
    obtain ⟨source, lines, taken, hsource, hlines, hwritten, hresult, -⟩ :=
      writes_of_renderedAside hkeeps htwin haside hindent sink output line
    cases taken with
    | false => exact ⟨source, lines, hsource, hlines, hwritten⟩
    | true => cases herror.symm.trans hresult

def reviewSource : String := "\x7b\x7bname\x7d\x7d:\n  \x7b\x7b> stars\x7d\x7d\n"

def reviewSetup : Setup Unit where
  templates := [("review", reviewSource), ("stars", "***\n")]
  registry := .builtin

def reviewScope : Scope := .ofRoot "page" (.map [("name", .string "A&B")])

theorem inclusion_in_place_review :
    let engine := reviewSetup.toEngine
    let store := ((engine.find "stars").outcome (engine.emptyStore ())).2
    let tag := fun indent =>
      (engine.renderIn .text [.inclusion "review" indent 1]).outcome ⟨reviewScope, store, "-"⟩
    ((tag "").1 = .ok () ∧ (tag "> ").1 = .ok () ∧ (tag "> ").2.output = "-> A&amp;B:\n>   ***\n") ∧
      (∃ template last, engine.compileSource "review" reviewSource = .ok template ∧
        (engine.renderIn .text template.segments).outcome ⟨reviewScope, store, "-"⟩ =
          (.ok (), last) ∧ last.output = "-A&amp;B:\n  ***\n") ∧
      ∃ lines, engine.RendersLines "review" reviewSource reviewScope store lines ∧
        Sink.text.writeUntil (lines.flatMap fun text => ["> ", String.ofList text]) "-" =
          (true, "-> A&amp;B:\n>   ***\n") := by
  intro engine store tag
  have hhelpers : ∀ entry ∈ reviewSetup.registry.helpers, entry.2.IsBuiltin :=
    fun _ => List.mem_map_of_mem
  have hsteady : ∀ locator ∈ reviewSetup.locators, locator.Steady fun _ _ => True :=
    fun _ hmem => nomatch hmem
  have hbuild : reviewSetup.build () = .ok (engine, engine.emptyStore ()) := rfl
  have hsource : (engine.located "review" ()).1 = .ok (some reviewSource) := by decide +kernel
  have hplain : (tag "").1 = .ok () := by decide +kernel
  have houtput : (tag "").2.output = "-A&amp;B:\n  ***\n" := by decide +kernel
  have hindented : (tag "> ").1 = .ok () := by decide +kernel
  have hlines : (tag "> ").2.output = "-> A&amp;B:\n>   ***\n" := by decide +kernel
  obtain ⟨hplaced, hbehind⟩ := (inclusion_in_place hhelpers hsteady trivial hbuild
    (.looks .start "stars") .text reviewScope "-" "review" 1).1 reviewSource hsource
  obtain ⟨template, last, hcompile, hrendered, hsame, -⟩ := hplaced hplain
  obtain ⟨lines, taken, hrenders, hwritten, -⟩ := hbehind "> " (by decide) (.inl hplain)
  have htaken : taken = true := by
    rw [Sink.writeUntil_text] at hwritten
    exact (Prod.mk.inj hwritten).1.symm
  rw [htaken] at hwritten
  exact ⟨⟨hplain, hindented, hlines⟩, ⟨template, last, hcompile, hrendered, hsame.trans houtput⟩,
    lines, hrenders, hwritten.trans (congrArg (Prod.mk true) hlines)⟩

end Engine

end Stencil
