import Stencil.Proofs.Engine.Limits
import Stencil.Proofs.Engine.Requests
import Stencil.Proofs.Helper.Discretion
import Stencil.Proofs.Rendering.Following
import Stencil.Proofs.Rendering.ScopeDiscipline

/-! What an engine writes does not depend on where it writes to. A sink that refuses a write is
given what every other sink is given, up to that write. -/

namespace Stencil

namespace Engine

open Render Segment

variable {ω σ : Type} {engine : Engine ω}

/-- A successful rendering into a sink has found a template, read its data and rendered the one
with the other. -/
theorem renderTo_eq_ok {sink : Sink σ} {name : String} {data : DataSource} {store after : Store ω}
    {output last : σ}
    (h : (engine.renderTo sink name data).outcome (store, output) = (.ok (), after, last)) :
    ∃ found middle value, (engine.get name).outcome store = (.ok found, middle) ∧
      data.toValue = .ok value ∧
      (engine.renderTemplate sink found.template value).outcome (middle, output) =
        (.ok (), after, last) := by
  rw [renderTo_outcome] at h
  rcases hget : (engine.get name).outcome store with ⟨error | found, middle⟩ <;> rw [hget] at h
  · cases h
  · cases hvalue : data.toValue with
    | error error =>
      rw [hvalue] at h
      cases h
    | ok value =>
      rw [hvalue] at h
      exact ⟨found, middle, value, rfl, rfl, h⟩

theorem scope_of_renderIn (engine : Engine ω) (sink : Sink σ) (segments : List Segment)
    (state : Rendering (Store ω) σ) :
    ((engine.renderIn sink segments).outcome state).2.scope = state.scope :=
  (along_iff.mp (disciplined_all engine.setting sink segments state)).2

/-- What a sink makes of the pieces that are written where all are taken. -/
theorem copied_renderIn (hhelpers : ∀ entry ∈ engine.registry.helpers, entry.2.IsBuiltin)
    {store : Store ω} (hstore : engine.Sound store) (sink : Sink σ) {segments : List Segment}
    (hcalls : AllCallOnly Helper.IsBuiltin segments) (scope : Scope) (output : σ) :
    let reference := (engine.renderIn .pieces segments).outcome ⟨scope, store, []⟩
    Copied sink Failed reference.2.output output reference
      ((engine.renderIn sink segments).outcome ⟨scope, store, output⟩) := by
  intro reference
  have hprovides : engine.setting.Provides Helper.Heeds engine.Sound :=
    provides fun entry hentry => (hhelpers entry hentry).heeds
  have hheeds : AllCallOnly Helper.Heeds segments :=
    AllCallOnly.mono (fun _ hbuiltin => hbuiltin.heeds) hcalls
  obtain ⟨pieces, hpieces, -, hcopied⟩ :=
    follows_all hprovides sink hheeds scope store [] output hstore
  have hwritten : reference.2.output = pieces := hpieces
  rw [hwritten]
  exact hcopied

/-- What a sink has been given, when all of it was taken, is the text of the template. -/
theorem textOf_of_renderTemplate (hhelpers : ∀ entry ∈ engine.registry.helpers, entry.2.IsBuiltin)
    {store after : Store ω} (hstore : engine.Sound store) {sink : Sink σ} {template : Template}
    (hcalls : AllCallOnly Helper.IsBuiltin template.segments) {data : Value} {output last : σ}
    (h : (engine.renderTemplate sink template data).outcome (store, output) =
      (.ok (), after, last)) :
    ∃ pieces, sink.writeUntil pieces output = (true, last) ∧
      (engine.textOf template data).outcome store = (.ok (String.join pieces), after) := by
  let scope := Scope.ofRoot template.name data
  have hcopied := copied_renderIn hhelpers hstore sink hcalls scope output
  have htext := (copied_renderIn hhelpers hstore .text hcalls scope "").taken _
    (Sink.writeUntil_text _ "")
  rcases hreference : (engine.renderIn .pieces template.segments).outcome ⟨scope, store, []⟩ with
    ⟨result, reference⟩
  rcases hcopy : (engine.renderIn sink template.segments).outcome ⟨scope, store, output⟩ with
    ⟨answer, copy⟩
  rw [hreference, hcopy] at hcopied
  rw [hreference] at htext
  have hend : (answer, copy.store, copy.output) = (.ok (), after, last) := by
    rw [← h]
    simp only [renderTemplate, Effect.outcome, scope] at hcopy ⊢
    rw [hcopy]
  obtain ⟨rfl, rfl, rfl⟩ : answer = .ok () ∧ copy.store = after ∧ copy.output = last := by
    simpa using hend
  rcases hwritten : sink.writeUntil reference.output output with ⟨_ | _, behind⟩
  · obtain ⟨hfailed, -⟩ := hcopied.refused behind hwritten
    cases hfailed
  · obtain ⟨hresult, rfl⟩ := Prod.mk.inj (hcopied.taken behind hwritten)
    refine ⟨reference.output, hwritten, ?_⟩
    simp only [textOf, renderTemplate, Effect.outcome, scope] at htext ⊢
    rw [htext, ← hresult]
    simp [Except.map]

/-- Rendered by an engine with standard helpers, a template that calls only such writes the same
pieces wherever it writes to. A sink that takes them all leads to the result that one has which
takes everything. Another one gets the pieces before the first that it refuses, and no write is
tried behind that; the scopes are closed, and the result is the error for the write. So an error of
another kind is one that is met before a piece is refused. In particular what a successful rendering
of a name has written is the text that the name renders as. -/
theorem output_independent_of_sink {engine : Engine ω}
    (hhelpers : ∀ entry ∈ engine.registry.helpers, entry.2.IsBuiltin) {store : Store ω}
    (hstore : engine.Sound store) (sink : Sink σ) (output : σ) :
    (∀ (template : Template) (data : Value), AllCallOnly Helper.IsBuiltin template.segments →
      let scope := Scope.ofRoot template.name data
      let reference := (engine.renderIn .pieces template.segments).outcome ⟨scope, store, []⟩
      let copy := (engine.renderIn sink template.segments).outcome ⟨scope, store, output⟩
      copy.2.scope = scope ∧
      ((∃ after, sink.writeUntil reference.2.output output = (true, after) ∧
          copy = (reference.1, { reference.2 with output := after })) ∨
        ∃ taken refused later before after, reference.2.output = taken ++ refused :: later ∧
          sink.writeUntil taken output = (true, before) ∧
          sink.write refused before = (false, after) ∧
          copy.1 = .error .write ∧ copy.2.output = after) ∧
      ∀ error, error ≠ .write →
        (copy.1 = .error error ↔
          reference.1 = .error error ∧ (sink.writeUntil reference.2.output output).1 = true)) ∧
    ∀ name data after last,
      (engine.renderTo sink name data).outcome (store, output) = (.ok (), after, last) →
      ∃ pieces, sink.writeUntil pieces output = (true, last) ∧
        (engine.render name data).outcome store = (.ok (String.join pieces), after) := by
  constructor
  · intro template data hcalls scope reference copy
    have hcopied : Copied sink Failed reference.2.output output reference copy :=
      copied_renderIn hhelpers hstore sink hcalls scope output
    have hscope : copy.2.scope = scope := engine.scope_of_renderIn sink template.segments _
    refine ⟨hscope, ?_⟩
    rcases hwritten : sink.writeUntil reference.2.output output with ⟨_ | _, after⟩
    · obtain ⟨hfailed, houtput⟩ := hcopied.refused after hwritten
      obtain ⟨taken, refused, later, before, hsplit, htaken, hrefused⟩ :=
        Sink.exists_of_writeUntil_refused hwritten
      refine ⟨.inr ⟨taken, refused, later, before, after, hsplit, htaken, hrefused, hfailed,
        houtput⟩, ?_⟩
      intro error herror
      constructor
      · intro hother
        exact absurd (Except.error.inj (hother.symm.trans hfailed)) herror
      · rintro ⟨-, ⟨⟩⟩
    · have hcopy := hcopied.taken after hwritten
      refine ⟨.inl ⟨after, rfl, hcopy⟩, ?_⟩
      intro error _
      rw [hcopy]
      exact (and_iff_left rfl).symm
  · intro name data after last h
    obtain ⟨found, middle, value, hget, hvalue, hrendered⟩ := renderTo_eq_ok h
    have hsound := hstore.find name
    rw [find_of_get_eq_ok hget] at hsound
    obtain ⟨hmiddle, hcompiles⟩ := hsound
    obtain ⟨given, source, hcompile⟩ := hcompiles found rfl
    have hcalls := allCallOnly_of_compile hhelpers hcompile
    rw [render_outcome, hvalue, hget]
    exact textOf_of_renderTemplate hhelpers hmiddle hcalls hrendered

/-- Has room for so many bytes, and takes a text whole or not at all. -/
def roomySink (room : Nat) : Sink (List String) where
  write := fun piece written =>
    if (String.join (written ++ [piece])).utf8ByteSize ≤ room then (true, written ++ [piece])
    else (false, written)

def greetingSetup : Setup Unit where
  templates := [("greeting", "Hi \x7b\x7bname\x7d\x7d!")]
  registry := .builtin

def greetingTemplate : Template := ⟨"greeting", [.text "Hi ", .output "name" true 1, .text "!"]⟩

def greetingData : Json := .object [("name", .string "A&B")]

theorem output_independent_of_sink_greeting :
    let engine := greetingSetup.toEngine
    let store := engine.emptyStore ()
    let copy := (engine.renderIn (roomySink 4) greetingTemplate.segments).outcome
      ⟨.ofRoot "greeting" (.ofJson greetingData), store, []⟩
    (copy.1 = .error .write ∧ copy.2.output = ["Hi ", "A"]) ∧
      ((engine.render "greeting" (.ok greetingData)).outcome store).1 = .ok "Hi A&amp;B!" := by
  intro engine store copy
  have hhelpers : ∀ entry ∈ engine.registry.helpers, entry.2.IsBuiltin :=
    fun _ => List.mem_map_of_mem
  have hcalls : AllCallOnly Helper.IsBuiltin greetingTemplate.segments := by
    trivial
  have hwritten : ((engine.renderIn .pieces greetingTemplate.segments).outcome
      ⟨.ofRoot "greeting" (.ofJson greetingData), store, []⟩).2.output =
        ["Hi ", "A", "&amp;", "B", "!"] := by
    decide +kernel
  constructor
  · have hstops : (roomySink 4).writeUntil ["Hi ", "A", "&amp;", "B", "!"] [] =
        (false, ["Hi ", "A"]) := by
      decide +kernel
    obtain ⟨-, ⟨after, htaken, -⟩ | ⟨taken, refused, later, before, after, hsplit, htaken,
        hrefused, hfailed, houtput⟩, -⟩ :=
      (output_independent_of_sink hhelpers (sound_emptyStore engine ()) (roomySink 4) []).1
        greetingTemplate (.ofJson greetingData) hcalls
    · have hall := hstops.symm.trans (hwritten ▸ htaken)
      cases hall
    · have hrest : (roomySink 4).writeUntil (refused :: later) before = (false, after) := by
        rw [Sink.writeUntil, hrefused]
      have hall := Sink.writeUntil_append_of_taken htaken (refused :: later)
      have hpieces := hwritten.symm.trans hsplit
      rw [← hpieces, hstops, hrest] at hall
      exact ⟨hfailed, houtput.trans (Prod.mk.inj hall).2.symm⟩
  · let written := (engine.renderTo .text "greeting" (.ok greetingData)).outcome (store, "")
    have hresult : written.1 = .ok () := by
      decide +kernel
    have htext : written.2.2 = "Hi A&amp;B!" := by
      decide +kernel
    obtain ⟨pieces, htaken, hrender⟩ :=
      (output_independent_of_sink hhelpers (sound_emptyStore engine ()) .text "").2 "greeting"
        (.ok greetingData) written.2.1 written.2.2 (Prod.ext hresult rfl)
    rw [Sink.writeUntil_text, htext] at htaken
    have hjoined : String.join pieces = "Hi A&amp;B!" := by
      simpa using htaken
    rw [hrender, hjoined]

end Engine

end Stencil
