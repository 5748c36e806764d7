import Stencil.Proofs.Engine.Reach
import Stencil.Proofs.Engine.Sinks
import Stencil.Proofs.Rendering.Tracing

/-! Data cannot inject markup. Where values are escaped, a character that begins or ends a tag or a
quoted attribute is in the output only where the text of a template is written. -/

namespace Stencil

/-- All outputs are escaped, and no helper call has a text for the case that nothing is rendered. -/
structure Template.EscapesData (template : Template) : Prop where
  outputs : ∀ name line, .output name false line ∉ template.parts
  calls : ∀ registered tag body elseBody,
    .invocation registered tag body elseBody ∈ template.parts →
      Conditional.elseKey ∉ tag.named.map Prod.fst

/-- A character that is written from a text is one of a text in these templates, and one that is not
is no markup. -/
def Mark.Stems (templates : Template → Prop) (mark : Mark) : Prop :=
  match mark.origin with
  | none => ¬ Text.IsMarkup mark.char
  | some text =>
    mark.char ∈ text.toList ∧ ∃ template, templates template ∧ .text text ∈ template.parts

theorem Mark.Stems.exists_origin {templates : Template → Prop} {mark : Mark}
    (h : mark.Stems templates) (hmarkup : Text.IsMarkup mark.char) :
    ∃ text template, mark.origin = some text ∧ mark.char ∈ text.toList ∧ templates template ∧
      .text text ∈ template.parts := by
  unfold Stems at h
  split at h
  · exact absurd hmarkup h
  · rename_i text horigin
    obtain ⟨hmem, template, htemplate, htext⟩ := h
    exact ⟨text, template, horigin, hmem, htemplate, htext⟩

theorem Frame.likeness_eq : Likeness Eq where
  refl _ := rfl
  truth := by
    rintro frame _ rfl
    rfl

theorem Scope.Alike.eq {scope other : Scope} (h : scope.Alike Eq other) : other = scope := by
  obtain ⟨htemplate, hinclusions, hframes⟩ := h
  obtain ⟨template, frames, inclusions⟩ := scope
  obtain ⟨otherTemplate, otherFrames, otherInclusions⟩ := other
  rw [List.forall₂_eq_eq_eq] at hframes
  simp_all

theorem Naming.settles_eq (naming : Naming) (name : String) : naming.Settles Eq name :=
  fun _ _ halike => by rw [halike.eq]

namespace Render

variable {κ σ : Type} {setting : Setting κ} {stores : κ → Prop} {templates : Template → Prop}

theorem not_isMarkup_of_mem_pieces (hescaping : setting.config.skipEscaping = false) (value : Value)
    {text : String} (htext : text ∈ setting.pieces true value) {c : Char} (hc : c ∈ text.toList) :
    ¬ Text.IsMarkup c := by
  rw [Setting.pieces, hescaping] at htext
  obtain ⟨piece, hpiece, rfl⟩ := List.mem_map.mp htext
  rw [String.toList_ofList] at hc
  exact Text.not_isMarkup_of_mem_escapePieces hpiece hc

theorem suits_marking (hescaping : setting.config.skipEscaping = false) {template : Template}
    (htemplate : templates template) (hescapes : template.EscapesData)
    (hcalls : Segment.AllCallOnly Helper.IsDiscreet template.segments) {sink : Sink σ}
    {read : σ → String} (hsink : sink.Gathers read) {part : Segment}
    (hpart : part ∈ template.parts) :
    Suits setting Eq (Traces read (Mark.Stems templates)) sink (.marking some)
      (.marking fun _ => none) part := by
  refine ⟨fun name _ => setting.naming.settles_eq name, ?_⟩
  cases part with
  | text text => exact Sink.takesAlike_marking hsink fun c hc => ⟨hc, template, htemplate, hpart⟩
  | output name escaped line =>
    cases escaped with
    | false => exact absurd hpart (hescapes.outputs name line)
    | true =>
      exact fun value text htext => Sink.takesAlike_marking hsink fun c hc =>
        not_isMarkup_of_mem_pieces hescaping value htext hc
  | invocation registered tag body elseBody =>
    intro scope hasElse
    have hdiscreet : registered.helper.IsDiscreet := Segment.AllCallOnly.of_mem_parts hcalls hpart
    refine hdiscreet _ _ fun value hvalue => ?_
    obtain ⟨before, after, hsplit, -⟩ := List.lookup_eq_some_iff.mp hvalue
    have hmem : (Conditional.elseKey, value) ∈ (callOf setting scope tag hasElse).named := by
      simp [hsplit]
    obtain ⟨entry, hentry, hkey⟩ := List.mem_map.mp hmem
    exact absurd (List.mem_map.mpr ⟨entry, hentry, (Prod.mk.inj hkey).1⟩)
      (hescapes.calls registered tag body elseBody hpart)
  | block name inverted body line => trivial
  | inclusion name indent line => trivial
  | comment => trivial

variable (hescaping : setting.config.skipEscaping = false)
  (hencloses : setting.Encloses templates stores)
  (htemplates : ∀ template, templates template → template.EscapesData ∧
    Segment.AllCallOnly Helper.IsDiscreet template.segments ∧ BlankIndents template.segments)

include hescaping hencloses htemplates

/-- The trace of a rendering is that of its output, where inclusions may nest so much deeper. -/
theorem pairs_traced (depth : Nat) {sink : Sink σ} {read : σ → String} (hsink : sink.Gathers read)
    {template : Template} (htemplate : templates template) :
    Pairs (Paired Eq stores (Traces read (Mark.Stems templates)))
      (nested setting depth σ sink template.segments)
      (traced setting depth template.segments) := by
  have hsegments {τ : Type} {sink : Sink τ} {read : τ → String} (hsink : sink.Gathers read)
      {template : Template} (htemplate : templates template) {deeper : Option (Renderer κ)}
      {placed : Option (String → List Segment → Render κ Trace Unit)}
      (hplaced : ∀ indent, Text.allBlank indent.toList = true → Option.Rel
        (PlacedAlike Eq stores (Traces read (Mark.Stems templates)) templates indent)
        (deeper.map (place sink)) placed) :
      Pairs (Paired Eq stores (Traces read (Mark.Stems templates)))
        (segments setting deeper sink template.segments)
        (segmentsInto setting (.marking some) (.marking fun _ => none)
          (inclusionBy setting placed) template.segments) := by
    obtain ⟨hescapes, hcalls, hindents⟩ := htemplates template htemplate
    rw [segments_eq_segmentsBy, inclusion_eq_inclusionBy]
    refine pairs_segmentsInto Frame.likeness_eq template.segments fun part hpart => ⟨?_, ?_⟩
    · exact suits_marking hescaping htemplate hescapes hcalls hsink hpart
    · refine includesAlike_inclusionBy hencloses htemplate hpart ?_
      rintro name indent line rfl
      exact hplaced indent (hindents _ hpart)
  induction depth generalizing σ template with
  | zero => exact hsegments hsink htemplate fun _ _ => .none
  | succ depth ih =>
    refine hsegments hsink htemplate fun indent hblank => .some fun found hfound => ?_
    refine pairs_tracePlaced hsink (fun τ sink read hsink => ih hsink hfound) fun c hc => ?_
    exact Text.not_isMarkup_of_isBlank (List.all_eq_true.mp hblank c hc)

theorem pairs_tracedAll {sink : Sink σ} {read : σ → String} (hsink : sink.Gathers read)
    {template : Template} (htemplate : templates template) :
    Pairs (Paired Eq stores (Traces read (Mark.Stems templates)))
      (all setting sink template.segments) (tracedAll setting template.segments) := by
  apply pairs_ask_bind
  intro state second hpaired
  rw [hpaired.scope.inclusions]
  exact pairs_traced hescaping hencloses htemplates _ hsink htemplate

end Render

namespace Engine

open Render Segment

variable {ω σ : Type}

/-- Data cannot inject markup. An engine that escapes values and has standard helpers only renders a
template. In it and in all templates that it can come to include, no output is unescaped, and no
helper call has a text for the case that nothing is rendered. Then the rendering that keeps a trace
writes the same characters. Those that begin or end a tag or a quoted attribute are written from
texts of these templates, so those that are in no such text are not written. No sink is given
anything else, whether the rendering ends with an error or not. -/
theorem data_injects_no_markup {engine : Engine ω} (hescaping : engine.config.skipEscaping = false)
    (hhelpers : ∀ entry ∈ engine.registry.helpers, entry.2.IsBuiltin) {store : Store ω}
    (hstore : engine.Sound store) {options : CompileOptions} {name source : String}
    {template : Template} (htemplate : compile options name source = .ok template)
    (hcalls : AllCallOnly Helper.IsBuiltin template.segments)
    (hescapes : ∀ reached, engine.setting.Reaches template store reached → reached.EscapesData)
    (data : Value) (sink : Sink σ) (output : σ) :
    let scope := Scope.ofRoot template.name data
    let reference := (engine.renderIn .pieces template.segments).outcome ⟨scope, store, []⟩
    let copy := (engine.renderIn sink template.segments).outcome ⟨scope, store, output⟩
    let traced := (tracedAll engine.setting template.segments).outcome ⟨scope, store, []⟩
    (traced.1 = reference.1 ∧
      traced.2.output.map Mark.char = (String.join reference.2.output).toList) ∧
    (∀ mark ∈ traced.2.output, Text.IsMarkup mark.char →
      ∃ text reached, mark.origin = some text ∧ mark.char ∈ text.toList ∧
        engine.setting.Reaches template store reached ∧ .text text ∈ reached.parts) ∧
    copy.2.output = (sink.writeUntil reference.2.output output).2 ∧
    ∀ c, Text.IsMarkup c →
      (∀ reached, engine.setting.Reaches template store reached →
        ∀ text, .text text ∈ reached.parts → c ∉ text.toList) →
      ∀ piece ∈ reference.2.output, c ∉ piece.toList := by
  intro scope reference copy traced
  let templates (reached : Template) :=
    engine.setting.Reaches template store reached ∧
      AllCallOnly Helper.IsBuiltin reached.segments ∧ BlankIndents reached.segments
  let stores (before : Store ω) := engine.setting.Leads template store before ∧ engine.Sound before
  have hencloses : engine.setting.Encloses templates stores :=
    engine.encloses_compiled template store fun _ hcompiles =>
      ⟨hcompiles.allCallOnly hhelpers, hcompiles.blankIndents⟩
  have htemplates : ∀ reached, templates reached → reached.EscapesData ∧
      AllCallOnly Helper.IsDiscreet reached.segments ∧ BlankIndents reached.segments := by
    rintro reached ⟨hreached, hbuiltin, hindents⟩
    exact ⟨hescapes reached hreached, hbuiltin.mono fun _ h => h.discreet, hindents⟩
  obtain ⟨hresult, hlast⟩ := pairs_tracedAll hescaping hencloses htemplates Sink.gathers_pieces
    ⟨.start, hcalls, blankIndents_of_compile htemplate⟩ ⟨scope, store, []⟩ ⟨scope, store, []⟩
    ⟨⟨rfl, rfl, List.forall₂_same.mpr fun _ _ => rfl⟩, rfl, ⟨.start, hstore⟩,
      ⟨rfl, fun _ hmem => nomatch hmem⟩⟩
  obtain ⟨hchars, hstems⟩ := hlast.output
  have horigin : ∀ mark ∈ traced.2.output, Text.IsMarkup mark.char →
      ∃ text reached, mark.origin = some text ∧ mark.char ∈ text.toList ∧
        engine.setting.Reaches template store reached ∧ .text text ∈ reached.parts := by
    intro mark hmark hmarkup
    obtain ⟨text, reached, horigin, hmem, ⟨hreached, -⟩, hpart⟩ :=
      (hstems mark hmark).exists_origin hmarkup
    exact ⟨text, reached, horigin, hmem, hreached, hpart⟩
  have hcopied := copied_renderIn hhelpers hstore sink hcalls scope output
  refine ⟨⟨hresult, hchars⟩, horigin, hcopied.output_eq, ?_⟩
  intro c hmarkup hnone piece hpiece hc
  have hmem : c ∈ traced.2.output.map Mark.char := by
    rw [hchars, String.toList_join]
    exact List.mem_flatMap.mpr ⟨piece, hpiece, hc⟩
  obtain ⟨mark, hmark, rfl⟩ := List.mem_map.mp hmem
  obtain ⟨text, reached, -, htext, hreached, hpart⟩ := horigin mark hmark hmarkup
  exact hnone reached hreached text hpart htext

def listSetup : Setup Unit where
  config := { cacheEnabled := false }
  templates := [("entry", "\x7b\x7bname\x7d\x7d\n")]
  registry := .builtin

def entryTemplate : Template := ⟨"entry", [.output "name" true 1, .text "\n"]⟩

def listSource : String := "<ul>\n  \x7b\x7b> entry\x7d\x7d\n</ul>\n"

def listTemplate : Template :=
  ⟨"list", [.text "<ul>\n", .inclusion "entry" "  " 2, .text "</ul>\n"]⟩

def listData : Value := .map [("name", .string "<b class=\"x\">\n'")]

theorem find_listEntry (store : Store Unit) :
    ((listSetup.toEngine.setting.find "entry").outcome store).1 = .ok (some entryTemplate) := by
  let engine := listSetup.toEngine
  let source := "\x7b\x7bname\x7d\x7d\n"
  have htokens : tokenize "entry" {} source =
      .ok [.tag .escaped "name" 1, .literal "\n" 1] := by
    decide +kernel
  have hcompile : engine.compileSource "entry" source = .ok entryTemplate := by
    rw [compileSource, compile, show engine.compileOptions.delimiters = {} from rfl, htokens]
    rfl
  exact find_setting_of_uncached rfl rfl hcompile

theorem compile_list :
    compile listSetup.toEngine.compileOptions "list" listSource = .ok listTemplate := by
  have htokens : tokenize "list" {} listSource =
      .ok [.literal "<ul>\n" 1, .literal "  " 2, .tag .inclusion "entry" 2, .literal "\n" 2,
        .literal "</ul>\n" 3] := by
    decide +kernel
  rw [compile, show listSetup.toEngine.compileOptions.delimiters = {} from rfl, htokens]
  rfl

theorem data_injects_no_markup_list :
    let engine := listSetup.toEngine
    let store := engine.emptyStore ()
    let reference := (engine.renderIn .pieces listTemplate.segments).outcome
      ⟨.ofRoot "list" listData, store, []⟩
    String.join reference.2.output =
        "<ul>\n  &lt;b class=&quot;x&quot;&gt;\n  &#39;\n</ul>\n" ∧
      ∀ piece ∈ reference.2.output, '"' ∉ piece.toList := by
  intro engine store reference
  have hhelpers : ∀ entry ∈ engine.registry.helpers, entry.2.IsBuiltin :=
    fun _ => List.mem_map_of_mem
  have hcalls : AllCallOnly Helper.IsBuiltin listTemplate.segments := by
    trivial
  have hencloses : engine.setting.Encloses
      (fun template => template = listTemplate ∨ template = entryTemplate) fun _ => True := by
    refine Setting.encloses_pair ?_ ?_ find_listEntry
    · rintro included ⟨indent, line, hmem⟩
      have hentry : included = "entry" ∧ indent = "  " ∧ line = 2 := by
        simpa [Template.parts, listTemplate, partsAll, parts] using hmem
      exact hentry.1
    · rintro included ⟨indent, line, hmem⟩
      simp [Template.parts, entryTemplate, partsAll, parts] at hmem
  have hparts : ∀ reached, engine.setting.Reaches listTemplate store reached →
      reached.parts = listTemplate.segments ∨ reached.parts = entryTemplate.segments := by
    intro reached hreached
    rcases hencloses.reaches (.inl rfl) trivial hreached with rfl | rfl
    · exact .inl rfl
    · exact .inr rfl
  have hescapes : ∀ reached, engine.setting.Reaches listTemplate store reached →
      reached.EscapesData := by
    intro reached hreached
    rcases hparts reached hreached with hpart | hpart <;>
      exact ⟨by simp [hpart, listTemplate, entryTemplate],
        by simp [hpart, listTemplate, entryTemplate]⟩
  have hquotes : ∀ reached, engine.setting.Reaches listTemplate store reached →
      ∀ text, .text text ∈ reached.parts → '"' ∉ text.toList := by
    intro reached hreached text htext
    rcases hparts reached hreached with hpart | hpart
    · rw [hpart] at htext
      obtain rfl | rfl : text = "<ul>\n" ∨ text = "</ul>\n" := by
        simpa [listTemplate] using htext
      all_goals decide
    · rw [hpart] at htext
      obtain rfl : text = "\n" := by simpa [entryTemplate] using htext
      decide
  have hwritten : String.join reference.2.output =
      "<ul>\n  &lt;b class=&quot;x&quot;&gt;\n  &#39;\n</ul>\n" := by
    decide +kernel
  obtain ⟨-, -, -, hnone⟩ := data_injects_no_markup rfl hhelpers (sound_emptyStore engine ())
    compile_list hcalls hescapes listData .text ""
  exact ⟨hwritten, hnone '"' (by decide) hquotes⟩

end Engine

end Stencil
