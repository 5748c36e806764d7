import Stencil.Proofs.Engine.Inclusions
import Stencil.Proofs.Engine.Requests
import Stencil.Proofs.Rendering.Chains
import Stencil.Proofs.Tree.WellFormed

/-! Chains of templates, each of which holds an inclusion of the next one alone, from their sources
on. -/

namespace Stencil

inductive BlankTokens : String → List Token → Prop where
  | none : BlankTokens "" []
  | literal {text : String} (h : Text.allBlank text.toList = true) (line : Nat) :
    BlankTokens text [.literal text line]

/-- The tokens of a source of one line, with blanks around one inclusion. -/
inductive OnlyIncludes (next indent : String) : List Token → Prop where
  | intro {blanks : String} {front behind : List Token} (hfront : BlankTokens indent front)
    (hinline : '\n' ∉ indent.toList) (line : Nat) (hbehind : BlankTokens blanks behind) :
    OnlyIncludes next indent (front ++ .tag .inclusion next line :: behind)

namespace OnlyIncludes

variable {next indent : String} {tokens : List Token} (h : OnlyIncludes next indent tokens)

include h

theorem inline : '\n' ∉ indent.toList := by
  obtain ⟨-, hinline, -, -⟩ := h
  exact hinline

theorem tokenLines_eq : tokenLines tokens = [tokens] := by
  obtain ⟨hfront, hinline, line, hbehind⟩ := h
  have hunended : indent.toList.getLast? ≠ some '\n' := fun hlast =>
    hinline (List.mem_of_getLast? hlast)
  cases hfront <;> cases hbehind <;> simp_all [tokenLines, Token.endsLine]

theorem allMayStandAlone_eq (registry : Registry) :
    allMayStandAlone registry [] tokens = (true, []) := by
  obtain ⟨hfront, -, line, hbehind⟩ := h
  cases hfront <;> cases hbehind <;>
    simp_all [allMayStandAlone, Token.mayStandAlone, OpenKinds.after, TagKind.isBlock]

theorem lineItems_eq :
    ∃ line, lineItems true tokens = [⟨.tag .inclusion next line, indent⟩] := by
  obtain ⟨hfront, -, line, hbehind⟩ := h
  refine ⟨line, ?_⟩
  cases hfront <;> cases hbehind <;> rfl

/-- Such a source is compiled to the inclusion, with the blanks in front of it as its indent. -/
theorem compile_eq {options : CompileOptions} (htrim : options.trimLines = true)
    {name source : String} (htokens : tokenize name options.delimiters source = .ok tokens) :
    ∃ line, compile options name source = .ok ⟨name, [.inclusion next indent line]⟩ := by
  obtain ⟨line, hline⟩ := h.lineItems_eq
  have hitems : itemsOf options.registry options.trimLines tokens =
      [⟨.tag .inclusion next line, indent⟩] := by
    rw [itemsOf, htrim, if_pos rfl, h.tokenLines_eq, standaloneItems_cons, h.allMayStandAlone_eq,
      hline]
    rfl
  refine ⟨line, ?_⟩
  rw [compile, htokens]
  simp only [bind, Except.bind, hitems]
  rfl

end OnlyIncludes

theorem newline_notMem_of_compile {options : CompileOptions} {name source : String}
    {template : Template} (h : compile options name source = .ok template) {next indent : String}
    {line : Nat} (hmem : .inclusion next indent line ∈ template.parts) :
    '\n' ∉ indent.toList := by
  obtain ⟨tokens, inHelper, hsound⟩ := isSound_of_mem_parts h hmem
  exact hsound.inline

namespace Engine

open Render

variable {ω : Type} {alike : ω → ω → Prop} {engine : Engine ω} {start store : Store ω}

/-- Sources that locators know in this world, where each but the last one is an inclusion of the
next one, with these indents in front of the inclusions. -/
inductive Nests (engine : Engine ω) (world : ω) : String → List String → String → Prop where
  | last {name source : String} (hsource : (engine.located name world).1 = .ok (some source)) :
    Nests engine world name [] name
  | next {name source next last indent : String} {tokens : List Token} {indents : List String}
    (hsource : (engine.located name world).1 = .ok (some source))
    (htokens : tokenize name engine.config.delimiters source = .ok tokens)
    (honly : OnlyIncludes next indent tokens) (hnext : Nests engine world next indents last) :
    Nests engine world name (indent :: indents) last

theorem Nests.leadsTo {world : ω} (htrim : engine.config.trimLines = true) {first last : String}
    {indents : List String} (h : engine.Nests world first indents last) :
    LeadsTo (fun name => engine.compileFound name (engine.located name world).1) first indents
      last := by
  induction h with
  | last hsource => exact .last _
  | @next name source next last indent tokens indents hsource htokens honly hnext ih =>
    have hoptions : engine.compileOptions.trimLines = true := htrim
    obtain ⟨line, hcompile⟩ := honly.compile_eq hoptions htokens
    exact .next (compileFound_eq_ok_iff.mpr ⟨source, hsource, hcompile⟩) honly.inline ih

theorem Nests.located_first {world : ω} {first last : String} {indents : List String}
    (h : engine.Nests world first indents last) :
    ∃ source, (engine.located first world).1 = .ok (some source) := by
  cases h with
  | last hsource => exact ⟨_, hsource⟩
  | next hsource htokens honly hnext => exact ⟨_, hsource⟩

theorem Nests.located_last {world : ω} {first last : String} {indents : List String}
    (h : engine.Nests world first indents last) :
    ∃ source, (engine.located last world).1 = .ok (some source) := by
  induction h with
  | last hsource => exact ⟨_, hsource⟩
  | next hsource htokens honly hnext ih => exact ih

theorem textOf_eq_textBy (engine : Engine ω) (template : Template) (data : Value)
    (store : Store ω) :
    ((engine.textOf template data).outcome store).1 =
      textBy (engine.renderIn .text template.segments) (.ofRoot template.name data) store := rfl

/-- A request for a known name is answered by the text that an inclusion of it would find. -/
theorem renderValue_eq_foundText {allowed : Helper → Prop} {stores : Store ω → Prop}
    {answers : String → Except Error (Option String)}
    (hkeeps : engine.setting.Keeps allowed stores
      fun name => engine.compileFound name (answers name))
    (hstore : stores store) {name source : String} (hsource : answers name = .ok (some source))
    (data : Value) :
    ((engine.renderValue name data).outcome store).1 =
      foundText engine.setting (engine.compileFound name (answers name)) (.ofRoot name data)
        ((engine.find name).outcome store).2 := by
  have hanswer := hkeeps.finds name store hstore
  rw [find_setting] at hanswer
  rw [renderValue_outcome, get_outcome, ← hanswer]
  rcases hfind : (engine.find name).outcome store with ⟨error | _ | found, after⟩ <;>
    rw [hfind] at hanswer
  · rfl
  · -- A name with a source is found, or fails to compile.
    rw [hsource, compileFound] at hanswer
    cases hcompile : engine.compileSource name source <;> rw [hcompile] at hanswer <;> cases hanswer
  · obtain ⟨other, -, hcompile⟩ := compileFound_eq_ok_iff.mp hanswer.symm
    obtain ⟨hname, -⟩ := compile_eq_ok hcompile
    exact (engine.textOf_eq_textBy found.template data after).trans (by rw [hname]; rfl)

/-- Rendering the template of this name leaves room for so many inclusions around it. -/
def LeavesRoom (engine : Engine ω) (store : Store ω) (name : String) (data : Value)
    (count : Nat) : Prop :=
  ∀ found, ((engine.find name).outcome store).1 = .ok (some found) →
    ∀ moment ∈ (engine.renderIn .text found.template.segments).moments
        ⟨.ofRoot name data, ((engine.find name).outcome store).2, ""⟩,
      moment.scope.inclusions.length + count ≤ engine.config.inclusionLimit

/-- A chain has the text of its last template, with all the indents in front of each line. -/
theorem Nests.renderValue_eq {allowed : Helper → Prop} {stores : Store ω → Prop} {world : ω}
    (hkeeps : engine.setting.Keeps allowed stores
      fun name => engine.compileFound name (engine.located name world).1)
    (htrim : engine.config.trimLines = true) {first last : String} {indents : List String}
    (h : engine.Nests world first indents last) (hstore : stores store) (data : Value)
    (hlength : indents.length ≤ engine.config.inclusionLimit)
    (hroom : engine.LeavesRoom store last data indents.length) :
    ((engine.renderValue first data).outcome store).1 =
      ((engine.renderValue last data).outcome store).1.map (indented (String.join indents)) := by
  obtain ⟨source, hfirst⟩ := h.located_first
  obtain ⟨other, hlast⟩ := h.located_last
  have hbehind : ∀ name, stores ((engine.find name).outcome store).2 := by
    intro name
    have hfind := hkeeps.keeps name store hstore
    rwa [find_setting] at hfind
  rw [renderValue_eq_foundText hkeeps hstore hfirst, renderValue_eq_foundText hkeeps hstore hlast]
  refine (h.leadsTo htrim).foundText_ofRoot hkeeps (hbehind first) (hbehind last) data hlength ?_
  intro template htemplate moment hmoment
  have hanswer := hkeeps.finds last store hstore
  rw [find_setting, htemplate] at hanswer
  rcases hfind : (engine.find last).outcome store with ⟨error | _ | found, after⟩ <;>
    rw [hfind] at hanswer hmoment <;> cases hanswer
  have hfound : ((engine.find last).outcome store).1 = .ok (some found) := by rw [hfind]
  have hleft := hroom found hfound moment (by rw [hfind]; exact hmoment)
  exact Nat.le_sub_of_add_le hleft

/-- Nested indents add up. In front of the lines of a text an indent without newlines is written
once for each of them: the lines stay the same lines, the indent can be taken away from all of them
again, no newline comes in, and another indent around it is the same as both at once. The indents in
compiled templates have no newlines. So where each template of a chain but the last one is an
inclusion that stands alone on its line, the text of the first one is that of the last one with all
the indents in front of each line, the outermost one first. This is for locators that keep to their
answers, in any state of the cache, and for chains that stay within the limit for inclusions. -/
theorem nested_indents_compose :
    (∀ indent text : String, '\n' ∉ indent.toList →
      (∀ written, Sink.text.writeUntil (indentedPieces indent text) written =
        (true, written ++ indented indent text)) ∧
      Text.lines (indented indent text).toList =
        (Text.lines text.toList).map (indent.toList ++ ·) ∧
      unindented indent (indented indent text) = text ∧
      Text.newlines (indented indent text).toList = Text.newlines text.toList ∧
      ∀ outer, indented outer (indented indent text) = indented (outer ++ indent) text) ∧
    (∀ options name source template, compile options name source = .ok template →
      ∀ next indent line, .inclusion next indent line ∈ template.parts → '\n' ∉ indent.toList) ∧
    ∀ (ω : Type) (alike : ω → ω → Prop) (setup : Setup ω),
      (∀ locator ∈ setup.locators, locator.Steady alike) → ∀ world, alike world world →
      ∀ engine start store, setup.build world = .ok (engine, start) → engine.Visits start store →
      engine.config.trimLines = true → ∀ first indents last, engine.Nests world first indents last →
      ∀ data, indents.length ≤ engine.config.inclusionLimit →
      engine.LeavesRoom store last data indents.length →
      ((engine.renderValue first data).outcome store).1 =
        ((engine.renderValue last data).outcome store).1.map (indented (String.join indents)) := by
  refine ⟨fun indent text hinline => ?_, fun options name source template hcompile => ?_, ?_⟩
  · exact ⟨writeUntil_indentedPieces indent text, lines_indented hinline text,
      unindented_indented hinline text, newlines_indented hinline text,
      fun outer => indented_indented hinline outer text⟩
  · exact fun next indent line hmem => newline_notMem_of_compile hcompile hmem
  · intro ω alike setup hsteady world hworld engine start store hbuild hstore htrim first indents
      last hnests data hlength hroom
    obtain ⟨rfl, hstart⟩ := Setup.twin_of_build hsteady hworld hbuild
    have hlocators := Setup.steady_locators hsteady
    have hlocated := exists_located hlocators hworld
    have hkeeps : setup.toEngine.setting.Keeps (fun _ => True) _ _ :=
      keeps_twins hlocated fun _ _ => trivial
    exact hnests.renderValue_eq hkeeps htrim (hstore.exists_twin hlocated hlocators hstart) data
      hlength hroom

def letterSource : String := "  \x7b\x7b> quote\x7d\x7d\n"

def quoteSource : String := "\t\x7b\x7b> note\x7d\x7d \t"

def letterSetup : Setup Unit where
  templates := [("letter", letterSource), ("quote", quoteSource),
    ("note", "Dear \x7b\x7bname\x7d\x7d,\n\nbye")]
  registry := .builtin

theorem nested_indents_compose_letter :
    let engine := letterSetup.toEngine
    let store := engine.emptyStore ()
    let data := Value.map [("name", .string "Ann")]
    engine.Nests () "letter" ["  ", "\t"] "note" ∧ engine.LeavesRoom store "note" data 2 ∧
      ((engine.renderValue "note" data).outcome store).1 = .ok "Dear Ann,\n\nbye" ∧
      ((engine.renderValue "letter" data).outcome store).1 =
        .ok "  \tDear Ann,\n  \t\n  \tbye" := by
  intro engine store data
  have hsteady : ∀ locator ∈ letterSetup.locators, locator.Steady fun _ _ => True :=
    fun _ hmem => nomatch hmem
  have hbuild : letterSetup.build () = .ok (engine, store) := rfl
  have hletter : OnlyIncludes "quote" "  "
      [.literal "  " 1, .tag .inclusion "quote" 1, .literal "\n" 1] :=
    .intro (.literal (by decide) 1) (by decide) 1 (.literal (by decide) 1)
  have hquote : OnlyIncludes "note" "\t"
      [.literal "\t" 1, .tag .inclusion "note" 1, .literal " \t" 1] :=
    .intro (.literal (by decide) 1) (by decide) 1 (.literal (by decide) 1)
  have hfirst : (engine.located "letter" ()).1 = .ok (some letterSource) := by decide +kernel
  have hsecond : (engine.located "quote" ()).1 = .ok (some quoteSource) := by decide +kernel
  have hthird : (engine.located "note" ()).1 =
      .ok (some "Dear \x7b\x7bname\x7d\x7d,\n\nbye") := by decide +kernel
  have hnests : engine.Nests () "letter" ["  ", "\t"] "note" :=
    .next hfirst (by decide +kernel) hletter
      (.next hsecond (by decide +kernel) hquote (.last hthird))
  have hmoments : (((engine.find "note").outcome store).1.toOption.join.all fun found =>
      ((engine.renderIn .text found.template.segments).moments
        ⟨.ofRoot "note" data, ((engine.find "note").outcome store).2, ""⟩).all fun moment =>
          moment.scope.inclusions.length + 2 ≤ engine.config.inclusionLimit) = true := by
    decide +kernel
  have hroom : engine.LeavesRoom store "note" data 2 := by
    intro found hfound moment hmoment
    rw [hfound] at hmoments
    exact of_decide_eq_true (List.all_eq_true.mp hmoments moment hmoment)
  have hnote : ((engine.renderValue "note" data).outcome store).1 = .ok "Dear Ann,\n\nbye" := by
    decide +kernel
  have hlines : indented "  \t" "Dear Ann,\n\nbye" = "  \tDear Ann,\n  \t\n  \tbye" := by
    decide +kernel
  refine ⟨hnests, hroom, hnote, ?_⟩
  rw [nested_indents_compose.2.2 Unit (fun _ _ => True) letterSetup hsteady () trivial engine store
    store hbuild .start rfl "letter" _ "note" hnests data (by decide) hroom, hnote]
  exact congrArg Except.ok hlines

end Engine

end Stencil
