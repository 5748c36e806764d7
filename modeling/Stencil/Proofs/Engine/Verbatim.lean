import Stencil.Helper.Builtin
import Stencil.Proofs.Engine.Requests
import Stencil.Proofs.Standalone.Trimming
import Stencil.Proofs.Token.Printing

/-! What is written outside of tags is rendered as it stands, where no tag puts anything in its
place: only comments and changes of delimiters are taken out of the source. -/

namespace Stencil

open Segment (contentsAll)

namespace Token

/-- A tag that leaves nothing in the output and opens nothing. -/
def isRemark : Token → Bool
  | .tag .comment .. => true
  | .delimiterChange .. => true
  | _ => false

def text : Token → List Char
  | .literal text _ => text.toList
  | _ => []

end Token

def Read.isLiteral (read : Read) : Bool :=
  match read.answer with
  | .ok token => token.isLiteral
  | .error _ => false

/-- Where nothing is wrong, a lexer can be called to the end of the source, and answers with the
tokens of its run. -/
theorem Calls.run {start lexer : Lexer} {reads : List Read} (h : Calls start reads lexer)
    (hlive : lexer.failed = false) (hfault : lexer.run.fault = none) :
    ∃ later last, Calls start (reads ++ later) last ∧ last.next? = none ∧ last.rest = [] ∧
      later.map Read.answer = lexer.run.tokens.map .ok := by
  match hnext : lexer.next? with
  | none =>
    refine ⟨[], lexer, by simpa using h, hnext, Lexer.rest_eq_nil hnext hlive, ?_⟩
    rw [Lexer.run]
    split <;> simp_all
  | some (.error fault, behind) =>
    rw [Lexer.run] at hfault
    split at hfault <;> simp_all
  | some (.ok token, behind) =>
    have hbehind : behind.failed = false := by
      obtain ⟨-, -, hstep⟩ := Lexer.next?_eq_ok hnext
      rw [Lexer.step_failed hstep, hlive]
    rw [Lexer.run_of_next? hnext] at hfault ⊢
    obtain ⟨later, last, hcalls, hend, hrest, hanswers⟩ := (h.snoc hnext).run hbehind hfault
    refine ⟨⟨lexer, .ok token, behind⟩ :: later, last, ?_, hend, hrest, ?_⟩
    · simpa using hcalls
    · simp [hanswers]
termination_by lexer.rest.length
decreasing_by exact Lexer.next?_rest_lt hnext

/-- The literals among the answers have the texts that their calls take from the source. -/
theorem Calls.flatMap_text {delimiters : Delimiters} {source : String} {reads : List Read}
    {lexer : Lexer} (h : Calls (.ofSource delimiters source) reads lexer) {tokens : List Token}
    (htokens : reads.map Read.answer = tokens.map .ok) :
    tokens.flatMap Token.text = spans (reads.filter Read.isLiteral) := by
  induction h generalizing tokens with
  | nil =>
    obtain rfl : tokens = [] := by simpa using htokens.symm
    rfl
  | @snoc reads lexer behind answer earlier call ih =>
    rw [List.map_append, List.map_singleton] at htokens
    obtain ⟨front, back, rfl, hfront, hback⟩ := List.map_eq_append_iff.mp htokens.symm
    obtain ⟨token, rfl, rfl⟩ : ∃ token, back = [token] ∧ .ok token = answer := by
      simpa [List.map_eq_singleton_iff] using hback
    obtain ⟨-, -, -, hspells⟩ := earlier.exact call
    rw [List.flatMap_append, ih hfront.symm, List.filter_append, spans, spans,
      List.flatMap_append]
    congr 1
    cases token with
    | literal text line =>
      have htext : text.toList = Read.span ⟨lexer, .ok (.literal text line), behind⟩ := hspells.1
      simp [Token.text, List.filter_cons, Read.isLiteral, Token.isLiteral, htext]
    | tag kind content line => rfl
    | delimiterChange opening closing line => rfl

/-- Where no tag can start nothing but literals is read. -/
theorem Lexer.run_of_not_infix (lexer : Lexer) (hlive : lexer.failed = false)
    (h : ¬ lexer.delimiters.opening.toList <:+: lexer.rest) :
    lexer.run.fault = none ∧ (∀ token ∈ lexer.run.tokens, token.isLiteral = true) ∧
      lexer.run.tokens.flatMap Token.text = lexer.rest := by
  by_cases hrest : lexer.rest = []
  · have hend : lexer.next? = none := by simp [next?, hrest]
    rw [run]
    split <;> simp_all
  · have hnone : lexer.delimiters.opening.toList.isPrefixOf? lexer.rest = none :=
      Text.isPrefixOf?_eq_none.mpr fun hopens => h hopens.isInfix
    have hstep : lexer.step = (.ok lexer.literal.1, lexer.literal.2) := by rw [step, hnone]
    have hnext : lexer.next? = some (.ok lexer.literal.1, lexer.literal.2) :=
      next?_of_step hlive hrest hstep
    have hsplit := Text.lineBefore_append lexer.delimiters.opening.toList lexer.rest
    have hlater : ¬ lexer.delimiters.opening.toList <:+: lexer.literal.2.rest := by
      refine fun hoccurs => h (hoccurs.trans ?_)
      rw [← hsplit]
      exact (List.suffix_append _ _).isInfix
    obtain ⟨hfault, hliterals, htext⟩ := run_of_not_infix lexer.literal.2 hlive hlater
    rw [run_of_next? hnext]
    refine ⟨hfault, ?_, ?_⟩
    · rintro token (_ | ⟨_, hmem⟩)
      · rfl
      · exact hliterals token hmem
    · rw [List.flatMap_cons, htext]
      exact (congrArg (· ++ _) String.toList_ofList).trans hsplit
termination_by lexer.rest.length
decreasing_by exact Lexer.next?_rest_lt hnext

/-- A line without tags does not stand alone. -/
theorem lineItems_of_literals {line : List Token} (h : ∀ token ∈ line, token.isLiteral = true)
    (standsAlone : Bool) : lineItems standsAlone line = untrimmed line := by
  have htagged : (line.any fun token => !token.isLiteral) = false := by simpa using h
  simp [lineItems, htagged, untrimmed]

theorem standaloneItems_of_literals (registry : Registry) {lines : List (List Token)}
    (h : ∀ token ∈ lines.flatten, token.isLiteral = true) (kinds : OpenKinds) :
    standaloneItems registry kinds lines = untrimmed lines.flatten := by
  induction lines generalizing kinds with
  | nil => rfl
  | cons line later ih =>
    rw [List.flatten_cons] at h ⊢
    have hline := lineItems_of_literals fun token hmem => h token (List.mem_append_left _ hmem)
    rw [standaloneItems_cons, hline, ih fun token hmem => h token (List.mem_append_right _ hmem)]
    simp [untrimmed]

/-- Trimming leaves a source without tags as it is. -/
theorem itemsOf_of_literals (registry : Registry) (trimLines : Bool) {tokens : List Token}
    (h : ∀ token ∈ tokens, token.isLiteral = true) :
    itemsOf registry trimLines tokens = untrimmed tokens := by
  have hflatten := (isLines_tokenLines tokens).flatten_eq
  unfold itemsOf
  split
  · rw [standaloneItems_of_literals registry (hflatten.symm ▸ h), hflatten]
  · rfl

namespace Segment

def IsStatic : Segment → Prop
  | .text _ => True
  | .comment => True
  | _ => False

def AllStatic (segments : List Segment) : Prop := ∀ segment ∈ segments, segment.IsStatic

theorem AllStatic.appendText {segments : List Segment} (h : AllStatic segments) (text : String) :
    AllStatic (Tree.appendText text segments) := by
  rcases Tree.appendText_cases text segments with ⟨front, last, rfl, hjoined⟩ | hnew
  · rw [hjoined]
    intro segment hmem
    rcases List.mem_append.mp hmem with hfront | hlast
    · exact h segment (List.mem_append_left _ hfront)
    · obtain rfl := List.mem_singleton.mp hlast
      trivial
  · rw [hnew]
    intro segment hmem
    rcases List.mem_append.mp hmem with hold | hlast
    · exact h segment hold
    · obtain rfl := List.mem_singleton.mp hlast
      trivial

end Segment

open Segment (AllStatic IsStatic)

def Content.char? : Content → Option Char
  | .char c => some c
  | _ => none

def Segment.plainText (segments : List Segment) : List Char :=
  (contentsAll segments).filterMap Content.char?

namespace Tree

variable {registry : Registry} {template : String}

/-- Literals and remarks are always accepted, and open no block. -/
theorem foldlM_of_remarks {tokens : List Token}
    (h : ∀ token ∈ tokens, token.isLiteral = true ∨ token.isRemark = true)
    {segments : List Segment} (hstatic : AllStatic segments) :
    ∃ last, (untrimmed tokens).foldlM (addItem registry template) ⟨segments, []⟩ =
      .ok ⟨last, []⟩ ∧ AllStatic last := by
  induction tokens generalizing segments with
  | nil => exact ⟨segments, rfl, hstatic⟩
  | cons token later ih =>
    have hlater := fun token hmem => h token (List.mem_cons_of_mem _ hmem)
    have htoken := h token List.mem_cons_self
    rcases token with ⟨text, line⟩ | ⟨kind, content, line⟩ | ⟨opening, closing, line⟩
    · exact ih hlater (hstatic.appendText text)
    · obtain rfl : kind = .comment := by
        cases kind <;> simp [Token.isLiteral, Token.isRemark] at htoken ⊢
      refine ih hlater fun segment hmem => ?_
      rcases List.mem_append.mp hmem with hold | hlast
      · exact hstatic segment hold
      · obtain rfl := List.mem_singleton.mp hlast
        trivial
    · exact ih hlater hstatic

end Tree

theorem Item.contents_of_remark {token : Token}
    (h : token.isLiteral = true ∨ token.isRemark = true) :
    (Item.contents ⟨token, ""⟩).filterMap Content.char? = token.text := by
  rcases token with ⟨text, line⟩ | ⟨kind, content, line⟩ | ⟨opening, closing, line⟩
  · simp [Item.contents, Token.text, Content.char?, Function.comp_def]
  · obtain rfl : kind = .comment := by
      cases kind <;> simp [Token.isLiteral, Token.isRemark] at h ⊢
    rfl
  · rfl

/-- A source of literals and remarks compiles to its literals, one behind the other. -/
theorem exists_compile_of_remarks {options : CompileOptions} {name source : String}
    {tokens : List Token} (htokens : tokenize name options.delimiters source = .ok tokens)
    (hremarks : ∀ token ∈ tokens, token.isLiteral = true ∨ token.isRemark = true)
    (hitems : itemsOf options.registry options.trimLines tokens = untrimmed tokens) :
    ∃ segments, compile options name source = .ok ⟨name, segments⟩ ∧ AllStatic segments ∧
      Segment.plainText segments = tokens.flatMap Token.text := by
  obtain ⟨segments, hfold, hstatic⟩ : ∃ last, (untrimmed tokens).foldlM
      (Tree.addItem options.registry name) {} = .ok ⟨last, []⟩ ∧ AllStatic last :=
    Tree.foldlM_of_remarks hremarks fun _ hmem => nomatch hmem
  have htree : Tree.ofItems options.registry name (untrimmed tokens) = .ok segments := by
    rw [Tree.ofItems, hfold]
    rfl
  refine ⟨segments, ?_, hstatic, ?_⟩
  · simp only [compile, htokens, bind, Except.bind, hitems, htree]
    rfl
  · rw [Segment.plainText, Tree.contentsAll_of_ofItems htree, List.filterMap_flatMap, untrimmed,
      List.flatMap_map]
    exact List.flatMap_congr fun token hmem => Item.contents_of_remark (hremarks token hmem)

namespace Render

variable {κ : Type}

/-- Static segments write their texts, and leave everything else as it is. -/
theorem outcome_segments_of_static (setting : Setting κ) (deeper : Option (Renderer κ))
    {body : List Segment} (h : AllStatic body) (scope : Scope) (store : κ) (output : String) :
    (segments setting deeper .text body).outcome ⟨scope, store, output⟩ =
      (.ok (), ⟨scope, store, output ++ String.ofList (Segment.plainText body)⟩) := by
  induction body generalizing output with
  | nil => simp [segments, Segment.plainText, contentsAll]
  | cons first later ih =>
    have hlater := ih fun segment hmem => h segment (List.mem_cons_of_mem _ hmem)
    have hfirst := h first List.mem_cons_self
    rw [segments, outcome_bind]
    cases first with
    | text text =>
      have hwrite : (segment setting deeper .text (.text text)).outcome ⟨scope, store, output⟩ =
          (.ok (), ⟨scope, store, output ++ text⟩) := rfl
      rw [hwrite]
      simp only [hlater]
      simp [Segment.plainText, contentsAll, Segment.contents, Content.char?, Function.comp_def,
        String.ofList_append, String.append_assoc]
    | comment => exact hlater output
    | _ => exact hfirst.elim

end Render

namespace Engine

variable {ω : Type}

theorem textOf_of_static (engine : Engine ω) {name : String} {segments : List Segment}
    (h : AllStatic segments) (data : Value) (store : Store ω) :
    (engine.textOf ⟨name, segments⟩ data).outcome store =
      (.ok (String.ofList (Segment.plainText segments)), store) := by
  have hrendered : (engine.renderIn .text segments).outcome ⟨.ofRoot name data, store, ""⟩ =
      (.ok (), ⟨.ofRoot name data, store, String.ofList (Segment.plainText segments)⟩) := by
    unfold renderIn Render.all
    rw [Render.outcome_bind]
    simp only [Render.ask, Render.outcome_step, Render.outcome_pure]
    rcases engine.setting.config.inclusionLimit - _ with _ | depth <;>
      simp [Render.nested, Render.outcome_segments_of_static _ _ h]
  have htemplate : (engine.renderTemplate .text ⟨name, segments⟩ data).outcome (store, "") =
      (.ok (), store, String.ofList (Segment.plainText segments)) := by
    simp only [renderTemplate, Effect.outcome, hrendered]
  rw [textOf_outcome, htemplate]
  rfl

theorem renderSource_of_remarks (engine : Engine ω) {source : String} {tokens : List Token}
    (htokens : tokenize inlineTemplateName engine.config.delimiters source = .ok tokens)
    (hremarks : ∀ token ∈ tokens, token.isLiteral = true ∨ token.isRemark = true)
    (hitems : itemsOf engine.registry engine.config.trimLines tokens = untrimmed tokens)
    (data : DataSource) (store : Store ω) :
    (engine.renderSource source data).outcome store =
      (data.toValue.map fun _ => String.ofList (tokens.flatMap Token.text), store) := by
  obtain ⟨segments, hcompile, hstatic, htext⟩ :=
    @exists_compile_of_remarks engine.compileOptions _ _ _ htokens hremarks hitems
  rw [renderSource_outcome, compileSource, hcompile]
  cases data.toValue with
  | error error => rfl
  | ok value =>
    simp only [textOf_of_static engine hstatic, htext]
    rfl

/-- Literal text survives. Where the tags of a source are comments and changes of delimiters only,
and lines are not trimmed, the source renders as itself without the texts of these tags. A source in
which the opening delimiter does not occur renders as itself, whether lines are trimmed or not. -/
theorem renderSource_verbatim (engine : Engine ω) (source : String) (data : DataSource)
    (store : Store ω) :
    (∀ tokens, tokenize inlineTemplateName engine.config.delimiters source = .ok tokens →
      (∀ token ∈ tokens, token.isLiteral = true ∨ token.isRemark = true) →
      engine.config.trimLines = false →
      ∃ reads last, Calls (.ofSource engine.config.delimiters source) reads last ∧
        last.next? = none ∧ reads.map Read.answer = tokens.map .ok ∧
        spans reads = source.toList ∧
        (engine.renderSource source data).outcome store =
          (data.toValue.map fun _ => String.ofList (spans (reads.filter Read.isLiteral)), store)) ∧
    (¬ engine.config.startDelimiter.toList <:+: source.toList →
      (engine.renderSource source data).outcome store =
        (data.toValue.map fun _ => source, store)) := by
  constructor
  · intro tokens htokens hremarks htrim
    obtain ⟨hfault, rfl⟩ := tokenize_eq_ok_iff.mp htokens
    let start := Lexer.ofSource engine.config.delimiters source
    have hnone : Calls start [] start := .nil
    obtain ⟨reads, last, hcalls, hend, hrest, hanswers⟩ := hnone.run rfl hfault
    have hconsumed := hcalls.consumed.1
    rw [hrest, List.append_nil] at hconsumed
    have hitems : itemsOf engine.registry engine.config.trimLines start.run.tokens =
        untrimmed start.run.tokens := by
      rw [itemsOf, htrim]
      rfl
    refine ⟨reads, last, hcalls, hend, hanswers, hconsumed, ?_⟩
    rw [renderSource_of_remarks engine htokens hremarks hitems]
    exact congrArg (fun text => (data.toValue.map fun _ => String.ofList text, store))
      (hcalls.flatMap_text hanswers)
  · intro hnone
    obtain ⟨hfault, hliterals, htext⟩ :=
      Lexer.run_of_not_infix (.ofSource engine.config.delimiters source) rfl hnone
    have htokens : tokenize inlineTemplateName engine.config.delimiters source = .ok _ :=
      tokenize_eq_ok_iff.mpr ⟨hfault, rfl⟩
    have hitems := itemsOf_of_literals engine.registry engine.config.trimLines hliterals
    rw [renderSource_of_remarks engine htokens (fun token hmem => .inl (hliterals token hmem))
      hitems, htext]
    simp [Lexer.ofSource]

def noteSource : String :=
  "One \x7b\x7b! note \x7d\x7d\n\x7b\x7b=% %%=\x7d\x7d\n" ++
    "\x7b\x7ba\x7d\x7d %!two\n%%\x7b\x7b/b\x7d\x7d\n"

def noteTokens : List Token :=
  [.literal "One " 1, .tag .comment "note" 1, .literal "\n" 1, .delimiterChange "%" "%%" 2,
    .literal "\n" 2, .literal "\x7b\x7ba\x7d\x7d " 3, .tag .comment "two" 3,
    .literal "\x7b\x7b/b\x7d\x7d\n" 4]

def noteSetup : Setup Unit where
  config := { trimLines := false }
  registry := .builtin

theorem renderSource_verbatim_note :
    let engine := noteSetup.toEngine
    let store := engine.emptyStore ()
    (engine.renderSource noteSource (.ok .null)).outcome store =
        (.ok "One \n\n\x7b\x7ba\x7d\x7d \x7b\x7b/b\x7d\x7d\n", store) ∧
      (engine.renderSource " \x7b x\n\n" (.ok .null)).outcome store =
        (.ok " \x7b x\n\n", store) := by
  intro engine store
  constructor
  · have htokens : tokenize inlineTemplateName engine.config.delimiters noteSource =
        .ok noteTokens := by
      decide +kernel
    obtain ⟨reads, last, hcalls, -, hanswers, -, houtcome⟩ :=
      (renderSource_verbatim engine noteSource (.ok .null) store).1 noteTokens htokens
        (by decide) rfl
    have htext : noteTokens.flatMap Token.text =
        "One \n\n\x7b\x7ba\x7d\x7d \x7b\x7b/b\x7d\x7d\n".toList := by
      decide
    rw [houtcome, ← hcalls.flatMap_text hanswers, htext]
    rfl
  · have hnone : ¬ engine.config.startDelimiter.toList <:+: " \x7b x\n\n".toList := by
      decide
    exact (renderSource_verbatim engine " \x7b x\n\n" (.ok .null) store).2 hnone

end Engine

end Stencil
