import Stencil.Proofs.Helper.Discretion
import Stencil.Proofs.Rendering.Likeness
import Stencil.Proofs.Rendering.Matching
import Stencil.Proofs.Rendering.Reach

/-! Renderings alongside each other, in open scopes that are alike. Where the names in a template
mean the same, its renderings go on alike, wherever they write their texts and everything else. -/

namespace Stencil

open Segment (partsAll)

/-- Both sinks give one answer to a text, and their outputs stay related. -/
def Sink.TakesAlike {σ τ : Type} (outputs : σ → τ → Prop) (sink : Sink σ) (other : Sink τ)
    (text : String) : Prop :=
  ∀ written second, outputs written second →
    (other.write text second).1 = (sink.write text written).1 ∧
      outputs (sink.write text written).2 (other.write text second).2

theorem Sink.takesAlike_self {σ : Type} (sink : Sink σ) (text : String) :
    TakesAlike (fun written second => second = written) sink sink text := by
  rintro written _ rfl
  exact ⟨rfl, rfl⟩

def Setting.pieces {κ : Type} (setting : Setting κ) (escaped : Bool) (value : Value) :
    List String :=
  if escaped && !setting.config.skipEscaping then
    (Text.escapePieces value.text.toList).map String.ofList
  else [value.text]

namespace Render

variable {κ σ τ α β : Type}

mutual

/-- Renders a segment with its texts written to one sink and everything else to another. -/
def segmentInto (setting : Setting κ) (texts others : Sink σ)
    (included : String → String → Render κ σ Unit) : Segment → Render κ σ Unit
  | .text text => write texts text
  | .output name escaped _ => output setting others name escaped
  | .block name false body _ =>
    plainBlock setting name (segmentsInto setting texts others included body)
  | .block name true body _ =>
    invertedBlock setting name (segmentsInto setting texts others included body)
  | .inclusion name indent _ => included name indent
  | .invocation registered tag body none =>
    invocation setting others registered.helper tag false
      (segmentsInto setting texts others included body) (pure ())
  | .invocation registered tag body (some elseBody) =>
    invocation setting others registered.helper tag true
      (segmentsInto setting texts others included body)
      (segmentsInto setting texts others included elseBody)
  | .comment => pure ()

def segmentsInto (setting : Setting κ) (texts others : Sink σ)
    (included : String → String → Render κ σ Unit) : List Segment → Render κ σ Unit
  | [] => pure ()
  | first :: later => do
    segmentInto setting texts others included first
    segmentsInto setting texts others included later

end

mutual

theorem segmentInto_self (setting : Setting κ) (sink : Sink σ)
    (included : String → String → Render κ σ Unit) : ∀ part : Segment,
    segmentInto setting sink sink included part = segmentBy setting sink included part
  | .text _ => rfl
  | .output .. => rfl
  | .block _ false body _ => by
    rw [segmentInto, segmentBy, segmentsInto_self setting sink included body]
  | .block _ true body _ => by
    rw [segmentInto, segmentBy, segmentsInto_self setting sink included body]
  | .inclusion .. => rfl
  | .invocation _ _ body none => by
    rw [segmentInto, segmentBy, segmentsInto_self setting sink included body]
  | .invocation _ _ body (some elseBody) => by
    rw [segmentInto, segmentBy, segmentsInto_self setting sink included body,
      segmentsInto_self setting sink included elseBody]
  | .comment => rfl

theorem segmentsInto_self (setting : Setting κ) (sink : Sink σ)
    (included : String → String → Render κ σ Unit) : ∀ parts : List Segment,
    segmentsInto setting sink sink included parts = segmentsBy setting sink included parts
  | [] => rfl
  | first :: later => by
    rw [segmentsInto, segmentsBy, segmentInto_self setting sink included first,
      segmentsInto_self setting sink included later]

end

/-- Renders a template in place where `placed` renders its segments behind an indent, or is nothing
when inclusions may nest no deeper. -/
def inclusionBy (setting : Setting κ) (placed : Option (String → List Segment → Render κ σ Unit))
    (name indent : String) : Render κ σ Unit := do
  match ← find setting name with
  | none => pure ()
  | some template =>
    match placed with
    | none => fail (.recursionLimit name setting.config.inclusionLimit)
    | some placed => do
      changeScope (.enter name)
      (placed indent template.segments).andFinally .leave

theorem inclusion_eq_inclusionBy (setting : Setting κ) (sink : Sink σ)
    (deeper : Option (Renderer κ)) :
    inclusion setting sink deeper = inclusionBy setting (deeper.map (place sink)) := by
  cases deeper <;> rfl

structure Paired (like : Frame → Frame → Prop) (stores : κ → Prop) (outputs : σ → τ → Prop)
    (state : Rendering κ σ) (second : Rendering κ τ) : Prop where
  scope : state.scope.Alike like second.scope
  store : second.store = state.store
  sound : stores state.store
  output : outputs state.output second.output

section Rules

variable {like : Frame → Frame → Prop} {stores : κ → Prop} {outputs : σ → τ → Prop}

theorem pairs_changeScope {f : Scope → Scope}
    (h : ∀ scope other : Scope, scope.Alike like other → (f scope).Alike like (f other)) :
    Pairs (Paired like stores outputs) (changeScope f : Render κ σ Unit) (changeScope f) :=
  pairs_step fun _ _ hpaired =>
    ⟨⟨h _ _ hpaired.scope, hpaired.store, hpaired.sound, hpaired.output⟩, pairs_pure ()⟩

theorem Pairs.andFinally {action : Render κ σ α} {other : Render κ τ α}
    (h : Pairs (Paired like stores outputs) action other) {f : Scope → Scope}
    (hf : ∀ scope other : Scope, scope.Alike like other → (f scope).Alike like (f other)) :
    Pairs (Paired like stores outputs) (action.andFinally f) (other.andFinally f) :=
  h.attempt.bind fun result => (pairs_changeScope hf).bind fun _ => pairs_done result

theorem pairs_write {sink : Sink σ} {other : Sink τ} {text : String}
    (h : sink.TakesAlike outputs other text) :
    Pairs (Paired like stores outputs) (write sink text : Render κ σ Unit) (write other text) := by
  apply pairs_step
  intro state second hpaired
  obtain ⟨htaken, houtput⟩ := h _ _ hpaired.output
  refine ⟨⟨hpaired.scope, hpaired.store, hpaired.sound, houtput⟩, ?_⟩
  simp only [htaken]
  exact pairs_done _

theorem pairs_writeAll {sink : Sink σ} {other : Sink τ} {texts : List String}
    (h : ∀ text ∈ texts, sink.TakesAlike outputs other text) :
    Pairs (Paired like stores outputs) (writeAll sink texts : Render κ σ Unit)
      (writeAll other texts) := by
  induction texts with
  | nil => exact pairs_pure ()
  | cons text later ih =>
    obtain ⟨htext, hlater⟩ := List.forall_mem_cons.mp h
    exact (pairs_write htext).bind fun _ => ih hlater

variable {setting : Setting κ}

theorem pairs_resolve_bind {name : String} (h : setting.naming.Settles like name)
    {rest : Option Value → Render κ σ α} {later : Option Value → Render κ τ α}
    (hrest : ∀ found, Pairs (Paired like stores outputs) (rest found) (later found)) :
    Pairs (Paired like stores outputs) (resolve setting name >>= rest)
      (resolve setting name >>= later) := by
  apply pairs_ask_bind
  intro state second hpaired
  rw [h _ _ hpaired.scope]
  exact hrest _

theorem pairs_output {sink : Sink σ} {other : Sink τ} {name : String} {escaped : Bool}
    (hname : setting.naming.Settles like name)
    (htakes : ∀ value, ∀ text ∈ setting.pieces escaped value, sink.TakesAlike outputs other text) :
    Pairs (Paired like stores outputs) (output setting sink name escaped)
      (output setting other name escaped) := by
  refine pairs_resolve_bind hname fun found => ?_
  split
  · exact pairs_pure ()
  · exact pairs_pure ()
  · rename_i value _
    have hvalue := htakes value
    unfold Setting.pieces at hvalue
    split
    · rename_i hescapes
      rw [if_pos hescapes] at hvalue
      exact pairs_writeAll hvalue
    · rename_i hplain
      rw [if_neg hplain] at hvalue
      exact pairs_write (hvalue _ List.mem_cons_self)

section Blocks

variable (hlike : Frame.Likeness like) {body : Render κ σ Unit} {other : Render κ τ Unit}

include hlike

theorem pairs_push (value : Value) (position : Option Iteration) :
    Pairs (Paired like stores outputs) (push setting value position : Render κ σ Unit)
      (push setting value position) := by
  apply pairs_step
  intro state second hpaired
  have hopened := hpaired.scope.push hlike setting.config.scopeLimit value position
  generalize state.scope.push setting.config.scopeLimit value position = first at hopened ⊢
  generalize second.scope.push setting.config.scopeLimit value position = moved at hopened ⊢
  cases hopened with
  | error error => exact ⟨hpaired, pairs_done _⟩
  | ok halike =>
    exact ⟨⟨halike, hpaired.store, hpaired.sound, hpaired.output⟩, pairs_done _⟩

theorem Pairs.under (h : Pairs (Paired like stores outputs) body other) (value : Value)
    (position : Option Iteration) :
    Pairs (Paired like stores outputs) (under setting value position body)
      (under setting value position other) :=
  (pairs_push hlike value position).bind fun _ => h.andFinally fun _ _ => Scope.Alike.pop

theorem Pairs.elements (h : Pairs (Paired like stores outputs) body other) (size before : Nat)
    (values : List Value) :
    Pairs (Paired like stores outputs) (elements setting body size before values)
      (elements setting other size before values) := by
  induction values generalizing before with
  | nil => exact pairs_pure ()
  | cons value later ih => exact (h.under hlike _ _).bind fun _ => ih _

theorem Pairs.plainBlock (h : Pairs (Paired like stores outputs) body other) {name : String}
    (hname : setting.naming.Settles like name) :
    Pairs (Paired like stores outputs) (plainBlock setting name body)
      (plainBlock setting name other) := by
  refine pairs_resolve_bind hname fun found => ?_
  split
  · exact pairs_pure ()
  · split
    · exact h.elements hlike _ _ _
    · split
      · exact h.under hlike _ _
      · exact pairs_pure ()

omit hlike in
theorem Pairs.invertedBlock (h : Pairs (Paired like stores outputs) body other) {name : String}
    (hname : setting.naming.Settles like name) :
    Pairs (Paired like stores outputs) (invertedBlock setting name body)
      (invertedBlock setting name other) := by
  refine pairs_resolve_bind hname fun found => ?_
  split
  · exact h
  · exact pairs_pure ()

variable {sink : Sink σ} {second : Sink τ} {elseBody : Render κ σ Unit}
  {otherElse : Render κ τ Unit}

/-- A discreet script goes on alike. What it learns from scopes that are alike is the same, though
the values in them may differ. -/
theorem pairs_runScript (hbody : Pairs (Paired like stores outputs) body other)
    (helse : Pairs (Paired like stores outputs) elseBody otherElse) {script : Script α}
    (hscript : script.IsDiscreet (sink.TakesAlike outputs second)) (pushed : Nat) :
    Pairs (Paired like stores outputs) (runScript setting sink body elseBody pushed script)
      (runScript setting second other otherElse pushed script) := by
  induction script generalizing pushed with
  | done result => exact pairs_pure _
  | push value position next ih =>
    rw [runScript, runScript]
    refine (pairs_push hlike value position).attempt.bind fun answer => ?_
    cases answer with
    | ok _ => exact ih _ (hscript _) _
    | error error => exact ih _ (hscript _) _
  | pop next ih =>
    cases pushed with
    | zero => exact ih none (hscript.2 none) 0
    | succ left =>
      apply pairs_step
      intro state moved hpaired
      refine ⟨⟨hpaired.scope.pop, hpaired.store, hpaired.sound, hpaired.output⟩, ?_⟩
      have hnext : next state.scope.pop.1 = next moved.scope.pop.1 := hscript.1 _ _
      have hrest := ih moved.scope.pop.1 (hscript.2 _) left
      simp only [pure, bind]
      rw [hnext]
      exact hrest
  | renderBody next ih => exact hbody.attempt.bind fun answer => ih answer (hscript answer) pushed
  | renderElse next ih => exact helse.attempt.bind fun answer => ih answer (hscript answer) pushed
  | append text next ih =>
    exact (pairs_write hscript.1).attempt.bind fun answer => ih answer (hscript.2 answer) pushed
  | peek next ih =>
    rw [runScript, runScript]
    apply pairs_ask_bind
    intro state moved hpaired
    have hnext : next moved.scope.peek = next state.scope.peek :=
      hscript.1 _ _ (hpaired.scope.truth hlike)
    rw [hnext]
    exact ih _ (hscript.2 _) pushed
  | resolve name next => exact hscript.elim
  | apply function argument next ih => exact ih _ (hscript _) pushed

theorem pairs_invocation {helper : Helper} {tag : HelperTag} {hasElse : Bool}
    (hnames : ∀ name ∈ tag.names, setting.naming.Settles like name)
    (hdiscreet : ∀ scope, Script.IsDiscreet (sink.TakesAlike outputs second)
      (helper.execute (callOf setting scope tag hasElse)).run)
    (hbody : Pairs (Paired like stores outputs) body other)
    (helse : Pairs (Paired like stores outputs) elseBody otherElse) :
    Pairs (Paired like stores outputs) (invocation setting sink helper tag hasElse body elseBody)
      (invocation setting second helper tag hasElse other otherElse) := by
  apply pairs_ask_bind
  intro state moved hpaired
  rw [callOf_congr hpaired.scope hnames hasElse]
  refine (pairs_runScript hlike hbody helse (hdiscreet state.scope) 0).bind fun answer => ?_
  exact (pairs_changeScope fun _ _ halike => halike.drop _).bind fun _ => pairs_done _

end Blocks

/-- What is found is one of the enclosed templates. -/
theorem pairs_find_bind {templates : Template → Prop}
    (hencloses : setting.Encloses templates stores) {outer : Template} (houter : templates outer)
    {name : String} (hincludes : outer.Includes name)
    {rest : Option Template → Render κ σ α} {later : Option Template → Render κ τ α}
    (hnone : Pairs (Paired like stores outputs) (rest none) (later none))
    (hsome : ∀ template, templates template →
      Pairs (Paired like stores outputs) (rest (some template)) (later (some template))) :
    Pairs (Paired like stores outputs) (find setting name >>= rest)
      (find setting name >>= later) := by
  apply pairs_step
  intro state second hpaired
  have hkept := hencloses.keeps outer name state.store houter hincludes hpaired.sound
  rw [hpaired.store]
  refine ⟨⟨hpaired.scope, rfl, hkept, hpaired.output⟩, ?_⟩
  rcases hfound : ((setting.find name).outcome state.store).1 with error | _ | template
  · exact pairs_done _
  · exact hnone
  · exact hsome template
      (hencloses.finds outer name state.store template houter hincludes hpaired.sound hfound)

def PlacedAlike (like : Frame → Frame → Prop) (stores : κ → Prop) (outputs : σ → τ → Prop)
    (templates : Template → Prop) (indent : String)
    (placed : String → List Segment → Render κ σ Unit)
    (other : String → List Segment → Render κ τ Unit) : Prop :=
  ∀ template, templates template → Pairs (Paired like stores outputs)
    (placed indent template.segments) (other indent template.segments)

theorem pairs_inclusionBy {templates : Template → Prop}
    (hencloses : setting.Encloses templates stores) {outer : Template} (houter : templates outer)
    {name indent : String} (hincludes : outer.Includes name)
    {placed : Option (String → List Segment → Render κ σ Unit)}
    {other : Option (String → List Segment → Render κ τ Unit)}
    (hplaced : Option.Rel (PlacedAlike like stores outputs templates indent) placed other) :
    Pairs (Paired like stores outputs) (inclusionBy setting placed name indent)
      (inclusionBy setting other name indent) := by
  refine pairs_find_bind hencloses houter hincludes (pairs_pure ()) fun template htemplate => ?_
  cases hplaced with
  | none => exact pairs_done _
  | some hplaced =>
    refine (pairs_changeScope fun _ _ halike => halike.enter name).bind fun _ => ?_
    exact (hplaced template htemplate).andFinally fun _ _ => Scope.Alike.leave

end Rules

section Trees

variable {like : Frame → Frame → Prop} {stores : κ → Prop} {outputs : σ → τ → Prop}
  {setting : Setting κ} {sink : Sink σ} {texts others : Sink τ}

/-- The names of the segment mean the same in like scopes, and what it writes is taken alike by one
sink and by the sink for its kind of text. -/
def Suits (setting : Setting κ) (like : Frame → Frame → Prop) (outputs : σ → τ → Prop)
    (sink : Sink σ) (texts others : Sink τ) (part : Segment) : Prop :=
  (∀ name ∈ part.names, setting.naming.Settles like name) ∧
    match part with
    | .text text => sink.TakesAlike outputs texts text
    | .output _ escaped _ =>
      ∀ value, ∀ text ∈ setting.pieces escaped value, sink.TakesAlike outputs others text
    | .invocation registered tag _ _ => ∀ scope hasElse,
      Script.IsDiscreet (sink.TakesAlike outputs others)
        (registered.helper.execute (callOf setting scope tag hasElse)).run
    | _ => True

def IncludesAlike (like : Frame → Frame → Prop) (stores : κ → Prop) (outputs : σ → τ → Prop)
    (included : String → String → Render κ σ Unit) (other : String → String → Render κ τ Unit) :
    Segment → Prop
  | .inclusion name indent _ =>
    Pairs (Paired like stores outputs) (included name indent) (other name indent)
  | _ => True

theorem includesAlike_inclusionBy {templates : Template → Prop}
    (hencloses : setting.Encloses templates stores) {outer : Template} (houter : templates outer)
    {placed : Option (String → List Segment → Render κ σ Unit)}
    {other : Option (String → List Segment → Render κ τ Unit)} {part : Segment}
    (hpart : part ∈ outer.parts)
    (hplaced : ∀ name indent line, part = .inclusion name indent line →
      Option.Rel (PlacedAlike like stores outputs templates indent) placed other) :
    IncludesAlike like stores outputs (inclusionBy setting placed) (inclusionBy setting other)
      part := by
  cases part with
  | inclusion name indent line =>
    exact pairs_inclusionBy hencloses houter ⟨indent, line, hpart⟩ (hplaced name indent line rfl)
  | _ => trivial

variable {included : String → String → Render κ σ Unit} {other : String → String → Render κ τ Unit}

mutual

theorem pairs_segmentInto (hlike : Frame.Likeness like) : ∀ part : Segment,
    (∀ inner ∈ part.parts, Suits setting like outputs sink texts others inner ∧
      IncludesAlike like stores outputs included other inner) →
    Pairs (Paired like stores outputs) (segmentBy setting sink included part)
      (segmentInto setting texts others other part)
  | .text _, h => pairs_write (h _ (Segment.mem_parts_self _)).1.2
  | .output name _ _, h => by
    obtain ⟨⟨hname, htakes⟩, -⟩ := h _ (Segment.mem_parts_self _)
    exact pairs_output (hname name List.mem_cons_self) htakes
  | .block name false body _, h => by
    obtain ⟨⟨⟨hname, -⟩, -⟩, hinside⟩ := List.forall_mem_cons.mp h
    have hbody := pairs_segmentsInto hlike body hinside
    exact hbody.plainBlock hlike (hname name List.mem_cons_self)
  | .block name true body _, h => by
    obtain ⟨⟨⟨hname, -⟩, -⟩, hinside⟩ := List.forall_mem_cons.mp h
    have hbody := pairs_segmentsInto hlike body hinside
    exact hbody.invertedBlock (hname name List.mem_cons_self)
  | .inclusion _ _ _, h => (h _ (Segment.mem_parts_self _)).2
  | .invocation _ _ body none, h => by
    obtain ⟨⟨⟨hnames, hdiscreet⟩, -⟩, hinside⟩ := List.forall_mem_cons.mp h
    have hbody := pairs_segmentsInto hlike body hinside
    exact pairs_invocation hlike hnames (fun scope => hdiscreet scope false) hbody (pairs_pure ())
  | .invocation _ _ body (some elseBody), h => by
    obtain ⟨⟨⟨hnames, hdiscreet⟩, -⟩, hinside⟩ := List.forall_mem_cons.mp h
    obtain ⟨hfirst, hsecond⟩ := List.forall_mem_append.mp hinside
    have hbody := pairs_segmentsInto hlike body hfirst
    have helse := pairs_segmentsInto hlike elseBody hsecond
    exact pairs_invocation hlike hnames (fun scope => hdiscreet scope true) hbody helse
  | .comment, _ => pairs_pure ()

/-- Segments render alike, if all that stand in them suit the sinks and inclusions render alike. -/
theorem pairs_segmentsInto (hlike : Frame.Likeness like) : ∀ parts : List Segment,
    (∀ inner ∈ partsAll parts, Suits setting like outputs sink texts others inner ∧
      IncludesAlike like stores outputs included other inner) →
    Pairs (Paired like stores outputs) (segmentsBy setting sink included parts)
      (segmentsInto setting texts others other parts)
  | [], _ => pairs_pure ()
  | first :: later, h => by
    obtain ⟨hinside, hbehind⟩ := List.forall_mem_append.mp h
    have hfirst := pairs_segmentInto hlike first hinside
    have hlater := pairs_segmentsInto hlike later hbehind
    exact hfirst.bind fun _ => hlater

end

end Trees

end Render

end Stencil
