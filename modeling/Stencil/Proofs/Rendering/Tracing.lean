import Stencil.Proofs.Rendering.Alongside
import Stencil.Proofs.Text.Escape

/-! Renderings that keep a trace: each character of the output, with the text of a template that it
is written from if it is written from one. -/

namespace Stencil

/-- A written character; `origin` is the text of the segment that writes it, if that is a text. -/
structure Mark where
  char : Char
  origin : Option String

abbrev Trace := List Mark

def Mark.ofText (origin : Option String) (text : String) : Trace :=
  text.toList.map fun c => ⟨c, origin⟩

theorem Mark.map_char_ofText (origin : Option String) (text : String) :
    (ofText origin text).map char = text.toList := by
  simp [ofText, Function.comp_def]

namespace Trace

/-- A trace with an indent in front of each line; its start is the start of a line or not. -/
def indented (indent : String) : Bool → Trace → Trace
  | _, [] => []
  | starts, mark :: later =>
    (if starts then Mark.ofText none indent else []) ++
      mark :: indented indent (mark.char == '\n') later

theorem mem_indented {indent : String} {starts : Bool} {trace : Trace} {mark : Mark}
    (h : mark ∈ indented indent starts trace) :
    mark ∈ trace ∨ mark ∈ Mark.ofText none indent := by
  induction trace generalizing starts with
  | nil => simp [indented] at h
  | cons first later ih =>
    rw [indented] at h
    rcases List.mem_append.mp h with hindent | hrest
    · split at hindent
      · exact .inr hindent
      · contradiction
    · rcases List.mem_cons.mp hrest with rfl | hlater
      · exact .inl List.mem_cons_self
      · exact (ih hlater).imp_left (List.mem_cons_of_mem _)

def behind (indent : List Char) : Bool → List (List Char) → List Char
  | _, [] => []
  | starts, line :: later => (if starts then indent else []) ++ (line ++ behind indent true later)

theorem map_char_indented (indent : String) (starts : Bool) (trace : Trace) :
    (indented indent starts trace).map Mark.char =
      behind indent.toList starts (Text.lines (trace.map Mark.char)) := by
  induction trace generalizing starts with
  | nil => rfl
  | cons mark later ih =>
    have hindent : (if starts then Mark.ofText none indent else []).map Mark.char =
        if starts then indent.toList else [] := by
      split
      · exact Mark.map_char_ofText none indent
      · rfl
    rw [indented, List.map_append, hindent, List.map_cons, ih, List.map_cons, Text.lines]
    by_cases hnewline : mark.char = '\n'
    · rw [if_pos hnewline, hnewline]
      rfl
    · rw [if_neg hnewline, beq_eq_false_iff_ne.mpr hnewline]
      cases Text.lines (later.map Mark.char) with
      | nil => rfl
      | cons line lines => rfl

end Trace

theorem Render.join_indentedPieces (indent text : String) :
    (String.join (indentedPieces indent text)).toList =
      Trace.behind indent.toList true (Text.lines text.toList) := by
  unfold indentedPieces
  induction Text.lines text.toList with
  | nil => rfl
  | cons line later ih => simp [Trace.behind, ih]

def Sink.marking (origin : String → Option String) : Sink Trace :=
  ⟨fun text trace => (true, trace ++ Mark.ofText (origin text) text)⟩

def Sink.Gathers {σ : Type} (sink : Sink σ) (read : σ → String) : Prop :=
  ∀ text output, (sink.write text output).1 = true ∧
    read (sink.write text output).2 = read output ++ text

theorem Sink.gathers_text : Sink.text.Gathers id := fun _ _ => ⟨rfl, rfl⟩

theorem Sink.gathers_pieces : Sink.pieces.Gathers String.join := by
  intro text output
  refine ⟨rfl, ?_⟩
  simp [Sink.pieces]

def Traces {σ : Type} (read : σ → String) (allowed : Mark → Prop) (output : σ) (trace : Trace) :
    Prop :=
  trace.map Mark.char = (read output).toList ∧ ∀ mark ∈ trace, allowed mark

/-- Behind an indent on each line, a text has its trace with the indent in it. -/
theorem Traces.behind {σ : Type} {read : σ → String} {allowed : Mark → Prop} {before output : σ}
    {outer marks : Trace} {text indent : String} (houter : Traces read allowed before outer)
    (h : Traces id allowed text marks) (hindent : ∀ c ∈ indent.toList, allowed ⟨c, none⟩)
    (hread : read output = read before ++ String.join (Render.indentedPieces indent text)) :
    Traces read allowed output (outer ++ Trace.indented indent true marks) := by
  obtain ⟨hbefore, houter⟩ := houter
  obtain ⟨hchars, hallowed⟩ := h
  refine ⟨?_, fun mark hmark => ?_⟩
  · rw [List.map_append, hbefore, Trace.map_char_indented, hchars, hread, String.toList_append,
      Render.join_indentedPieces, id]
  · rcases List.mem_append.mp hmark with hold | hnew
    · exact houter mark hold
    · rcases Trace.mem_indented hnew with hinner | hblank
      · exact hallowed mark hinner
      · obtain ⟨c, hc, rfl⟩ := List.mem_map.mp hblank
        exact hindent c hc

theorem Sink.takesAlike_marking {σ : Type} {sink : Sink σ} {read : σ → String}
    (hsink : sink.Gathers read) {allowed : Mark → Prop} {origin : String → Option String}
    {text : String} (h : ∀ c ∈ text.toList, allowed ⟨c, origin text⟩) :
    sink.TakesAlike (Traces read allowed) (.marking origin) text := by
  rintro output trace ⟨hchars, hallowed⟩
  obtain ⟨htaken, hread⟩ := hsink text output
  refine ⟨htaken.symm, ?_, ?_⟩
  · simp [marking, hread, hchars, Mark.map_char_ofText]
  · intro mark hmark
    rcases List.mem_append.mp hmark with hold | hnew
    · exact hallowed mark hold
    · obtain ⟨c, hc, rfl⟩ := List.mem_map.mp hnew
      exact h c hc

namespace Render

variable {κ σ α : Type}

def trace (marks : Trace) : Render κ Trace Unit :=
  .step (fun state => ((), { state with output := state.output ++ marks })) pure

def traceAside (body : Render κ Trace Unit) : Render κ Trace Trace :=
  .step
    (fun state =>
      let (result, last) := body.outcome ⟨state.scope, state.store, []⟩
      (result.map fun _ => last.output, ⟨last.scope, last.store, state.output⟩))
    ofExcept

/-- Renders segments in place, or behind an indent on each line, which is part of no text. -/
def tracePlaced (render : List Segment → Render κ Trace Unit) (indent : String)
    (body : List Segment) : Render κ Trace Unit :=
  if indent.isEmpty then render body
  else do
    let marks ← traceAside (render body)
    trace (Trace.indented indent true marks)

/-- Renders segments into a trace, where inclusions may nest so much deeper. -/
def traced (setting : Setting κ) : Nat → List Segment → Render κ Trace Unit
  | 0 => segmentsInto setting (.marking some) (.marking fun _ => none) (inclusionBy setting none)
  | depth + 1 =>
    segmentsInto setting (.marking some) (.marking fun _ => none)
      (inclusionBy setting (some (tracePlaced (traced setting depth))))

def tracedAll (setting : Setting κ) (body : List Segment) : Render κ Trace Unit := do
  let depth ← ask fun state => setting.config.inclusionLimit - state.scope.inclusions.length
  traced setting depth body

section Rules

variable {like : Frame → Frame → Prop} {stores : κ → Prop} {read : σ → String}
  {allowed : Mark → Prop} {sink : Sink σ}

theorem outcome_writeAll_of_gathers (hsink : sink.Gathers read) (pieces : List String)
    (state : Rendering κ σ) :
    ∃ output, (writeAll sink pieces).outcome state = (.ok (), { state with output }) ∧
      read output = read state.output ++ String.join pieces := by
  induction pieces generalizing state with
  | nil => exact ⟨state.output, rfl, by simp⟩
  | cons piece later ih =>
    obtain ⟨htaken, hread⟩ := hsink piece state.output
    have hwrite : (write sink piece).outcome state =
        (.ok (), { state with output := (sink.write piece state.output).2 }) := by
      simp [write, htaken]
    obtain ⟨output, houtcome, hlast⟩ :=
      ih { state with output := (sink.write piece state.output).2 }
    refine ⟨output, ?_, ?_⟩
    · rw [writeAll, outcome_bind, hwrite]
      exact houtcome
    · simp [hlast, hread, String.append_assoc]

/-- A text that is rendered aside and put behind an indent has the trace of its rendering, with the
indent. -/
theorem pairs_tracePlaced (hsink : sink.Gathers read) {render : Renderer κ}
    {other : List Segment → Render κ Trace Unit} {body : List Segment}
    (h : ∀ (τ : Type) (sink : Sink τ) (read : τ → String), sink.Gathers read →
      Pairs (Paired like stores (Traces read allowed)) (render τ sink body) (other body))
    {indent : String} (hindent : ∀ c ∈ indent.toList, allowed ⟨c, none⟩) :
    Pairs (Paired like stores (Traces read allowed)) (place sink render indent body)
      (tracePlaced other indent body) := by
  unfold place tracePlaced
  split
  · exact h σ sink read hsink
  · intro state second hpaired
    have hempty : Traces id allowed "" [] := ⟨rfl, fun _ hmem => nomatch hmem⟩
    obtain ⟨hresult, hlast⟩ := h String .text id Sink.gathers_text
      ⟨state.scope, state.store, ""⟩ ⟨second.scope, second.store, []⟩
      ⟨hpaired.scope, hpaired.store, hpaired.sound, hempty⟩
    rw [outcome_bind, outcome_bind, collect, outcome_collectBehind, traceAside, outcome_step]
    rcases hfirst : (render String .text body).outcome ⟨state.scope, state.store, ""⟩ with
      ⟨error | _, last⟩
    · rw [hfirst] at hresult hlast
      simp only [hresult, Except.map, ofExcept, outcome_done]
      exact ⟨trivial, hlast.scope, hlast.store, hlast.sound, hpaired.output⟩
    · rw [hfirst] at hresult hlast
      simp only [hresult, Except.map, ofExcept, outcome_done]
      obtain ⟨output, houtcome, hread⟩ := outcome_writeAll_of_gathers hsink
        (indentedPieces indent last.output) ⟨last.scope, last.store, state.output⟩
      rw [houtcome]
      exact ⟨rfl, hlast.scope, hlast.store, hlast.sound,
        hpaired.output.behind hlast.output hindent hread⟩

end Rules

end Render

end Stencil
