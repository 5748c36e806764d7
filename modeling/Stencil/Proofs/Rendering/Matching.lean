import Stencil.Proofs.Rendering.Pairs
import Stencil.Proofs.Scope

/-! Renderings that go alike: with settings that look names up alike and have the same limits they
end alike, wherever their included templates come from, if the inclusions do. -/

namespace Stencil

/-- The settings differ at most in where included templates come from. -/
structure Setting.Alike {κ : Type} (setting other : Setting κ) : Prop where
  naming : other.naming = setting.naming
  transform : other.transform = setting.transform
  scopeLimit : other.config.scopeLimit = setting.config.scopeLimit
  inclusionLimit : other.config.inclusionLimit = setting.config.inclusionLimit
  skipEscaping : other.config.skipEscaping = setting.config.skipEscaping

theorem Setting.Alike.refl {κ : Type} (setting : Setting κ) : setting.Alike setting :=
  ⟨rfl, rfl, rfl, rfl, rfl⟩

namespace Render

variable {κ σ α β : Type}

def place (sink : Sink σ) (render : Renderer κ) (indent : String) (body : List Segment) :
    Render κ σ Unit :=
  if indent.isEmpty then render σ sink body
  else do
    let text ← collect (render String .text body)
    writeAll sink (indentedPieces indent text)

mutual

/-- Renders a segment where `included` renders inclusions, given their names and indents. -/
def segmentBy (setting : Setting κ) (sink : Sink σ) (included : String → String → Render κ σ Unit) :
    Segment → Render κ σ Unit
  | .text text => write sink text
  | .output name escaped _ => output setting sink name escaped
  | .block name false body _ => plainBlock setting name (segmentsBy setting sink included body)
  | .block name true body _ => invertedBlock setting name (segmentsBy setting sink included body)
  | .inclusion name indent _ => included name indent
  | .invocation registered tag body none =>
    invocation setting sink registered.helper tag false (segmentsBy setting sink included body)
      (pure ())
  | .invocation registered tag body (some elseBody) =>
    invocation setting sink registered.helper tag true (segmentsBy setting sink included body)
      (segmentsBy setting sink included elseBody)
  | .comment => pure ()

def segmentsBy (setting : Setting κ) (sink : Sink σ)
    (included : String → String → Render κ σ Unit) : List Segment → Render κ σ Unit
  | [] => pure ()
  | first :: later => do
    segmentBy setting sink included first
    segmentsBy setting sink included later

end

mutual

theorem segment_eq_segmentBy (setting : Setting κ) (deeper : Option (Renderer κ)) (sink : Sink σ) :
    ∀ part : Segment, segment setting deeper sink part =
      segmentBy setting sink (inclusion setting sink deeper) part
  | .text _ => rfl
  | .output .. => rfl
  | .block _ false body _ => by
    rw [segment, segmentBy, segments_eq_segmentsBy setting deeper sink body]
  | .block _ true body _ => by
    rw [segment, segmentBy, segments_eq_segmentsBy setting deeper sink body]
  | .inclusion .. => rfl
  | .invocation _ _ body none => by
    rw [segment, segmentBy, segments_eq_segmentsBy setting deeper sink body]
  | .invocation _ _ body (some elseBody) => by
    rw [segment, segmentBy, segments_eq_segmentsBy setting deeper sink body,
      segments_eq_segmentsBy setting deeper sink elseBody]
  | .comment => rfl

theorem segments_eq_segmentsBy (setting : Setting κ) (deeper : Option (Renderer κ))
    (sink : Sink σ) :
    ∀ parts : List Segment, segments setting deeper sink parts =
      segmentsBy setting sink (inclusion setting sink deeper) parts
  | [] => rfl
  | first :: later => by
    rw [segments, segmentsBy, segment_eq_segmentBy setting deeper sink first,
      segments_eq_segmentsBy setting deeper sink later]

end

theorem outcome_collectBehind (body : Render κ String Unit) (text : String)
    (state : Rendering κ σ) :
    (collectBehind text body : Render κ σ String).outcome state =
      let (result, last) := body.outcome ⟨state.scope, state.store, text⟩
      (result.map fun _ => last.output, ⟨last.scope, last.store, state.output⟩) := by
  induction body generalizing text state with
  | done result => rfl
  | step act next ih => exact ih _ _ _

structure Matched (related : List String → κ → κ → Prop) (state second : Rendering κ σ) : Prop where
  scope : second.scope = state.scope
  output : second.output = state.output
  store : related state.scope.inclusions state.store second.store

/-- Two renderings that end with the same result in matching states if they start in such. -/
def Matches (related : List String → κ → κ → Prop) (action other : Render κ σ α) : Prop :=
  ∀ state second, Matched related state second →
    (other.outcome second).1 = (action.outcome state).1 ∧
      Matched related (action.outcome state).2 (other.outcome second).2

section Rules

variable {related : List String → κ → κ → Prop}

theorem matches_done (result : Except Error α) :
    Matches related (done result : Render κ σ α) (done result) := pairs_done result

theorem matches_pure (a : α) : Matches related (pure a : Render κ σ α) (pure a) := matches_done _

theorem Matches.bind {action other : Render κ σ α} {rest later : α → Render κ σ β}
    (h : Matches related action other) (hrest : ∀ a, Matches related (rest a) (later a)) :
    Matches related (action >>= rest) (other >>= later) := Pairs.bind h hrest

theorem Matches.attempt {action other : Render κ σ α} (h : Matches related action other) :
    Matches related action.attempt other.attempt := Pairs.attempt h

/-- One step on each side, which leaves the stores and the inclusions alone. -/
theorem matches_step {act other : Rendering κ σ → β × Rendering κ σ}
    {next later : β → Render κ σ α}
    (hact : ∀ state second, Matched related state second →
      (other second).1 = (act state).1 ∧ Matched related (act state).2 (other second).2)
    (hnext : ∀ b, Matches related (next b) (later b)) :
    Matches related (step act next) (step other later) := by
  refine pairs_step fun state second hmatched => ?_
  obtain ⟨hanswer, hchanged⟩ := hact state second hmatched
  rw [hanswer]
  exact ⟨hchanged, hnext _⟩

theorem matches_ask {f g : Rendering κ σ → α}
    (h : ∀ state second, Matched related state second → g second = f state) :
    Matches related (ask f) (ask g) :=
  matches_step (fun state second hmatched => ⟨h state second hmatched, hmatched⟩) matches_pure

theorem Matched.changeScope {state second : Rendering κ σ} (h : Matched related state second)
    {f : Scope → Scope} (hf : ∀ scope, (f scope).inclusions = scope.inclusions) :
    Matched related { state with scope := f state.scope } { second with scope := f second.scope } :=
  ⟨congrArg f h.scope, h.output, by simpa only [hf] using h.store⟩

theorem matches_changeScope {f : Scope → Scope}
    (hf : ∀ scope, (f scope).inclusions = scope.inclusions) :
    Matches related (changeScope f : Render κ σ Unit) (changeScope f) :=
  matches_step (fun _ _ hmatched => ⟨rfl, hmatched.changeScope hf⟩) matches_pure

theorem Matches.andFinally {action other : Render κ σ α} (h : Matches related action other)
    {f : Scope → Scope} (hf : ∀ scope, (f scope).inclusions = scope.inclusions) :
    Matches related (action.andFinally f) (other.andFinally f) :=
  h.attempt.bind fun result => (matches_changeScope hf).bind fun _ => matches_done result

theorem matches_write (sink : Sink σ) (text : String) :
    Matches related (write sink text : Render κ σ Unit) (write sink text) := by
  refine matches_step ?_ fun _ => matches_done _
  intro state second hmatched
  have houtput := hmatched.output
  simp only [houtput]
  exact ⟨trivial, hmatched.scope, rfl, hmatched.store⟩

theorem matches_writeAll (sink : Sink σ) (texts : List String) :
    Matches related (writeAll sink texts : Render κ σ Unit) (writeAll sink texts) := by
  induction texts with
  | nil => exact matches_pure ()
  | cons text later ih => exact (matches_write sink text).bind fun _ => ih

theorem Matches.collect {body other : Render κ String Unit} (h : Matches related body other) :
    Matches related (collect body : Render κ σ String) (collect other) := by
  intro state second hmatched
  obtain ⟨hresult, hlast⟩ := h ⟨state.scope, state.store, ""⟩ ⟨second.scope, second.store, ""⟩
    ⟨hmatched.scope, rfl, hmatched.store⟩
  unfold Render.collect
  rw [outcome_collectBehind, outcome_collectBehind]
  simp only [hresult, hlast.output, true_and]
  exact ⟨hlast.scope, hmatched.output, hlast.store⟩

theorem Matches.place {related : List String → κ → κ → Prop} {render other : Renderer κ}
    (h : ∀ (τ : Type) (sink : Sink τ) (body : List Segment),
      Matches related (render τ sink body) (other τ sink body))
    (sink : Sink σ) (indent : String) (body : List Segment) :
    Matches related (place sink render indent body) (place sink other indent body) := by
  unfold Render.place
  split
  · exact h σ sink body
  · exact (h String .text body).collect.bind fun text => matches_writeAll sink _

/-- What goes on inside of an inclusion, between entering and leaving it. -/
theorem Matches.inside {related inner : List String → κ → κ → Prop} {name : String}
    {action other : Render κ σ Unit} (h : Matches inner action other)
    (henter : ∀ inclusions store second, related inclusions store second →
      inner (name :: inclusions) store second)
    (hleave : ∀ inclusions store second, inner inclusions store second →
      related inclusions.tail store second) :
    Matches related (changeScope (.enter name) >>= fun _ => action.andFinally .leave)
      (changeScope (.enter name) >>= fun _ => other.andFinally .leave) := by
  intro state second hmatched
  let entered : Rendering κ σ := { state with scope := state.scope.enter name }
  let otherEntered : Rendering κ σ := { second with scope := second.scope.enter name }
  have hentered : Matched inner entered otherEntered :=
    ⟨congrArg (Scope.enter name) hmatched.scope, hmatched.output, henter _ _ _ hmatched.store⟩
  obtain ⟨hresult, hlast⟩ := h entered otherEntered hentered
  have houtcome : ∀ (body : Render κ σ Unit) (start : Rendering κ σ),
      (changeScope (.enter name) >>= fun _ => body.andFinally .leave).outcome start =
        (body.andFinally .leave).outcome { start with scope := start.scope.enter name } :=
    fun _ _ => rfl
  rw [houtcome, houtcome, outcome_andFinally, outcome_andFinally]
  exact ⟨hresult, congrArg Scope.leave hlast.scope, hlast.output, hleave _ _ _ hlast.store⟩

variable {setting other : Setting κ}

theorem matches_find (name : String)
    (h : ∀ inclusions store second, related inclusions store second →
      ((other.find name).outcome second).1 = ((setting.find name).outcome store).1 ∧
        related inclusions ((setting.find name).outcome store).2
          ((other.find name).outcome second).2) :
    Matches related (find setting name : Render κ σ (Option Template)) (find other name) := by
  refine matches_step ?_ matches_done
  intro state second hmatched
  obtain ⟨hfound, hstore⟩ := h _ _ _ hmatched.store
  exact ⟨hfound, hmatched.scope, hmatched.output, hstore⟩

variable (halike : setting.Alike other)

include halike

theorem matches_resolve (name : String) :
    Matches related (resolve setting name : Render κ σ (Option Value)) (resolve other name) :=
  matches_ask fun state second hmatched => by rw [hmatched.scope, halike.naming]

theorem matches_push (value : Value) (position : Option Iteration) :
    Matches related (push setting value position : Render κ σ Unit)
      (push other value position) := by
  refine matches_step ?_ matches_done
  intro state second hmatched
  rw [hmatched.scope, halike.scopeLimit]
  cases hpush : state.scope.push setting.config.scopeLimit value position with
  | error error => exact ⟨rfl, hmatched⟩
  | ok opened =>
    have hstore : related opened.inclusions state.store second.store :=
      Scope.inclusions_of_push hpush ▸ hmatched.store
    exact ⟨rfl, rfl, hmatched.output, hstore⟩

theorem Matches.under {body second : Render κ σ Unit} (h : Matches related body second)
    (value : Value) (position : Option Iteration) :
    Matches related (under setting value position body) (under other value position second) := by
  exact (matches_push halike value position).bind fun _ => h.andFinally Scope.inclusions_pop

theorem Matches.elements {body second : Render κ σ Unit} (h : Matches related body second)
    (size before : Nat) (values : List Value) :
    Matches related (elements setting body size before values)
      (elements other second size before values) := by
  induction values generalizing before with
  | nil => exact matches_pure ()
  | cons value later ih => exact (h.under halike _ _).bind fun _ => ih _

theorem matches_output (sink : Sink σ) (name : String) (escaped : Bool) :
    Matches related (output setting sink name escaped) (output other sink name escaped) := by
  refine (matches_resolve halike name).bind fun found => ?_
  rw [halike.skipEscaping]
  split
  · exact matches_pure ()
  · exact matches_pure ()
  · split
    · exact matches_writeAll sink _
    · exact matches_write sink _

theorem Matches.plainBlock {body second : Render κ σ Unit} (h : Matches related body second)
    (name : String) :
    Matches related (plainBlock setting name body) (plainBlock other name second) := by
  refine (matches_resolve halike name).bind fun found => ?_
  split
  · exact matches_pure ()
  · split
    · exact h.elements halike _ _ _
    · split
      · exact h.under halike _ _
      · exact matches_pure ()

theorem Matches.invertedBlock {body second : Render κ σ Unit} (h : Matches related body second)
    (name : String) :
    Matches related (invertedBlock setting name body) (invertedBlock other name second) := by
  refine (matches_resolve halike name).bind fun found => ?_
  split
  · exact h
  · exact matches_pure ()

/-- A script is answered alike, step by step. -/
theorem matches_runScript (sink : Sink σ) {body elseBody second elseSecond : Render κ σ Unit}
    (hbody : Matches related body second) (helse : Matches related elseBody elseSecond)
    (script : Script α) (pushed : Nat) :
    Matches related (runScript setting sink body elseBody pushed script)
      (runScript other sink second elseSecond pushed script) := by
  induction script generalizing pushed with
  | done result => exact matches_pure _
  | push value position next ih =>
    rw [runScript, runScript]
    refine (matches_push halike value position).attempt.bind fun answer => ?_
    cases answer with
    | ok _ => exact ih _ _
    | error error => exact ih _ _
  | pop next ih =>
    cases pushed with
    | zero => exact ih none 0
    | succ left =>
      have hpop : Matches related (pop : Render κ σ (Option Value)) pop := by
        refine matches_step ?_ matches_pure
        intro state second hmatched
        exact ⟨by rw [hmatched.scope], hmatched.changeScope Scope.inclusions_pop⟩
      exact hpop.bind fun answer => ih answer left
  | renderBody next ih => exact hbody.attempt.bind fun answer => ih answer pushed
  | renderElse next ih => exact helse.attempt.bind fun answer => ih answer pushed
  | append text next ih =>
    exact (matches_write sink text).attempt.bind fun answer => ih answer pushed
  | peek next ih =>
    have hpeek : Matches related (ask fun state => state.scope.peek : Render κ σ Value)
        (ask fun state => state.scope.peek) :=
      matches_ask fun state second hmatched => by rw [hmatched.scope]
    exact hpeek.bind fun answer => ih answer pushed
  | resolve name next ih => exact (matches_resolve halike name).bind fun answer => ih answer pushed
  | apply function argument next ih =>
    rw [runScript, runScript, halike.transform]
    exact ih _ pushed

theorem matches_invocation (sink : Sink σ) (helper : Helper) (tag : HelperTag) (hasElse : Bool)
    {body elseBody second elseSecond : Render κ σ Unit} (hbody : Matches related body second)
    (helse : Matches related elseBody elseSecond) :
    Matches related (invocation setting sink helper tag hasElse body elseBody)
      (invocation other sink helper tag hasElse second elseSecond) := by
  have hcall : Matches related
      (ask fun state => callOf setting state.scope tag hasElse : Render κ σ Call)
      (ask fun state => callOf other state.scope tag hasElse) :=
    matches_ask fun state second hmatched => by rw [hmatched.scope, callOf, callOf, halike.naming]
  refine hcall.bind fun call =>
    (matches_runScript halike sink hbody helse _ 0).bind fun answer => ?_
  obtain ⟨result, pushed⟩ := answer
  have hdrop : ∀ scope : Scope, (scope.drop pushed).inclusions = scope.inclusions := fun _ => rfl
  exact (matches_changeScope hdrop).bind fun _ => matches_done result

end Rules

section Trees

variable {related : List String → κ → κ → Prop} {setting other : Setting κ}

mutual

theorem matches_segmentBy (halike : setting.Alike other) (sink : Sink σ)
    {included second : String → String → Render κ σ Unit}
    (h : ∀ name indent, Matches related (included name indent) (second name indent)) :
    ∀ part : Segment, Matches related (segmentBy setting sink included part)
      (segmentBy other sink second part)
  | .text text => matches_write sink text
  | .output name escaped _ => matches_output halike sink name escaped
  | .block name false body _ => (matches_segmentsBy halike sink h body).plainBlock halike name
  | .block name true body _ => (matches_segmentsBy halike sink h body).invertedBlock halike name
  | .inclusion name indent _ => h name indent
  | .invocation registered tag body none =>
    matches_invocation halike sink registered.helper tag false
      (matches_segmentsBy halike sink h body) (matches_pure ())
  | .invocation registered tag body (some elseBody) =>
    matches_invocation halike sink registered.helper tag true
      (matches_segmentsBy halike sink h body) (matches_segmentsBy halike sink h elseBody)
  | .comment => matches_pure ()

/-- Segments render alike if inclusions do. -/
theorem matches_segmentsBy (halike : setting.Alike other) (sink : Sink σ)
    {included second : String → String → Render κ σ Unit}
    (h : ∀ name indent, Matches related (included name indent) (second name indent)) :
    ∀ parts : List Segment, Matches related (segmentsBy setting sink included parts)
      (segmentsBy other sink second parts)
  | [] => matches_pure ()
  | first :: later =>
    (matches_segmentBy halike sink h first).bind fun _ => matches_segmentsBy halike sink h later

end

def FindAlike (related : κ → κ → Prop) (setting other : Setting κ) : Prop :=
  ∀ name store second, related store second →
    ((other.find name).outcome second).1 = ((setting.find name).outcome store).1 ∧
      related ((setting.find name).outcome store).2 ((other.find name).outcome second).2

theorem matches_inclusion {related : κ → κ → Prop} (hfind : FindAlike related setting other)
    (halike : setting.Alike other) (sink : Sink σ) {deeper second : Option (Renderer κ)}
    (hdeeper : Option.Rel (fun render moved => ∀ (τ : Type) (sink : Sink τ) (body : List Segment),
      Matches (fun _ => related) (render τ sink body) (moved τ sink body)) deeper second)
    (name indent : String) :
    Matches (fun _ => related) (inclusion setting sink deeper name indent)
      (inclusion other sink second name indent) := by
  refine (matches_find name fun _ => hfind name).bind fun found => ?_
  cases found with
  | none => exact matches_pure ()
  | some template =>
    cases hdeeper with
    | none =>
      simp only [halike.inclusionLimit]
      exact matches_done _
    | some hrender =>
      exact (Matches.place hrender sink indent template.segments).inside (fun _ _ _ h => h)
        fun _ _ _ h => h

theorem matches_nested {related : κ → κ → Prop} (hfind : FindAlike related setting other)
    (halike : setting.Alike other) (depth : Nat) :
    ∀ (τ : Type) (sink : Sink τ) (body : List Segment),
      Matches (fun _ => related) (nested setting depth τ sink body)
        (nested other depth τ sink body) := by
  induction depth with
  | zero =>
    intro τ sink body
    simp only [nested, segments_eq_segmentsBy]
    exact matches_segmentsBy halike sink (matches_inclusion hfind halike sink .none) body
  | succ depth ih =>
    intro τ sink body
    simp only [nested, segments_eq_segmentsBy]
    exact matches_segmentsBy halike sink (matches_inclusion hfind halike sink (.some ih)) body

/-- Whole renderings go alike, if templates are found alike. -/
theorem matches_all {related : κ → κ → Prop} (hfind : FindAlike related setting other)
    (halike : setting.Alike other) (sink : Sink σ) (body : List Segment) :
    Matches (fun _ => related) (all setting sink body) (all other sink body) := by
  have hdepth : Matches (fun _ => related)
      (ask fun state => setting.config.inclusionLimit - state.scope.inclusions.length :
        Render κ σ Nat)
      (ask fun state => other.config.inclusionLimit - state.scope.inclusions.length) :=
    matches_ask fun state second hmatched => by rw [hmatched.scope, halike.inclusionLimit]
  exact hdepth.bind fun depth => matches_nested hfind halike depth σ sink body

end Trees

end Render

end Stencil
