import Stencil.Proofs.Helper.GivingUp
import Stencil.Proofs.Rendering.Matching
import Stencil.Proofs.Rendering.Sections
import Stencil.Proofs.Tree.Calls

/-! Renderings that succeed where others do. Only an error can tell how many inclusions are open: a
rendering that comes to a result comes to the same one, and to the same output, in other inclusions
with as much room for more of them. -/

namespace Stencil

open Segment (CallsOnly AllCallOnly)

/-- In all of these stores a name stands for one answer, whose template calls only allowed helpers,
and looking for it leads to no other store. -/
structure Setting.Keeps {κ : Type} (setting : Setting κ) (allowed : Helper → Prop)
    (stores : κ → Prop) (answers : String → Except Error (Option Template)) : Prop where
  keeps : ∀ name store, stores store → stores ((setting.find name).outcome store).2
  finds : ∀ name store, stores store → ((setting.find name).outcome store).1 = answers name
  calls : ∀ name template, answers name = .ok (some template) →
    AllCallOnly allowed template.segments

theorem Setting.Keeps.mono {κ : Type} {setting : Setting κ} {allowed wider : Helper → Prop}
    {stores : κ → Prop} {answers : String → Except Error (Option Template)}
    (h : setting.Keeps allowed stores answers) (hwider : ∀ helper, allowed helper → wider helper) :
    setting.Keeps wider stores answers where
  keeps := h.keeps
  finds := h.finds
  calls name template hfound := .mono hwider (h.calls name template hfound)

theorem Setting.Keeps.provides {κ : Type} {setting : Setting κ} {allowed : Helper → Prop}
    {stores : κ → Prop} {answers : String → Except Error (Option Template)}
    (h : setting.Keeps allowed stores answers) : setting.Provides allowed stores where
  keeps := h.keeps
  finds name store template hstore hfound :=
    h.calls name template ((h.finds name store hstore).symm.trans hfound)

namespace Render

variable {κ σ α β γ : Type}

/-- What follows a rendering has succeeded, so the rendering has. -/
theorem outcome_bind_eq_ok {action : Render κ σ α} {rest : α → Render κ σ β}
    {state last : Rendering κ σ} {b : β} (h : (action >>= rest).outcome state = (.ok b, last)) :
    ∃ a middle, action.outcome state = (.ok a, middle) ∧
      (rest a).outcome middle = (.ok b, last) := by
  rw [outcome_bind] at h
  rcases haction : action.outcome state with ⟨error | a, middle⟩ <;> simp only [haction] at h
  · cases h
  · exact ⟨a, middle, rfl, h⟩

structure SameFrames (stores : κ → Prop) (state second : Rendering κ σ) : Prop where
  frames : second.scope.frames = state.scope.frames
  output : second.output = state.output
  store : stores state.store
  other : stores second.store

/-- Whenever `action` comes to a result that counts, so does `other`, and to the same one. -/
def Entails (stores : κ → Prop) (counts : α → Prop) (action other : Render κ σ α) : Prop :=
  ∀ state second a last, SameFrames stores state second → action.outcome state = (.ok a, last) →
    counts a → ∃ behind, other.outcome second = (.ok a, behind) ∧ SameFrames stores last behind

def Misses (counts : α → Prop) (action : Render κ σ α) : Prop :=
  ∀ state a last, action.outcome state = (.ok a, last) → ¬ counts a

def Any (_ : α) : Prop := True

def Went (answer : Except Error α) : Prop := ∃ a, answer = .ok a

section Rules

variable {stores : κ → Prop} {counts : α → Prop}

theorem misses_error (error : Error) : Misses counts (done (.error error) : Render κ σ α) := by
  rintro state a last ⟨⟩

theorem entails_error (error : Error) (other : Render κ σ α) :
    Entails stores counts (done (.error error)) other := by
  rintro state second a last - ⟨⟩

theorem entails_done (result : Except Error α) :
    Entails stores counts (done result : Render κ σ α) (done result) := by
  rintro state second a last hsame ⟨⟩ -
  exact ⟨second, rfl, hsame⟩

theorem entails_pure (a : α) : Entails stores counts (pure a : Render κ σ α) (pure a) :=
  entails_done _

/-- One step on each side. The answers may differ, if what follows them still succeeds alike. -/
theorem entails_step {act : Rendering κ σ → β × Rendering κ σ}
    {other : Rendering κ σ → γ × Rendering κ σ} {next : β → Render κ σ α}
    {later : γ → Render κ σ α}
    (h : ∀ state second, SameFrames stores state second →
      SameFrames stores (act state).2 (other second).2 ∧
        Entails stores counts (next (act state).1) (later (other second).1)) :
    Entails stores counts (step act next) (step other later) := by
  intro state second a last hsame hlast hcounts
  obtain ⟨hchanged, hnext⟩ := h state second hsame
  exact hnext _ _ a last hchanged hlast hcounts

/-- What follows a rendering is entailed as well, if no result that counts comes of one that does
not. -/
theorem Entails.bind_of {wanted : β → Prop} {action other : Render κ σ α}
    {rest later : α → Render κ σ β} (h : Entails stores counts action other)
    (hrest : ∀ a, counts a → Entails stores wanted (rest a) (later a))
    (hmiss : ∀ a, ¬ counts a → Misses wanted (rest a)) :
    Entails stores wanted (action >>= rest) (other >>= later) := by
  intro state second b last hsame hlast hwanted
  obtain ⟨a, middle, haction, hlast⟩ := outcome_bind_eq_ok hlast
  have hcounts : counts a := by
    by_contra hnot
    exact hmiss a hnot middle b last hlast hwanted
  obtain ⟨behind, hother, hmiddle⟩ := h state second a middle hsame haction hcounts
  rw [outcome_bind, hother]
  exact hrest a hcounts middle behind b last hmiddle hlast hwanted

theorem Entails.bind {wanted : β → Prop} {action other : Render κ σ α}
    {rest later : α → Render κ σ β} (h : Entails stores Any action other)
    (hrest : ∀ a, Entails stores wanted (rest a) (later a)) :
    Entails stores wanted (action >>= rest) (other >>= later) :=
  h.bind_of (fun a _ => hrest a) fun _ hnot => absurd trivial hnot

theorem Entails.attempt {action other : Render κ σ α} (h : Entails stores Any action other) :
    Entails stores Went action.attempt other.attempt := by
  rintro state second answer last hsame hlast ⟨a, rfl⟩
  rw [outcome_attempt] at hlast ⊢
  rcases haction : action.outcome state with ⟨error | result, middle⟩ <;>
    simp only [haction, Prod.mk.injEq, Except.ok.injEq, reduceCtorEq, false_and] at hlast
  obtain ⟨rfl, rfl⟩ := hlast
  obtain ⟨behind, hother, hmiddle⟩ := h state second result middle hsame haction trivial
  exact ⟨behind, by rw [hother], hmiddle⟩

theorem entails_ask {f : Rendering κ σ → α}
    (h : ∀ state second : Rendering κ σ, second.scope.frames = state.scope.frames →
      f second = f state) : Entails stores counts (ask f : Render κ σ α) (ask f) := by
  refine entails_step fun state second hsame => ⟨hsame, ?_⟩
  rw [h state second hsame.frames]
  exact entails_pure _

theorem entails_changeScope {counts : Unit → Prop} {f : Scope → Scope}
    (hf : ∀ scope second : Scope, second.frames = scope.frames →
      (f second).frames = (f scope).frames) :
    Entails stores counts (changeScope f : Render κ σ Unit) (changeScope f) :=
  entails_step fun _ _ hsame =>
    ⟨⟨hf _ _ hsame.frames, hsame.output, hsame.store, hsame.other⟩, entails_pure ()⟩

theorem Entails.andFinally {action other : Render κ σ α} (h : Entails stores Any action other)
    {f : Scope → Scope} (hf : ∀ scope second : Scope, second.frames = scope.frames →
      (f second).frames = (f scope).frames) :
    Entails stores Any (action.andFinally f) (other.andFinally f) := by
  refine h.attempt.bind_of (fun result _ => ?_) fun result hnot => ?_
  · exact (entails_changeScope hf).bind fun _ => entails_done result
  · rintro state a last hlast -
    cases result with
    | ok result => exact hnot ⟨result, rfl⟩
    | error error => cases hlast

theorem entails_write (sink : Sink σ) (text : String) :
    Entails stores Any (write sink text : Render κ σ Unit) (write sink text) := by
  refine entails_step fun state second hsame => ?_
  rw [hsame.output]
  exact ⟨⟨hsame.frames, rfl, hsame.store, hsame.other⟩, entails_done _⟩

theorem entails_writeAll (sink : Sink σ) (texts : List String) :
    Entails stores Any (writeAll sink texts : Render κ σ Unit) (writeAll sink texts) := by
  induction texts with
  | nil => exact entails_pure ()
  | cons text later ih => exact (entails_write sink text).bind fun _ => ih

theorem Entails.collect {body other : Render κ String Unit} (h : Entails stores Any body other) :
    Entails stores Any (collect body : Render κ σ String) (collect other) := by
  rintro state second text last hsame hlast -
  rw [Render.collect, outcome_collectBehind] at hlast ⊢
  rcases hbody : body.outcome ⟨state.scope, state.store, ""⟩ with ⟨error | _, inner⟩ <;>
    simp only [hbody, Except.map, Prod.mk.injEq, Except.ok.injEq, reduceCtorEq, false_and] at hlast
  obtain ⟨rfl, rfl⟩ := hlast
  obtain ⟨behind, hother, hinner⟩ := h ⟨state.scope, state.store, ""⟩
    ⟨second.scope, second.store, ""⟩ () inner ⟨hsame.frames, rfl, hsame.store, hsame.other⟩ hbody
    trivial
  rw [hother]
  refine ⟨⟨behind.scope, behind.store, second.output⟩, ?_, ?_⟩
  · simp only [Except.map, hinner.output]
  · exact ⟨hinner.frames, hsame.output, hinner.store, hinner.other⟩

def EntailsEverywhere (stores : κ → Prop) (render other : Renderer κ) : Prop :=
  ∀ (τ : Type) (sink : Sink τ) (body : List Segment), AllCallOnly Helper.GivesUp body →
    Entails stores Any (render τ sink body) (other τ sink body)

theorem EntailsEverywhere.place {render other : Renderer κ}
    (h : EntailsEverywhere stores render other) (sink : Sink σ) (indent : String)
    {body : List Segment} (hcalls : AllCallOnly Helper.GivesUp body) :
    Entails stores Any (place sink render indent body) (place sink other indent body) := by
  unfold Render.place
  split
  · exact h σ sink body hcalls
  · exact (h String .text body hcalls).collect.bind fun text => entails_writeAll sink _

section Blocks

variable {setting : Setting κ} {body other : Render κ σ Unit}

theorem entails_resolve (name : String) :
    Entails stores Any (resolve setting name : Render κ σ (Option Value))
      (resolve setting name) := by
  apply entails_ask
  rintro ⟨⟨template, frames, inclusions⟩, store, output⟩ ⟨⟨_, _, _⟩, _, _⟩ rfl
  rfl

theorem entails_push (value : Value) (position : Option Iteration) :
    Entails stores Any (push setting value position : Render κ σ Unit)
      (push setting value position) := by
  intro state second a last hsame hlast _
  have hdepth : second.scope.depth = state.scope.depth := congrArg List.length hsame.frames
  by_cases hroom : state.scope.depth < setting.config.scopeLimit
  · rw [outcome_push_of_room value position hroom] at hlast
    obtain ⟨-, rfl⟩ := Prod.mk.inj hlast
    rw [outcome_push_of_room value position (hdepth ▸ hroom)]
    have hframes := congrArg (List.cons (⟨value, position⟩ : Frame)) hsame.frames
    exact ⟨_, rfl, hframes, hsame.output, hsame.store, hsame.other⟩
  · rw [outcome_push_of_full value position hroom] at hlast
    cases hlast

theorem frames_pop_congr (scope second : Scope) (h : second.frames = scope.frames) :
    second.pop.2.frames = scope.pop.2.frames := by
  rw [Scope.frames_pop, Scope.frames_pop, h]

theorem entails_pop : Entails stores Any (pop : Render κ σ (Option Value)) pop := by
  refine entails_step fun state second hsame => ?_
  have hvalue : second.scope.pop.1 = state.scope.pop.1 := by
    rw [Scope.value_pop, Scope.value_pop, hsame.frames]
  have hframes := frames_pop_congr state.scope second.scope hsame.frames
  simp only [hvalue]
  exact ⟨⟨hframes, hsame.output, hsame.store, hsame.other⟩, entails_pure _⟩

theorem Entails.under (h : Entails stores Any body other) (value : Value)
    (position : Option Iteration) :
    Entails stores Any (under setting value position body) (under setting value position other) :=
  (entails_push value position).bind fun _ => h.andFinally frames_pop_congr

theorem Entails.elements (h : Entails stores Any body other) (size before : Nat)
    (values : List Value) :
    Entails stores Any (elements setting body size before values)
      (elements setting other size before values) := by
  induction values generalizing before with
  | nil => exact entails_pure ()
  | cons value later ih => exact (h.under _ _).bind fun _ => ih _

theorem entails_output (sink : Sink σ) (name : String) (escaped : Bool) :
    Entails stores Any (output setting sink name escaped) (output setting sink name escaped) := by
  refine (entails_resolve name).bind fun found => ?_
  split
  · exact entails_pure ()
  · exact entails_pure ()
  · split
    · exact entails_writeAll sink _
    · exact entails_write sink _

theorem Entails.plainBlock (h : Entails stores Any body other) (name : String) :
    Entails stores Any (plainBlock setting name body) (plainBlock setting name other) := by
  refine (entails_resolve name).bind fun found => ?_
  split
  · exact entails_pure ()
  · split
    · exact h.elements _ _ _
    · split
      · exact h.under _ _
      · exact entails_pure ()

theorem Entails.invertedBlock (h : Entails stores Any body other) (name : String) :
    Entails stores Any (invertedBlock setting name body) (invertedBlock setting name other) := by
  refine (entails_resolve name).bind fun found => ?_
  split
  · exact h
  · exact entails_pure ()

end Blocks

section Scripts

variable {setting : Setting κ} {sink : Sink σ} {body other elseBody otherElse : Render κ σ Unit}

def Completed (answer : Except Error α × Nat) : Prop := Went answer.1

theorem misses_bind {wanted : β → Prop} {action : Render κ σ α} {rest : α → Render κ σ β}
    (h : ∀ a, Misses wanted (rest a)) : Misses wanted (action >>= rest) := by
  intro state b last hlast
  obtain ⟨a, middle, -, hrest⟩ := outcome_bind_eq_ok hlast
  exact h a middle b last hrest

theorem misses_runScript {script : Script (Except Error α)} (h : script.Fails) (pushed : Nat) :
    Misses Completed (runScript setting sink body elseBody pushed script) := by
  induction script generalizing pushed with
  | done result =>
    rintro state answer last ⟨⟩ ⟨a, ha⟩
    exact h a ha
  | push value position next ih =>
    rw [runScript]
    refine misses_bind fun answer => ?_
    cases answer with
    | ok _ => exact ih _ (h _) _
    | error error => exact ih _ (h _) _
  | pop next ih =>
    cases pushed with
    | zero => exact ih none (h none) 0
    | succ left => exact misses_bind fun answer => ih answer (h answer) left
  | renderBody next ih => exact misses_bind fun answer => ih answer (h answer) pushed
  | renderElse next ih => exact misses_bind fun answer => ih answer (h answer) pushed
  | append text next ih => exact misses_bind fun answer => ih answer (h answer) pushed
  | peek next ih => exact misses_bind fun answer => ih answer (h answer) pushed
  | resolve name next ih => exact misses_bind fun answer => ih answer (h answer) pushed
  | apply function argument next ih => exact ih _ (h _) pushed

/-- A request of a script that may fail: the script goes on where it has not. -/
theorem Entails.attempt_bind {action second : Render κ σ Unit}
    (h : Entails stores Any action second)
    {rest later : Except Error Unit → Render κ σ (Except Error α × Nat)}
    (hok : Entails stores Completed (rest (.ok ())) (later (.ok ())))
    (herror : ∀ error, Misses Completed (rest (.error error))) :
    Entails stores Completed (action.attempt >>= rest) (second.attempt >>= later) := by
  refine h.attempt.bind_of ?_ fun answer hnot => ?_
  · rintro _ ⟨⟨⟩, rfl⟩
    exact hok
  · cases answer with
    | ok a => exact absurd ⟨a, rfl⟩ hnot
    | error error => exact herror error

/-- A script that gives up on errors completes where it has completed before. -/
theorem entails_runScript (hbody : Entails stores Any body other)
    (helse : Entails stores Any elseBody otherElse) {script : Script (Except Error α)}
    (hscript : script.GivesUp) (pushed : Nat) :
    Entails stores Completed (runScript setting sink body elseBody pushed script)
      (runScript setting sink other otherElse pushed script) := by
  induction script generalizing pushed with
  | done result => exact entails_pure _
  | push value position next ih =>
    rw [runScript, runScript]
    refine (entails_push value position).attempt_bind (ih _ hscript.2 _) fun error => ?_
    exact misses_runScript (hscript.1 error) pushed
  | pop next ih =>
    cases pushed with
    | zero => exact ih none (hscript none) 0
    | succ left => exact entails_pop.bind fun answer => ih answer (hscript answer) left
  | renderBody next ih =>
    refine hbody.attempt_bind (ih _ hscript.2 _) fun error => ?_
    exact misses_runScript (hscript.1 error) pushed
  | renderElse next ih =>
    refine helse.attempt_bind (ih _ hscript.2 _) fun error => ?_
    exact misses_runScript (hscript.1 error) pushed
  | append text next ih =>
    refine (entails_write sink text).attempt_bind (ih _ hscript.2 _) fun error => ?_
    exact misses_runScript (hscript.1 error) pushed
  | peek next ih =>
    refine Entails.bind (entails_ask ?_) fun answer => ih answer (hscript answer) pushed
    rintro ⟨⟨template, frames, inclusions⟩, store, output⟩ ⟨⟨_, _, _⟩, _, _⟩ rfl
    rfl
  | resolve name next ih =>
    exact (entails_resolve name).bind fun answer => ih answer (hscript answer) pushed
  | apply function argument next ih => exact ih _ (hscript _) pushed

theorem entails_invocation {helper : Helper} (hhelper : helper.GivesUp) (tag : HelperTag)
    (hasElse : Bool) (hbody : Entails stores Any body other)
    (helse : Entails stores Any elseBody otherElse) :
    Entails stores Any (invocation setting sink helper tag hasElse body elseBody)
      (invocation setting sink helper tag hasElse other otherElse) := by
  refine Entails.bind (entails_ask ?_) fun call => ?_
  · rintro ⟨⟨template, frames, inclusions⟩, store, output⟩ ⟨⟨_, _, _⟩, _, _⟩ rfl
    rfl
  · refine (entails_runScript hbody helse (hhelper call) 0).bind_of ?_ fun answer hnot => ?_
    · rintro ⟨result, pushed⟩ -
      refine (entails_changeScope ?_).bind fun _ => entails_done result
      exact fun scope second hframes => congrArg (List.drop pushed) hframes
    · obtain ⟨error | a, pushed⟩ := answer
      · exact misses_bind fun _ => misses_error error
      · exact absurd ⟨a, rfl⟩ hnot

end Scripts

end Rules

section Trees

variable {setting : Setting κ} {stores : κ → Prop}
  {answers : String → Except Error (Option Template)}

theorem entails_find_bind (hkeeps : setting.Keeps Helper.GivesUp stores answers) (name : String)
    {rest later : Option Template → Render κ σ Unit}
    (hnone : Entails stores Any (rest none) (later none))
    (hsome : ∀ template, AllCallOnly Helper.GivesUp template.segments →
      Entails stores Any (rest (some template)) (later (some template))) :
    Entails stores Any (find setting name >>= rest) (find setting name >>= later) := by
  apply entails_step
  intro state second hsame
  have hanswer := hkeeps.finds name state.store hsame.store
  have hother := hkeeps.finds name second.store hsame.other
  refine ⟨⟨hsame.frames, hsame.output, hkeeps.keeps name state.store hsame.store,
    hkeeps.keeps name second.store hsame.other⟩, ?_⟩
  simp only [hanswer, hother]
  rcases hfound : answers name with error | _ | template
  · exact entails_error error _
  · exact hnone
  · exact hsome template (hkeeps.calls name template hfound)

/-- An inclusion succeeds where one does that has no more room for others. -/
theorem entails_inclusion (hkeeps : setting.Keeps Helper.GivesUp stores answers) (sink : Sink σ)
    {deeper other : Option (Renderer κ)}
    (hdeeper : ∀ render ∈ deeper, ∃ later ∈ other, EntailsEverywhere stores render later)
    (name indent : String) :
    Entails stores Any (inclusion setting sink deeper name indent)
      (inclusion setting sink other name indent) := by
  refine entails_find_bind hkeeps name (entails_pure ()) fun template hcalls => ?_
  cases deeper with
  | none => exact entails_error _ _
  | some render =>
    obtain ⟨later, rfl, hrender⟩ := hdeeper render rfl
    have henter : Entails stores Any (changeScope (.enter name) : Render κ σ Unit)
        (changeScope (.enter name)) := entails_changeScope fun _ _ => id
    have hplace : Entails stores Any
        ((place sink render indent template.segments).andFinally Scope.leave)
        ((place sink later indent template.segments).andFinally Scope.leave) :=
      (hrender.place sink indent hcalls).andFinally fun _ _ => id
    exact henter.bind fun _ => hplace

mutual

theorem entails_segmentBy {sink : Sink σ} {included other : String → String → Render κ σ Unit}
    (h : ∀ name indent, Entails stores Any (included name indent) (other name indent)) :
    ∀ part : Segment, CallsOnly Helper.GivesUp part →
      Entails stores Any (segmentBy setting sink included part)
        (segmentBy setting sink other part)
  | .text text, _ => entails_write sink text
  | .output name escaped _, _ => entails_output sink name escaped
  | .block name false body _, hcalls => (entails_segmentsBy h body hcalls).plainBlock name
  | .block name true body _, hcalls => (entails_segmentsBy h body hcalls).invertedBlock name
  | .inclusion name indent _, _ => h name indent
  | .invocation _ tag body none, hcalls =>
    entails_invocation hcalls.1 tag false (entails_segmentsBy h body hcalls.2) (entails_pure ())
  | .invocation _ tag body (some elseBody), hcalls =>
    entails_invocation hcalls.1 tag true (entails_segmentsBy h body hcalls.2.1)
      (entails_segmentsBy h elseBody hcalls.2.2)
  | .comment, _ => entails_pure ()

/-- Segments succeed alike if inclusions do. -/
theorem entails_segmentsBy {sink : Sink σ} {included other : String → String → Render κ σ Unit}
    (h : ∀ name indent, Entails stores Any (included name indent) (other name indent)) :
    ∀ parts : List Segment, AllCallOnly Helper.GivesUp parts →
      Entails stores Any (segmentsBy setting sink included parts)
        (segmentsBy setting sink other parts)
  | [], _ => entails_pure ()
  | first :: later, hcalls =>
    (entails_segmentBy h first hcalls.1).bind fun _ => entails_segmentsBy h later hcalls.2

end

theorem entails_segments (hkeeps : setting.Keeps Helper.GivesUp stores answers)
    {deeper other : Option (Renderer κ)}
    (hdeeper : ∀ render ∈ deeper, ∃ later ∈ other, EntailsEverywhere stores render later) :
    EntailsEverywhere stores (fun _ sink => segments setting deeper sink)
      (fun _ sink => segments setting other sink) := by
  intro τ sink body hcalls
  simp only [segments_eq_segmentsBy]
  exact entails_segmentsBy (entails_inclusion hkeeps sink hdeeper) body hcalls

/-- What succeeds where inclusions may nest so deep also does where they may nest deeper. -/
theorem entails_nested (hkeeps : setting.Keeps Helper.GivesUp stores answers) {depth more : Nat}
    (h : depth ≤ more) :
    EntailsEverywhere stores (nested setting depth) (nested setting more) := by
  induction depth generalizing more with
  | zero =>
    cases more with
    | zero => exact entails_segments hkeeps (by simp)
    | succ more => exact entails_segments hkeeps (by simp)
  | succ depth ih =>
    obtain ⟨further, rfl⟩ : ∃ further, more = further + 1 := ⟨more - 1, by omega⟩
    refine entails_segments hkeeps ?_
    rintro render ⟨⟩
    exact ⟨nested setting further, rfl, ih (by omega)⟩

end Trees

end Render

end Stencil
