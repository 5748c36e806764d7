import Stencil.Proofs.Helper.Heeding
import Stencil.Proofs.Rendering.Matching
import Stencil.Proofs.Sink
import Stencil.Proofs.Tree.Calls

/-! Renderings that follow others. Into any sink the same pieces are written as into one that takes
everything, up to the first that the sink refuses; there the rendering ends. -/

namespace Stencil

open Segment (CallsOnly AllCallOnly)

namespace Render

variable {κ σ α β : Type}

/-- What a rendering comes to in a sink, if it comes to `reference` with `pieces` written where all
are taken. Behind a refused write it ends as `refused` says, and the sink is as that left it. -/
structure Copied (sink : Sink σ) (refused : Except Error α → Prop) (pieces : List String)
    (output : σ) (reference : Except Error α × Rendering κ (List String))
    (copy : Except Error α × Rendering κ σ) : Prop where
  taken : ∀ after, sink.writeUntil pieces output = (true, after) →
    copy = (reference.1, ⟨reference.2.scope, reference.2.store, after⟩)
  refused : ∀ after, sink.writeUntil pieces output = (false, after) →
    refused copy.1 ∧ copy.2.output = after

/-- The sink is left as the pieces leave it, whether it takes them all or not. -/
theorem Copied.output_eq {sink : Sink σ} {refused : Except Error α → Prop} {pieces : List String}
    {output : σ} {reference : Except Error α × Rendering κ (List String)}
    {copy : Except Error α × Rendering κ σ}
    (h : Copied sink refused pieces output reference copy) :
    copy.2.output = (sink.writeUntil pieces output).2 := by
  rcases hwritten : sink.writeUntil pieces output with ⟨_ | _, after⟩
  · exact (h.refused after hwritten).2
  · rw [h.taken after hwritten]

/-- In sound stores `action` writes the pieces that `reference` writes, as far as the sink takes
them. -/
def Follows (sink : Sink σ) (sound : κ → Prop) (refused : Except Error α → Prop)
    (reference : Render κ (List String) α) (action : Render κ σ α) : Prop :=
  ∀ scope store written output, sound store → ∃ pieces,
    (reference.outcome ⟨scope, store, written⟩).2.output = written ++ pieces ∧
    sound (reference.outcome ⟨scope, store, written⟩).2.store ∧
    Copied sink refused pieces output (reference.outcome ⟨scope, store, written⟩)
      (action.outcome ⟨scope, store, output⟩)

def Failed (result : Except Error α) : Prop := result = .error .write

section Rules

variable {sink : Sink σ} {sound : κ → Prop} {refused : Except Error α → Prop}

theorem follows_done (result : Except Error α) :
    Follows sink sound refused (done result : Render κ (List String) α) (done result) := by
  intro scope store written output hsound
  refine ⟨[], (List.append_nil written).symm, hsound, ?_, ?_⟩
  · rintro after ⟨⟩
    rfl
  · rintro after ⟨⟩

theorem follows_pure (a : α) :
    Follows sink sound refused (pure a : Render κ (List String) α) (pure a) := follows_done _

/-- One step on each side that writes nothing and has one answer. -/
theorem follows_step {act : Rendering κ (List String) → β × Rendering κ (List String)}
    {copy : Rendering κ σ → β × Rendering κ σ} {next : β → Render κ (List String) α}
    {later : β → Render κ σ α}
    (h : ∀ scope store, sound store → ∃ answer changed after,
      (∀ written, act ⟨scope, store, written⟩ = (answer, ⟨changed, after, written⟩)) ∧
      (∀ output, copy ⟨scope, store, output⟩ = (answer, ⟨changed, after, output⟩)) ∧
      sound after ∧ Follows sink sound refused (next answer) (later answer)) :
    Follows sink sound refused (step act next) (step copy later) := by
  intro scope store written output hsound
  obtain ⟨answer, changed, after, hact, hcopy, hafter, hnext⟩ := h scope store hsound
  rw [outcome_step, outcome_step, hact, hcopy]
  exact hnext changed after written output hafter

/-- What follows a rendering follows as well, if behind a refused write it writes nothing. -/
theorem Follows.bind_of {middle : Except Error α → Prop} {refused : Except Error β → Prop}
    {reference : Render κ (List String) α} {action : Render κ σ α}
    {rest : α → Render κ (List String) β} {later : α → Render κ σ β}
    (h : Follows sink sound middle reference action)
    (hrest : ∀ a, Follows sink sound refused (rest a) (later a))
    (hok : ∀ a, middle (.ok a) → ∀ state, refused ((later a).outcome state).1 ∧
      ((later a).outcome state).2.output = state.output)
    (herror : ∀ error, middle (.error error) → refused (.error error)) :
    Follows sink sound refused (reference >>= rest) (action >>= later) := by
  intro scope store written output hsound
  obtain ⟨pieces, hpieces, hstore, hcopied⟩ := h scope store written output hsound
  have hstopped : ∀ after, sink.writeUntil pieces output = (false, after) →
      refused ((action >>= later).outcome ⟨scope, store, output⟩).1 ∧
        ((action >>= later).outcome ⟨scope, store, output⟩).2.output = after := by
    intro after hrefused
    obtain ⟨hmiddle, houtput⟩ := hcopied.refused after hrefused
    rw [outcome_bind]
    rcases haction : action.outcome ⟨scope, store, output⟩ with ⟨error | a, last⟩ <;>
      rw [haction] at hmiddle houtput
    · exact ⟨herror error hmiddle, houtput⟩
    · obtain ⟨hend, hsame⟩ := hok a hmiddle last
      exact ⟨hend, hsame.trans houtput⟩
  rcases hreference : reference.outcome ⟨scope, store, written⟩ with ⟨error | a, last⟩ <;>
    rw [hreference] at hpieces hstore hcopied
  · refine ⟨pieces, ?_, ?_, ?_, hstopped⟩
    · rw [outcome_bind, hreference]
      exact hpieces
    · rw [outcome_bind, hreference]
      exact hstore
    · intro after htaken
      rw [outcome_bind, outcome_bind, hreference, hcopied.taken after htaken]
  · rcases hwritten : sink.writeUntil pieces output with ⟨_ | _, after⟩
    all_goals
      obtain ⟨more, hmore, hlast, hcopy⟩ := hrest a last.scope last.store last.output after hstore
      refine ⟨pieces ++ more, ?_, ?_, ?_⟩
      · rw [outcome_bind, hreference, ← List.append_assoc, ← hpieces]
        exact hmore
      · rw [outcome_bind, hreference]
        exact hlast
    · constructor
      · intro other htaken
        rw [Sink.writeUntil_append_of_refused hwritten] at htaken
        cases htaken
      · intro other hrefused
        rw [Sink.writeUntil_append_of_refused hwritten] at hrefused
        exact hstopped other (hwritten.trans hrefused)
    · rw [outcome_bind, outcome_bind, hreference, hcopied.taken after hwritten]
      constructor
      · intro other htaken
        rw [Sink.writeUntil_append_of_taken hwritten] at htaken
        exact hcopy.taken other htaken
      · intro other hrefused
        rw [Sink.writeUntil_append_of_taken hwritten] at hrefused
        exact hcopy.refused other hrefused

theorem Follows.bind {reference : Render κ (List String) α} {action : Render κ σ α}
    {rest : α → Render κ (List String) β} {later : α → Render κ σ β}
    (h : Follows sink sound Failed reference action)
    (hrest : ∀ a, Follows sink sound Failed (rest a) (later a)) :
    Follows sink sound Failed (reference >>= rest) (action >>= later) := by
  apply h.bind_of hrest
  · rintro a ⟨⟩
  · rintro error ⟨⟩
    rfl

/-- Behind an attempt the result of a refused write is one to go on with. -/
theorem Follows.attempt {reference : Render κ (List String) α} {action : Render κ σ α}
    (h : Follows sink sound refused reference action) :
    Follows sink sound (fun result => ∃ answer, result = .ok answer ∧ refused answer)
      reference.attempt action.attempt := by
  intro scope store written output hsound
  obtain ⟨pieces, hpieces, hstore, hcopied⟩ := h scope store written output hsound
  simp only [outcome_attempt]
  refine ⟨pieces, hpieces, hstore, ?_, ?_⟩
  · intro after htaken
    rw [hcopied.taken after htaken]
  · intro after hrefused
    obtain ⟨hfailed, houtput⟩ := hcopied.refused after hrefused
    exact ⟨⟨_, rfl, hfailed⟩, houtput⟩

theorem follows_ask (f : Scope → α) :
    Follows sink sound refused
      (ask fun state => f state.scope : Render κ (List String) α)
      (ask fun state => f state.scope) :=
  follows_step fun scope store hsound =>
    ⟨f scope, scope, store, fun _ => rfl, fun _ => rfl, hsound, follows_pure _⟩

theorem follows_changeScope {refused : Except Error Unit → Prop} (f : Scope → Scope) :
    Follows sink sound refused (changeScope f : Render κ (List String) Unit) (changeScope f) :=
  follows_step fun scope store hsound =>
    ⟨(), f scope, store, fun _ => rfl, fun _ => rfl, hsound, follows_pure ()⟩

theorem follows_pop {refused : Except Error (Option Value) → Prop} :
    Follows sink sound refused (pop : Render κ (List String) (Option Value)) pop :=
  follows_step fun scope store hsound =>
    ⟨scope.pop.1, scope.pop.2, store, fun _ => rfl, fun _ => rfl, hsound, follows_pure _⟩

theorem follows_write (text : String) :
    Follows sink sound Failed (write .pieces text : Render κ (List String) Unit)
      (write sink text) := by
  intro scope store written output hsound
  refine ⟨[text], rfl, hsound, ?_, ?_⟩
  · intro after htaken
    rcases hwrite : sink.write text output with ⟨_ | _, last⟩
    · simp [Sink.writeUntil, hwrite] at htaken
    · simp only [Sink.writeUntil, hwrite, Prod.mk.injEq, true_and] at htaken
      simp [write, hwrite, Sink.pieces, htaken]
  · intro after hrefused
    rcases hwrite : sink.write text output with ⟨_ | _, last⟩
    · simp only [Sink.writeUntil, hwrite, Prod.mk.injEq, true_and] at hrefused
      simp [write, hwrite, Failed, hrefused]
    · simp [Sink.writeUntil, hwrite] at hrefused

theorem follows_writeAll (texts : List String) :
    Follows sink sound Failed (writeAll .pieces texts : Render κ (List String) Unit)
      (writeAll sink texts) := by
  induction texts with
  | nil => exact follows_pure ()
  | cons text later ih => exact (follows_write text).bind fun _ => ih

theorem Follows.andFinally {reference : Render κ (List String) α} {action : Render κ σ α}
    (h : Follows sink sound Failed reference action) (f : Scope → Scope) :
    Follows sink sound Failed (reference.andFinally f) (action.andFinally f) := by
  apply h.attempt.bind_of
  · exact fun result => (follows_changeScope f).bind fun _ => follows_done result
  · rintro result ⟨_, ⟨⟩, ⟨⟩⟩ state
    exact ⟨rfl, rfl⟩
  · rintro error ⟨_, ⟨⟩, -⟩

section Requests

variable {setting : Setting κ} {reference : Render κ (List String) Unit} {body : Render κ σ Unit}

theorem follows_push {refused : Except Error Unit → Prop} (value : Value)
    (position : Option Iteration) :
    Follows sink sound refused (push setting value position : Render κ (List String) Unit)
      (push setting value position) := by
  apply follows_step
  intro scope store hsound
  cases hpush : scope.push setting.config.scopeLimit value position with
  | error error =>
    refine ⟨.error error, scope, store, ?_, ?_, hsound, follows_done _⟩
    all_goals simp [hpush]
  | ok opened =>
    refine ⟨.ok (), opened, store, ?_, ?_, hsound, follows_done _⟩
    all_goals simp [hpush]

theorem Follows.under (h : Follows sink sound Failed reference body) (value : Value)
    (position : Option Iteration) :
    Follows sink sound Failed (under setting value position reference)
      (under setting value position body) :=
  (follows_push value position).bind fun _ => h.andFinally _

theorem Follows.elements (h : Follows sink sound Failed reference body) (size before : Nat)
    (values : List Value) :
    Follows sink sound Failed (elements setting reference size before values)
      (elements setting body size before values) := by
  induction values generalizing before with
  | nil => exact follows_pure ()
  | cons value later ih => exact (h.under _ _).bind fun _ => ih _

theorem follows_output (name : String) (escaped : Bool) :
    Follows sink sound Failed (output setting .pieces name escaped)
      (output setting sink name escaped) := by
  apply (follows_ask fun scope => setting.naming.resolve scope name).bind
  intro found
  split
  · exact follows_pure ()
  · exact follows_pure ()
  · split
    · exact follows_writeAll _
    · exact follows_write _

theorem Follows.plainBlock (h : Follows sink sound Failed reference body) (name : String) :
    Follows sink sound Failed (plainBlock setting name reference)
      (plainBlock setting name body) := by
  apply (follows_ask fun scope => setting.naming.resolve scope name).bind
  intro found
  split
  · exact follows_pure ()
  · split
    · exact h.elements _ _ _
    · split
      · exact h.under _ _
      · exact follows_pure ()

theorem Follows.invertedBlock (h : Follows sink sound Failed reference body) (name : String) :
    Follows sink sound Failed (invertedBlock setting name reference)
      (invertedBlock setting name body) := by
  apply (follows_ask fun scope => setting.naming.resolve scope name).bind
  intro found
  split
  · exact h
  · exact follows_pure ()

/-- A text takes everything, so the stores behind it are those of the reference. -/
theorem Follows.collect {reference : Render κ (List String) Unit} {body : Render κ String Unit}
    (h : Follows .text sound Failed reference body) :
    Follows sink sound Failed (collect body : Render κ (List String) String) (collect body) := by
  intro scope store written output hsound
  obtain ⟨pieces, -, hstore, hcopied⟩ := h scope store [] "" hsound
  have hbody := hcopied.taken _ (Sink.writeUntil_text pieces "")
  simp only [Render.collect, outcome_collectBehind, hbody]
  refine ⟨[], (List.append_nil written).symm, hstore, ?_, ?_⟩
  · rintro after ⟨⟩
    rfl
  · rintro after ⟨⟩

theorem follows_find_bind {allowed : Helper → Prop} (hprovides : setting.Provides allowed sound)
    (name : String) {rest : Option Template → Render κ (List String) Unit}
    {later : Option Template → Render κ σ Unit}
    (hnone : Follows sink sound Failed (rest none) (later none))
    (hsome : ∀ template, AllCallOnly allowed template.segments →
      Follows sink sound Failed (rest (some template)) (later (some template))) :
    Follows sink sound Failed (find setting name >>= rest) (find setting name >>= later) := by
  apply follows_step
  intro scope store hsound
  have hafter := hprovides.keeps name store hsound
  refine ⟨((setting.find name).outcome store).1, scope, ((setting.find name).outcome store).2,
    fun _ => rfl, fun _ => rfl, hafter, ?_⟩
  rcases hfound : ((setting.find name).outcome store).1 with error | _ | template
  · exact follows_done _
  · exact hnone
  · exact hsome template (hprovides.finds name store template hsound hfound)

def FollowsEverywhere (sound : κ → Prop) (render : Renderer κ) : Prop :=
  ∀ (τ : Type) (sink : Sink τ) (body : List Segment), AllCallOnly Helper.Heeds body →
    Follows sink sound Failed (render (List String) .pieces body) (render τ sink body)

theorem FollowsEverywhere.place {render : Renderer κ} (h : FollowsEverywhere sound render)
    (sink : Sink σ) (indent : String) {body : List Segment}
    (hcalls : AllCallOnly Helper.Heeds body) :
    Follows sink sound Failed (place .pieces render indent body)
      (place sink render indent body) := by
  unfold Render.place
  split
  · exact h σ sink body hcalls
  · exact (h String .text body hcalls).collect.bind fun text => follows_writeAll _

theorem follows_inclusion (hprovides : setting.Provides Helper.Heeds sound) (sink : Sink σ)
    {deeper : Option (Renderer κ)} (hdeeper : ∀ render ∈ deeper, FollowsEverywhere sound render)
    (name indent : String) :
    Follows sink sound Failed (inclusion setting .pieces deeper name indent)
      (inclusion setting sink deeper name indent) := by
  apply follows_find_bind hprovides name
  · exact follows_pure ()
  · intro template hcalls
    cases deeper with
    | none => exact follows_done _
    | some render =>
      have hplace := (hdeeper render rfl).place sink indent hcalls
      exact (follows_changeScope _).bind fun _ => hplace.andFinally _

def ScriptFailed {α : Type} (result : Except Error (Except Error α × Nat)) : Prop :=
  ∃ left, result = .ok (.error .write, left)

/-- A script that stops writes nothing more. -/
theorem runScript_of_stops {elseBody : Render κ σ Unit} {script : Script (Except Error α)}
    (h : script.Stops) (pushed : Nat) (state : Rendering κ σ) :
    ScriptFailed ((runScript setting sink body elseBody pushed script).outcome state).1 ∧
      ((runScript setting sink body elseBody pushed script).outcome state).2.output =
        state.output := by
  induction script generalizing pushed state with
  | done result =>
    obtain rfl : result = .error .write := h
    exact ⟨⟨pushed, rfl⟩, rfl⟩
  | push value position next => exact h.elim
  | pop next ih =>
    cases pushed with
    | zero => exact ih none (h none) 0 state
    | succ left => exact ih _ (h _) left _
  | renderBody next => exact h.elim
  | renderElse next => exact h.elim
  | append text next => exact h.elim
  | peek next ih => exact ih _ (h _) pushed state
  | resolve name next ih => exact ih _ (h _) pushed state
  | apply function argument next ih => exact ih _ (h _) pushed state

/-- A request of a script that may write: the script stops where it is refused, or else goes on. -/
theorem Follows.attempt_bind {reference : Render κ (List String) Unit} {action : Render κ σ Unit}
    (h : Follows sink sound Failed reference action)
    {rest : Except Error Unit → Render κ (List String) (Except Error α × Nat)}
    {later : Except Error Unit → Render κ σ (Except Error α × Nat)}
    (hstops : ∀ state, ScriptFailed ((later (.error .write)).outcome state).1 ∧
      ((later (.error .write)).outcome state).2.output = state.output)
    (hrest : ∀ answer, Follows sink sound ScriptFailed (rest answer) (later answer)) :
    Follows sink sound ScriptFailed (reference.attempt >>= rest) (action.attempt >>= later) := by
  apply h.attempt.bind_of hrest
  · rintro answer ⟨_, ⟨⟩, ⟨⟩⟩
    exact hstops
  · rintro error ⟨_, ⟨⟩, -⟩

/-- A request of a script that never writes. -/
theorem Follows.silent_bind {silent : Except Error α → Prop} {refused : Except Error β → Prop}
    {reference : Render κ (List String) α} {action : Render κ σ α}
    {rest : α → Render κ (List String) β} {later : α → Render κ σ β}
    (h : Follows sink sound silent reference action) (hsilent : ∀ result, ¬ silent result)
    (hrest : ∀ a, Follows sink sound refused (rest a) (later a)) :
    Follows sink sound refused (reference >>= rest) (action >>= later) :=
  h.bind_of hrest (fun _ ha => absurd ha (hsilent _)) fun _ herror => absurd herror (hsilent _)

theorem follows_runScript {referenceElse : Render κ (List String) Unit} {elseBody : Render κ σ Unit}
    (hbody : Follows sink sound Failed reference body)
    (helse : Follows sink sound Failed referenceElse elseBody)
    (script : Script (Except Error α)) (hscript : script.Heeds) (pushed : Nat) :
    Follows sink sound ScriptFailed
      (runScript setting .pieces reference referenceElse pushed script)
      (runScript setting sink body elseBody pushed script) := by
  induction script generalizing pushed with
  | done result => exact follows_pure _
  | push value position next ih =>
    rw [runScript, runScript]
    apply (follows_push value position).attempt.silent_bind
    · rintro result ⟨answer, -, hfalse⟩
      exact hfalse
    · intro answer
      cases answer with
      | ok _ => exact ih (.ok ()) (hscript _) (pushed + 1)
      | error error => exact ih (.error error) (hscript _) pushed
  | pop next ih =>
    cases pushed with
    | zero => exact ih none (hscript none) 0
    | succ left =>
      exact follows_pop.silent_bind (fun _ => id) fun answer => ih answer (hscript answer) left
  | renderBody next ih =>
    apply hbody.attempt_bind
    · exact runScript_of_stops hscript.1 pushed
    · exact fun answer => ih answer (hscript.2 answer) pushed
  | renderElse next ih =>
    apply helse.attempt_bind
    · exact runScript_of_stops hscript.1 pushed
    · exact fun answer => ih answer (hscript.2 answer) pushed
  | append text next ih =>
    apply (follows_write text).attempt_bind
    · exact runScript_of_stops hscript.1 pushed
    · exact fun answer => ih answer (hscript.2 answer) pushed
  | peek next ih =>
    exact (follows_ask Scope.peek).silent_bind (fun _ => id)
      fun answer => ih answer (hscript answer) pushed
  | resolve name next ih =>
    exact (follows_ask fun scope => setting.naming.resolve scope name).silent_bind (fun _ => id)
      fun answer => ih answer (hscript answer) pushed
  | apply function argument next ih => exact ih _ (hscript _) pushed

theorem follows_invocation {helper : Helper} (hheeds : helper.Heeds) (tag : HelperTag)
    (hasElse : Bool) {referenceElse : Render κ (List String) Unit} {elseBody : Render κ σ Unit}
    (hbody : Follows sink sound Failed reference body)
    (helse : Follows sink sound Failed referenceElse elseBody) :
    Follows sink sound Failed
      (invocation setting .pieces helper tag hasElse reference referenceElse)
      (invocation setting sink helper tag hasElse body elseBody) := by
  apply (follows_ask fun scope => callOf setting scope tag hasElse).bind
  intro call
  apply (follows_runScript hbody helse (helper.execute call).run (hheeds call) 0).bind_of
  · intro answer
    exact (follows_changeScope _).bind fun _ => follows_done _
  · rintro answer ⟨left, ⟨⟩⟩ state
    exact ⟨rfl, rfl⟩
  · rintro error ⟨left, ⟨⟩⟩

end Requests

end Rules

section Trees

variable {sound : κ → Prop} {setting : Setting κ}

mutual

theorem follows_segment (hprovides : setting.Provides Helper.Heeds sound)
    {deeper : Option (Renderer κ)} (hdeeper : ∀ render ∈ deeper, FollowsEverywhere sound render)
    (sink : Sink σ) : ∀ part : Segment, CallsOnly Helper.Heeds part →
      Follows sink sound Failed (segment setting deeper .pieces part)
        (segment setting deeper sink part)
  | .text text, _ => follows_write text
  | .output name escaped _, _ => follows_output name escaped
  | .block name false body _, hcalls =>
    (follows_segments hprovides hdeeper sink body hcalls).plainBlock name
  | .block name true body _, hcalls =>
    (follows_segments hprovides hdeeper sink body hcalls).invertedBlock name
  | .inclusion name indent _, _ => follows_inclusion hprovides sink hdeeper name indent
  | .invocation _ tag body none, hcalls =>
    follows_invocation hcalls.1 tag false (follows_segments hprovides hdeeper sink body hcalls.2)
      (follows_pure ())
  | .invocation _ tag body (some elseBody), hcalls =>
    follows_invocation hcalls.1 tag true
      (follows_segments hprovides hdeeper sink body hcalls.2.1)
      (follows_segments hprovides hdeeper sink elseBody hcalls.2.2)
  | .comment, _ => follows_pure ()

theorem follows_segments (hprovides : setting.Provides Helper.Heeds sound)
    {deeper : Option (Renderer κ)} (hdeeper : ∀ render ∈ deeper, FollowsEverywhere sound render)
    (sink : Sink σ) : ∀ parts : List Segment, AllCallOnly Helper.Heeds parts →
      Follows sink sound Failed (segments setting deeper .pieces parts)
        (segments setting deeper sink parts)
  | [], _ => follows_pure ()
  | first :: later, hcalls =>
    (follows_segment hprovides hdeeper sink first hcalls.1).bind fun _ =>
      follows_segments hprovides hdeeper sink later hcalls.2

end

theorem follows_nested (hprovides : setting.Provides Helper.Heeds sound) (depth : Nat) :
    FollowsEverywhere sound (nested setting depth) := by
  induction depth with
  | zero =>
    intro τ sink body hcalls
    exact follows_segments hprovides (by simp) sink body hcalls
  | succ depth ih =>
    intro τ sink body hcalls
    apply follows_segments hprovides _ sink body hcalls
    rintro render ⟨⟩
    exact ih

theorem follows_all (hprovides : setting.Provides Helper.Heeds sound) (sink : Sink σ)
    {body : List Segment} (hcalls : AllCallOnly Helper.Heeds body) :
    Follows sink sound Failed (all setting .pieces body) (all setting sink body) :=
  (follows_ask fun scope => setting.config.inclusionLimit - scope.inclusions.length).bind
    fun depth => follows_nested hprovides depth σ sink body hcalls

end Trees

end Render

end Stencil
