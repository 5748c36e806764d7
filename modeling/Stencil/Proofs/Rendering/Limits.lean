import Stencil.Proofs.Helper.Trusted
import Stencil.Proofs.Scope
import Stencil.Proofs.Tree.Calls

/-! Renderings stay within their limits, and an error for a limit is one of a step that was refused
for it. -/

namespace Stencil

open Segment (CallsOnly AllCallOnly)

structure WithinLimits {κ : Type} (setting : Setting κ) (scope : Scope) : Prop where
  frames : scope.frames.length ≤ setting.config.scopeLimit
  inclusions : scope.inclusions.length ≤ setting.config.inclusionLimit

/-- In sound stores, looking for a template finds one that calls only trusted helpers, fails with no
error for a limit, and keeps the store sound. -/
structure Setting.Supplies {κ : Type} (setting : Setting κ) (sound : κ → Prop) : Prop
    extends setting.Provides Helper.Trusted sound where
  fails : ∀ name store error, sound store →
    ((setting.find name).outcome store).1 = .error error → error.isLimit = false

namespace Render

variable {κ σ α β : Type}

/-- A rendering that stays within the limits if it starts so with `active` inclusions, with as many
at its end and a result that is as `ends` says. -/
def Limited (setting : Setting κ) (sound : κ → Prop) (known : Error → Prop) (active : Nat)
    (ends : Except Error α → Prop) (action : Render κ σ α) : Prop :=
  ∀ state, WithinLimits setting state.scope → sound state.store →
    state.scope.inclusions.length = active →
    action.Guided setting known
      (fun moment => WithinLimits setting moment.scope ∧ sound moment.store)
      (fun result last => last.scope.inclusions.length = active ∧ ends result) state

section Rules

variable {setting : Setting κ} {sound : κ → Prop} {known : Error → Prop} {active : Nat}

theorem limited_done {ends : Except Error α → Prop} {result : Except Error α} (h : ends result) :
    Limited setting sound known active ends (done result : Render κ σ α) :=
  fun _ hwithin hsound hactive => ⟨⟨hwithin, hsound⟩, hactive, h⟩

theorem limited_pure (a : α) :
    Limited setting sound known active (Passed known) (pure a : Render κ σ α) :=
  limited_done (passed_ok known a)

theorem Limited.bind_of {middle : Except Error α → Prop} {ends : Except Error β → Prop}
    {action : Render κ σ α} {rest : α → Render κ σ β}
    (h : Limited setting sound known active middle action)
    (hok : ∀ a, middle (.ok a) → Limited setting sound known active ends (rest a))
    (herror : ∀ error, middle (.error error) → ends (.error error)) :
    Limited setting sound known active ends (action >>= rest) := by
  intro state hwithin hsound hactive
  refine Guided.bind ((h state hwithin hsound hactive).mono ?_)
  rintro result last ⟨hlast, hstore⟩ ⟨hcount, hmiddle⟩
  cases result with
  | ok a => exact hok a hmiddle last hlast hstore hcount
  | error error => exact ⟨hcount, herror error hmiddle⟩

theorem Limited.bind {action : Render κ σ α} {rest : α → Render κ σ β}
    (h : Limited setting sound known active (Passed known) action)
    (hrest : ∀ a, Limited setting sound known active (Passed known) (rest a)) :
    Limited setting sound known active (Passed known) (action >>= rest) :=
  h.bind_of (fun a _ => hrest a) fun _ hpassed other hother =>
    hpassed other (congrArg Except.error (Except.error.inj hother))

/-- What follows an attempt knows the error, if it is one for a limit. -/
theorem Limited.attempt_bind {ends : Except Error β → Prop} {action : Render κ σ α}
    {rest : Except Error α → Render κ σ β}
    (h : Limited setting sound known active (Passed known) action)
    (hrest : ∀ result, Passed known result →
      Limited setting sound known active ends (rest result)) :
    Limited setting sound known active ends (action.attempt >>= rest) := by
  intro state hwithin hsound hactive
  refine Guided.bind (Guided.attempt ((h state hwithin hsound hactive).mono ?_))
  rintro result last ⟨hlast, hstore⟩ ⟨hcount, hpassed⟩
  exact hrest result hpassed last hlast hstore hcount

/-- A step may close scopes and change the output. -/
theorem limited_step {ends : Except Error α → Prop} {act : Rendering κ σ → β × Rendering κ σ}
    {next : β → Render κ σ α}
    (hact : ∀ state, (act state).2.scope.frames.length ≤ state.scope.frames.length ∧
      (act state).2.scope.inclusions = state.scope.inclusions ∧ (act state).2.store = state.store)
    (hnext : ∀ b, Limited setting sound known active ends (next b)) :
    Limited setting sound known active ends (step act next) := by
  intro state hwithin hsound hactive
  obtain ⟨hframes, hinclusions, hstore⟩ := hact state
  refine ⟨⟨hwithin, hsound⟩, fun _ => hnext _ _ ⟨?_, ?_⟩ ?_ ?_⟩
  · exact hframes.trans hwithin.frames
  · exact hinclusions ▸ hwithin.inclusions
  · exact hstore ▸ hsound
  · exact hinclusions ▸ hactive

theorem limited_ask (f : Rendering κ σ → α) :
    Limited setting sound known active (Passed known) (ask f : Render κ σ α) :=
  limited_step (fun _ => ⟨Nat.le_refl _, rfl, rfl⟩) limited_pure

theorem limited_write (sink : Sink σ) (text : String) :
    Limited setting sound known active (Passed known) (write sink text : Render κ σ Unit) := by
  refine limited_step (fun _ => ⟨Nat.le_refl _, rfl, rfl⟩) fun taken => limited_done ?_
  split
  · exact passed_ok known ()
  · exact passed_error rfl

theorem limited_writeAll (sink : Sink σ) (texts : List String) :
    Limited setting sound known active (Passed known) (writeAll sink texts : Render κ σ Unit) := by
  induction texts with
  | nil => exact limited_pure ()
  | cons text later ih => exact (limited_write sink text).bind fun _ => ih

/-- A scope is opened, or refused because exactly as many as may be are open. -/
theorem limited_push (value : Value) (position : Option Iteration) :
    Limited setting sound known active (Passed known)
      (push setting value position : Render κ σ Unit) := by
  intro state hwithin hsound hactive
  rw [push_eq]
  refine ⟨⟨hwithin, hsound⟩, fun hrefused => ?_⟩
  by_cases hfull : state.scope.frames.length ≥ setting.config.scopeLimit
  -- The check is for at least the limit, and the invariant makes it exactly the limit.
  · have hexact : state.scope.frames.length = setting.config.scopeLimit :=
      Nat.le_antisymm hwithin.frames hfull
    have hknown := hrefused _ (.scope value position hexact)
    have hstep : pushStep setting value position state =
        (.error (.recursionLimit state.scope.currentTemplate setting.config.scopeLimit),
          state) := by
      simp [pushStep, Scope.push, Scope.depth, hfull]
    rw [hstep]
    refine ⟨⟨hwithin, hsound⟩, hactive, ?_⟩
    rintro _ ⟨⟩ _
    exact hknown
  · have hstep : pushStep setting value position state =
        (.ok (), { state with
          scope := { state.scope with frames := ⟨value, position⟩ :: state.scope.frames } }) := by
      simp [pushStep, Scope.push, Scope.depth, hfull]
    rw [hstep]
    refine ⟨⟨⟨?_, hwithin.inclusions⟩, hsound⟩, hactive, passed_ok known ()⟩
    simp only [List.length_cons]
    omega

theorem Limited.under {body : Render κ σ Unit}
    (h : Limited setting sound known active (Passed known) body) (value : Value)
    (position : Option Iteration) :
    Limited setting sound known active (Passed known) (under setting value position body) := by
  refine (limited_push value position).bind fun _ => h.attempt_bind fun result hpassed => ?_
  exact limited_step (fun state => ⟨state.scope.frames_pop_le, state.scope.inclusions_pop, rfl⟩)
    fun _ => limited_done hpassed

theorem Limited.elements {body : Render κ σ Unit}
    (h : Limited setting sound known active (Passed known) body) (size before : Nat)
    (values : List Value) :
    Limited setting sound known active (Passed known)
      (elements setting body size before values) := by
  induction values generalizing before with
  | nil => exact limited_pure ()
  | cons value later ih => exact (h.under _ _).bind fun _ => ih _

theorem limited_output (sink : Sink σ) (name : String) (escaped : Bool) :
    Limited setting sound known active (Passed known) (output setting sink name escaped) := by
  refine (limited_ask _).bind fun found => ?_
  split
  · exact limited_pure ()
  · exact limited_pure ()
  · split
    · exact limited_writeAll sink _
    · exact limited_write sink _

theorem Limited.plainBlock {body : Render κ σ Unit}
    (h : Limited setting sound known active (Passed known) body) (name : String) :
    Limited setting sound known active (Passed known) (plainBlock setting name body) := by
  refine (limited_ask _).bind fun found => ?_
  split
  · exact limited_pure ()
  · split
    · exact h.elements _ _ _
    · split
      · exact h.under _ _
      · exact limited_pure ()

theorem Limited.invertedBlock {body : Render κ σ Unit}
    (h : Limited setting sound known active (Passed known) body) (name : String) :
    Limited setting sound known active (Passed known) (invertedBlock setting name body) := by
  refine (limited_ask _).bind fun found => ?_
  split
  · exact h
  · exact limited_pure ()

theorem Limited.collect {body : Render κ String Unit}
    (h : Limited setting sound known active (Passed known) body) :
    Limited setting sound known active (Passed known) (collect body : Render κ σ String) := by
  intro state hwithin hsound hactive
  have hinner := h ⟨state.scope, state.store, ""⟩ hwithin hsound hactive
  refine (guided_collectBehind (fun scope store => WithinLimits setting scope ∧ sound store)
    (fun result scope _ => scope.inclusions.length = active ∧ Passed known result) hinner).mono ?_
  rintro result last - ⟨hcount, hpassed⟩
  refine ⟨hcount, ?_⟩
  rintro error rfl
  exact hpassed error rfl

/-- A template that is found may be entered, or else its error is known. -/
theorem limited_find_bind (hsupplies : setting.Supplies sound) (name : String)
    {rest : Option Template → Render κ σ Unit}
    (hnone : Limited setting sound known active (Passed known) (rest none))
    (hsome : ∀ template, AllCallOnly Helper.Trusted template.segments →
      (active = setting.config.inclusionLimit →
        known (.recursionLimit name setting.config.inclusionLimit)) →
      Limited setting sound known active (Passed known) (rest (some template))) :
    Limited setting sound known active (Passed known) (find setting name >>= rest) := by
  rw [find_eq]
  intro state hwithin hsound hactive
  have hstore := hsupplies.keeps name state.store hsound
  let after := (findStep setting name state).2
  have hanswer :
      (findStep setting name state).1 = ((setting.find name).outcome state.store).1 := rfl
  refine ⟨⟨hwithin, hsound⟩, fun hrefused => ?_⟩
  rw [hanswer]
  cases hfound : ((setting.find name).outcome state.store).1 with
  | error error =>
    have hlimit := hsupplies.fails name state.store error hsound hfound
    have hfailed : Limited setting sound known active (Passed known)
        (done (.error error) : Render κ σ Unit) := limited_done (passed_error hlimit)
    exact hfailed after hwithin hstore hactive
  | ok found =>
    cases found with
    | none => exact hnone after hwithin hstore hactive
    | some template =>
      have hcalls := hsupplies.finds name state.store template hsound hfound
      refine hsome template hcalls ?_ after hwithin hstore hactive
      rintro rfl
      exact hrefused _ (.inclusion hfound hactive)

/-- Between entering and leaving an inclusion one more of them is active. -/
theorem Limited.inside {action : Render κ σ Unit}
    (h : Limited setting sound known (active + 1) (Passed known) action)
    (hopen : active < setting.config.inclusionLimit) (name : String) :
    Limited setting sound known active (Passed known)
      (changeScope (.enter name) >>= fun _ => action.andFinally .leave) := by
  intro state hwithin hsound hactive
  have hentered : (state.scope.enter name).inclusions.length = active + 1 := by
    simp [Scope.enter, hactive]
  have hroom : WithinLimits setting (state.scope.enter name) := ⟨hwithin.frames, by omega⟩
  have hinner := h { state with scope := state.scope.enter name } hroom hsound hentered
  have hbody : (action.andFinally .leave).Guided setting known
      (fun moment => WithinLimits setting moment.scope ∧ sound moment.store)
      (fun result last => last.scope.inclusions.length = active ∧ Passed known result)
      { state with scope := state.scope.enter name } := by
    unfold Render.andFinally
    refine Guided.bind (Guided.attempt (hinner.mono ?_))
    rintro result last ⟨hlast, hstore⟩ ⟨hcount, hpassed⟩
    have hleft : last.scope.leave.inclusions.length = active := by
      simp [Scope.leave, hcount]
    have hwithinLeft : WithinLimits setting last.scope.leave := ⟨hlast.frames, by omega⟩
    exact ⟨⟨hlast, hstore⟩, fun _ => ⟨⟨hwithinLeft, hstore⟩, hleft, hpassed⟩⟩
  exact ⟨⟨hwithin, hsound⟩, fun _ => hbody⟩

theorem limited_inclusion (hsupplies : setting.Supplies sound) (sink : Sink σ)
    {deeper : Option (Renderer κ)}
    (hfull : deeper = none → active = setting.config.inclusionLimit)
    (hdeeper : ∀ render ∈ deeper, active < setting.config.inclusionLimit ∧
      ∀ (τ : Type) (sink : Sink τ) (body : List Segment), AllCallOnly Helper.Trusted body →
        Limited setting sound known (active + 1) (Passed known) (render τ sink body))
    (name indent : String) :
    Limited setting sound known active (Passed known)
      (inclusion setting sink deeper name indent) := by
  refine limited_find_bind hsupplies name (limited_pure ()) ?_
  intro template hcalls hknown
  cases deeper with
  | none =>
    refine limited_done ?_
    rintro _ ⟨⟩ _
    exact hknown (hfull rfl)
  | some render =>
    obtain ⟨hopen, hrender⟩ := hdeeper render rfl
    refine Limited.inside ?_ hopen name
    split
    · exact hrender σ sink _ hcalls
    · exact (hrender String .text _ hcalls).collect.bind fun _ => limited_writeAll sink _

/-- The errors for limits that a script ends with are known, if those it passes on are. -/
theorem limited_runScript (sink : Sink σ) {body elseBody : Render κ σ Unit}
    (hbody : Limited setting sound known active (Passed known) body)
    (helse : Limited setting sound known active (Passed known) elseBody)
    (script : Script (Except Error α)) (pushed : Nat) {answered : Error → Prop}
    (hscript : script.PassesOn answered)
    (hanswered : ∀ error, answered error → error.isLimit = true → known error) :
    Limited setting sound known active
      (fun result => ∃ answer left, result = .ok (answer, left) ∧ Passed known answer)
      (runScript setting sink body elseBody pushed script) := by
  have hnext : ∀ {answered : Error → Prop} {answer : Except Error Unit},
      (∀ error, answered error → error.isLimit = true → known error) → Passed known answer →
      ∀ error, (answered error ∨ answer = .error error) → error.isLimit = true → known error := by
    rintro answered answer hanswered hpassed error (hbefore | hnew) hlimit
    · exact hanswered error hbefore hlimit
    · exact hpassed error hnew hlimit
  induction script generalizing pushed answered with
  | done result =>
    refine limited_done ⟨result, pushed, rfl, ?_⟩
    exact fun error herror hlimit => hanswered error (hscript error herror hlimit) hlimit
  | push value position next ih =>
    rw [runScript]
    refine (limited_push value position).attempt_bind fun answer hpassed => ?_
    cases answer with
    | ok _ => exact ih _ _ (hscript _) (hnext hanswered hpassed)
    | error error => exact ih _ _ (hscript _) (hnext hanswered hpassed)
  | pop next ih =>
    cases pushed with
    | zero => exact ih none 0 (hscript none) hanswered
    | succ left =>
      refine limited_step (fun state => ?_) fun answer => ih answer left (hscript answer) hanswered
      exact ⟨state.scope.frames_pop_le, state.scope.inclusions_pop, rfl⟩
  | renderBody next ih =>
    rw [runScript]
    refine hbody.attempt_bind fun answer hpassed => ?_
    exact ih _ _ (hscript _) (hnext hanswered hpassed)
  | renderElse next ih =>
    rw [runScript]
    refine helse.attempt_bind fun answer hpassed => ?_
    exact ih _ _ (hscript _) (hnext hanswered hpassed)
  | append text next ih =>
    rw [runScript]
    refine (limited_write sink text).attempt_bind fun answer hpassed => ?_
    exact ih _ _ (hscript _) (hnext hanswered hpassed)
  | peek next ih =>
    refine limited_step (fun _ => ⟨Nat.le_refl _, rfl, rfl⟩) fun answer => ?_
    exact ih answer pushed (hscript answer) hanswered
  | resolve name next ih =>
    refine limited_step (fun _ => ⟨Nat.le_refl _, rfl, rfl⟩) fun answer => ?_
    exact ih answer pushed (hscript answer) hanswered
  | apply function argument next ih => exact ih _ pushed (hscript _) hanswered

theorem limited_invocation (sink : Sink σ) {helper : Helper} (htrusted : helper.Trusted)
    (tag : HelperTag) (hasElse : Bool) {body elseBody : Render κ σ Unit}
    (hbody : Limited setting sound known active (Passed known) body)
    (helse : Limited setting sound known active (Passed known) elseBody) :
    Limited setting sound known active (Passed known)
      (invocation setting sink helper tag hasElse body elseBody) := by
  refine (limited_ask _).bind fun call => ?_
  have hscript := limited_runScript sink hbody helse (helper.execute call).run 0
    (htrusted.calls call fun _ => False) (by simp)
  refine hscript.bind_of ?_ ?_
  · rintro _ ⟨answer, left, ⟨⟩, hpassed⟩
    refine limited_step (fun state => ⟨?_, rfl, rfl⟩) fun _ => limited_done hpassed
    simp [Scope.drop]
  · rintro error ⟨answer, left, ⟨⟩, -⟩

end Rules

section Trees

variable {setting : Setting κ} {sound : κ → Prop} {known : Error → Prop} {active : Nat}

mutual

theorem limited_segment (hsupplies : setting.Supplies sound) {deeper : Option (Renderer κ)}
    (hfull : deeper = none → active = setting.config.inclusionLimit)
    (hdeeper : ∀ render ∈ deeper, active < setting.config.inclusionLimit ∧
      ∀ (τ : Type) (sink : Sink τ) (body : List Segment), AllCallOnly Helper.Trusted body →
        Limited setting sound known (active + 1) (Passed known) (render τ sink body))
    (sink : Sink σ) : ∀ part : Segment, CallsOnly Helper.Trusted part →
      Limited setting sound known active (Passed known) (segment setting deeper sink part)
  | .text text, _ => limited_write sink text
  | .output name escaped _, _ => limited_output sink name escaped
  | .block name false body _, hcalls =>
    (limited_segments hsupplies hfull hdeeper sink body hcalls).plainBlock name
  | .block name true body _, hcalls =>
    (limited_segments hsupplies hfull hdeeper sink body hcalls).invertedBlock name
  | .inclusion name indent _, _ => limited_inclusion hsupplies sink hfull hdeeper name indent
  | .invocation _ tag body none, hcalls =>
    limited_invocation sink hcalls.1 tag false
      (limited_segments hsupplies hfull hdeeper sink body hcalls.2) (limited_pure ())
  | .invocation _ tag body (some elseBody), hcalls =>
    limited_invocation sink hcalls.1 tag true
      (limited_segments hsupplies hfull hdeeper sink body hcalls.2.1)
      (limited_segments hsupplies hfull hdeeper sink elseBody hcalls.2.2)
  | .comment, _ => limited_pure ()

theorem limited_segments (hsupplies : setting.Supplies sound) {deeper : Option (Renderer κ)}
    (hfull : deeper = none → active = setting.config.inclusionLimit)
    (hdeeper : ∀ render ∈ deeper, active < setting.config.inclusionLimit ∧
      ∀ (τ : Type) (sink : Sink τ) (body : List Segment), AllCallOnly Helper.Trusted body →
        Limited setting sound known (active + 1) (Passed known) (render τ sink body))
    (sink : Sink σ) : ∀ parts : List Segment, AllCallOnly Helper.Trusted parts →
      Limited setting sound known active (Passed known) (segments setting deeper sink parts)
  | [], _ => limited_pure ()
  | first :: later, hcalls =>
    (limited_segment hsupplies hfull hdeeper sink first hcalls.1).bind fun _ =>
      limited_segments hsupplies hfull hdeeper sink later hcalls.2

end

/-- The levels that may still be entered and those that are active make up the limit. -/
theorem limited_nested (hsupplies : setting.Supplies sound) (depth : Nat) :
    ∀ active, active + depth = setting.config.inclusionLimit →
      ∀ (τ : Type) (sink : Sink τ) (body : List Segment), AllCallOnly Helper.Trusted body →
        Limited setting sound known active (Passed known) (nested setting depth τ sink body) := by
  induction depth with
  | zero =>
    intro active hlimit τ sink body hcalls
    exact limited_segments hsupplies (fun _ => hlimit) (by simp) sink body hcalls
  | succ depth ih =>
    intro active hlimit τ sink body hcalls
    refine limited_segments hsupplies (by simp) ?_ sink body hcalls
    rintro render ⟨⟩
    exact ⟨by omega, ih (active + 1) (by omega)⟩

theorem limited_all (hsupplies : setting.Supplies sound) (known : Error → Prop) (sink : Sink σ)
    {body : List Segment} (hcalls : AllCallOnly Helper.Trusted body) :
    Limited setting sound known active (Passed known) (all setting sink body) := by
  intro state hwithin hsound hactive
  have hlimit : active + (setting.config.inclusionLimit - state.scope.inclusions.length) =
      setting.config.inclusionLimit := by
    have hbound := hwithin.inclusions
    omega
  refine ⟨⟨hwithin, hsound⟩, fun _ => ?_⟩
  exact limited_nested hsupplies _ active hlimit σ sink body hcalls state hwithin hsound hactive

end Trees

end Render

end Stencil
