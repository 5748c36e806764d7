import Stencil.Proofs.Rendering.Moments

/-! What a rendering opens it closes again. At its end, with a result or an error, the scopes and
the inclusions are those it started with, and at no moment in between is one of them missing. -/

namespace Stencil

/-- The scopes and inclusions of `outer`, with more of them inside. -/
structure Scope.Extends (inner outer : Scope) : Prop where
  template : inner.template = outer.template
  frames : outer.frames <:+ inner.frames
  inclusions : outer.inclusions <:+ inner.inclusions

def Scope.above (outer : Scope) (own : List Frame) : Scope :=
  { outer with frames := own ++ outer.frames }

namespace Scope

theorem Extends.refl (scope : Scope) : scope.Extends scope :=
  ⟨rfl, List.suffix_refl _, List.suffix_refl _⟩

theorem Extends.trans {inner middle outer : Scope} (h : inner.Extends middle)
    (k : middle.Extends outer) : inner.Extends outer :=
  ⟨h.template.trans k.template, k.frames.trans h.frames, k.inclusions.trans h.inclusions⟩

theorem above_extends (outer : Scope) (own : List Frame) : (outer.above own).Extends outer :=
  ⟨rfl, List.suffix_append _ _, List.suffix_refl _⟩

theorem enter_extends (outer : Scope) (name : String) : (outer.enter name).Extends outer :=
  ⟨rfl, List.suffix_refl _, List.suffix_cons _ _⟩

theorem drop_above (outer : Scope) (own : List Frame) :
    (outer.above own).drop own.length = outer := by
  simp [drop, above]

theorem pop_above_cons (outer : Scope) (frame : Frame) (own : List Frame) :
    (outer.above (frame :: own)).pop = (some frame.value, outer.above own) := rfl

theorem push_above_eq_ok {outer opened : Scope} {own : List Frame} {limit : Nat} {value : Value}
    {position : Option Iteration} (h : (outer.above own).push limit value position = .ok opened) :
    opened = outer.above (⟨value, position⟩ :: own) := by
  unfold push at h
  split at h
  · contradiction
  · exact (Except.ok.inj h).symm

end Scope

namespace Render

variable {κ σ α β : Type}

/-- A rendering that ends in the scopes it starts in, and never closes one of them in between. -/
def Disciplined (action : Render κ σ α) : Prop :=
  ∀ state, action.Along (fun moment => moment.scope.Extends state.scope)
    (fun _ last => last.scope = state.scope) state

def DisciplinedRenderer (render : Renderer κ) : Prop :=
  ∀ (τ : Type) (sink : Sink τ) (body : List Segment), (render τ sink body).Disciplined

/-- The scopes that a disciplined rendering starts in may themselves stand inside of others. -/
theorem Disciplined.inside {action : Render κ σ α} (h : action.Disciplined)
    {state : Rendering κ σ} {outer : Scope} (hstate : state.scope.Extends outer) :
    action.Along (fun moment => moment.scope.Extends outer)
      (fun _ last => last.scope = state.scope) state :=
  (h state).mono (fun _ hmoment => hmoment.trans hstate) fun _ _ _ hlast => hlast

theorem disciplined_done (result : Except Error α) : (done result : Render κ σ α).Disciplined :=
  fun _ => ⟨Scope.Extends.refl _, rfl⟩

theorem disciplined_pure (a : α) : (pure a : Render κ σ α).Disciplined := disciplined_done _

/-- A step may change the store and the output. -/
theorem disciplined_step {act : Rendering κ σ → β × Rendering κ σ} {next : β → Render κ σ α}
    (hact : ∀ state, (act state).2.scope = state.scope) (hnext : ∀ b, (next b).Disciplined) :
    (step act next).Disciplined := by
  intro state
  have hlater := hnext (act state).1 (act state).2
  rw [hact] at hlater
  exact ⟨Scope.Extends.refl _, hlater⟩

theorem Disciplined.bind {action : Render κ σ α} {rest : α → Render κ σ β}
    (h : action.Disciplined) (hrest : ∀ a, (rest a).Disciplined) :
    (action >>= rest).Disciplined := by
  intro state
  refine Along.bind ((h state).mono (fun _ hmoment => hmoment) ?_)
  intro result last _ hlast
  cases result with
  | ok a =>
    have hlater := hrest a last
    rw [hlast] at hlater
    exact hlater
  | error error => exact hlast

theorem disciplined_ask (f : Rendering κ σ → α) : (ask f : Render κ σ α).Disciplined :=
  disciplined_step (fun _ => rfl) disciplined_pure

theorem disciplined_write (sink : Sink σ) (text : String) :
    (write sink text : Render κ σ Unit).Disciplined :=
  disciplined_step (fun _ => rfl) fun _ => disciplined_done _

theorem disciplined_writeAll (sink : Sink σ) (texts : List String) :
    (writeAll sink texts : Render κ σ Unit).Disciplined := by
  induction texts with
  | nil => exact disciplined_pure ()
  | cons text later ih => exact (disciplined_write sink text).bind fun _ => ih

theorem disciplined_find (setting : Setting κ) (name : String) :
    (find setting name : Render κ σ (Option Template)).Disciplined :=
  disciplined_step (fun _ => rfl) disciplined_done

/-- Scopes opened before a rendering are closed behind it, whatever its result is. -/
theorem Disciplined.closing {action : Render κ σ α} (h : action.Disciplined) {f : Scope → Scope}
    {state : Rendering κ σ} {outer : Scope} (hopened : state.scope.Extends outer)
    (hclosed : f state.scope = outer) :
    (action.andFinally f).Along (fun moment => moment.scope.Extends outer)
      (fun _ last => last.scope = outer) state := by
  refine Along.andFinally ((h.inside hopened).mono (fun _ hmoment => hmoment) ?_)
  intro result last _ hlast
  rw [hlast, hclosed]
  exact ⟨Scope.Extends.refl _, rfl⟩

/-- Opening a scope leaves one more open, or fails and leaves all as it was. -/
theorem push_along (setting : Setting κ) (value : Value) (position : Option Iteration)
    (outer : Scope) (own : List Frame) {state : Rendering κ σ}
    (hstate : state.scope = outer.above own) :
    (push setting value position : Render κ σ Unit).Along
      (fun moment => moment.scope.Extends outer)
      (fun result last => match result with
        | .ok () => last.scope = outer.above (⟨value, position⟩ :: own)
        | .error _ => last.scope = outer.above own) state := by
  have hextends : state.scope.Extends outer := hstate ▸ Scope.above_extends outer own
  refine ⟨hextends, ?_⟩
  simp only [hstate]
  split
  · exact ⟨hextends, hstate⟩
  · rename_i opened hopened
    have hscope := Scope.push_above_eq_ok hopened
    have hinside : opened.Extends outer := hscope ▸ Scope.above_extends outer _
    exact ⟨hinside, hscope⟩

theorem Disciplined.under {body : Render κ σ Unit} (h : body.Disciplined) (setting : Setting κ)
    (value : Value) (position : Option Iteration) :
    (under setting value position body).Disciplined := by
  intro state
  refine Along.bind ((push_along setting value position state.scope [] rfl).mono
    (fun _ hmoment => hmoment) ?_)
  intro result last _ hlast
  cases result with
  | ok _ =>
    have hopened : last.scope = state.scope.above [⟨value, position⟩] := hlast
    refine h.closing (hopened ▸ Scope.above_extends _ _) ?_
    rw [hopened]
    rfl
  | error error => exact hlast

theorem Disciplined.elements {body : Render κ σ Unit} (h : body.Disciplined)
    (setting : Setting κ) (size before : Nat) (values : List Value) :
    (elements setting body size before values).Disciplined := by
  induction values generalizing before with
  | nil => exact disciplined_pure ()
  | cons value later ih => exact (h.under setting _ _).bind fun _ => ih _

theorem disciplined_output (setting : Setting κ) (sink : Sink σ) (name : String)
    (escaped : Bool) : (output setting sink name escaped).Disciplined := by
  refine (disciplined_ask _).bind ?_
  intro found
  split
  · exact disciplined_pure ()
  · exact disciplined_pure ()
  · split
    · exact disciplined_writeAll sink _
    · exact disciplined_write sink _

theorem Disciplined.plainBlock {body : Render κ σ Unit} (h : body.Disciplined)
    (setting : Setting κ) (name : String) : (plainBlock setting name body).Disciplined := by
  refine (disciplined_ask _).bind ?_
  intro found
  split
  · exact disciplined_pure ()
  · split
    · exact h.elements setting _ _ _
    · split
      · exact h.under setting _ _
      · exact disciplined_pure ()

theorem Disciplined.invertedBlock {body : Render κ σ Unit} (h : body.Disciplined)
    (setting : Setting κ) (name : String) : (invertedBlock setting name body).Disciplined := by
  refine (disciplined_ask _).bind ?_
  intro found
  split
  · exact h
  · exact disciplined_pure ()

/-- A text put in place of the output changes nothing about the scopes. -/
theorem collectBehind_along (always ends : Scope → Prop) {body : Render κ String Unit}
    {state : Rendering κ σ} {text : String}
    (h : body.Along (fun moment => always moment.scope) (fun _ last => ends last.scope)
      ⟨state.scope, state.store, text⟩) :
    (collectBehind text body : Render κ σ String).Along (fun moment => always moment.scope)
      (fun _ last => ends last.scope) state := by
  induction body generalizing state text with
  | done result => exact h
  | step act next ih => exact ⟨h.1, ih _ h.2⟩

theorem Disciplined.collect {body : Render κ String Unit} (h : body.Disciplined) :
    (collect body : Render κ σ String).Disciplined := fun state =>
  collectBehind_along (fun scope => scope.Extends state.scope) (fun scope => scope = state.scope)
    (h ⟨state.scope, state.store, ""⟩)

theorem disciplined_inclusion (setting : Setting κ) (sink : Sink σ) {deeper : Option (Renderer κ)}
    (hdeeper : ∀ render ∈ deeper, DisciplinedRenderer render) (name indent : String) :
    (inclusion setting sink deeper name indent).Disciplined := by
  refine (disciplined_find setting name).bind ?_
  intro found
  split
  · exact disciplined_pure ()
  · rename_i template
    split
    · exact disciplined_done _
    · rename_i render
      have hrender := hdeeper render rfl
      intro state
      have hentered := Scope.enter_extends state.scope name
      refine Along.changeScope (Scope.Extends.refl _) (Disciplined.closing ?_ hentered rfl)
      split
      · exact hrender σ sink _
      · exact (hrender String .text _).collect.bind fun _ => disciplined_writeAll sink _

def Leaves (outer : Scope) (result : Except Error (α × Nat)) (last : Rendering κ σ) : Prop :=
  ∃ a left, result = .ok (a, List.length left) ∧ last.scope = outer.above left

/-- A script goes on with its own scopes after a request that keeps all scopes. -/
theorem Disciplined.attempt_bind {action : Render κ σ α} (h : action.Disciplined)
    {rest : Except Error α → Render κ σ β} {ends : Except Error β → Rendering κ σ → Prop}
    {state : Rendering κ σ} {outer : Scope} {own : List Frame}
    (hstate : state.scope = outer.above own)
    (hrest : ∀ result (last : Rendering κ σ), last.scope = outer.above own →
      (rest result).Along (fun moment => moment.scope.Extends outer) ends last) :
    (action.attempt >>= rest).Along (fun moment => moment.scope.Extends outer) ends state := by
  have hextends : state.scope.Extends outer := hstate ▸ Scope.above_extends outer own
  refine Along.bind (Along.attempt ((h.inside hextends).mono (fun _ hmoment => hmoment) ?_))
  intro result last _ hlast
  exact hrest result last (hlast.trans hstate)

/-- A script keeps all scopes but its own, and knows how many of its own are left. -/
theorem runScript_along (setting : Setting κ) (sink : Sink σ) {body elseBody : Render κ σ Unit}
    (hbody : body.Disciplined) (helse : elseBody.Disciplined) (outer : Scope) (script : Script α)
    (own : List Frame) {state : Rendering κ σ} (hstate : state.scope = outer.above own) :
    (runScript setting sink body elseBody own.length script).Along
      (fun moment => moment.scope.Extends outer) (Leaves outer) state := by
  have hextends : state.scope.Extends outer := hstate ▸ Scope.above_extends outer own
  induction script generalizing own state with
  | done result => exact ⟨hextends, result, own, rfl, hstate⟩
  | push value position next ih =>
    rw [runScript]
    refine Along.bind (Along.attempt ((push_along setting value position outer own hstate).mono
      (fun _ hmoment => hmoment) ?_))
    intro result last hmoment hlast
    cases result with
    | ok _ => exact ih (.ok ()) (⟨value, position⟩ :: own) hlast hmoment
    | error error => exact ih (.error error) own hlast hmoment
  | pop next ih =>
    cases own with
    | nil => exact ih none [] hstate hextends
    | cons frame own =>
      have hpopped : state.scope.pop.2 = outer.above own := by
        rw [hstate, Scope.pop_above_cons]
      have hinside : state.scope.pop.2.Extends outer := hpopped ▸ Scope.above_extends outer own
      exact ⟨hextends, ih _ own hpopped hinside⟩
  | renderBody next ih =>
    rw [runScript]
    refine hbody.attempt_bind hstate ?_
    intro result last hlast
    exact ih result own hlast (hlast ▸ Scope.above_extends outer own)
  | renderElse next ih =>
    rw [runScript]
    refine helse.attempt_bind hstate ?_
    intro result last hlast
    exact ih result own hlast (hlast ▸ Scope.above_extends outer own)
  | append text next ih =>
    rw [runScript]
    refine (disciplined_write sink text).attempt_bind hstate ?_
    intro result last hlast
    exact ih result own hlast (hlast ▸ Scope.above_extends outer own)
  | peek next ih =>
    rw [runScript]
    exact Along.ask hextends (ih _ own hstate hextends)
  | resolve name next ih =>
    rw [runScript]
    exact Along.ask hextends (ih _ own hstate hextends)
  | apply function argument next ih => exact ih _ own hstate hextends

theorem disciplined_invocation (setting : Setting κ) (sink : Sink σ) (helper : Helper)
    (tag : HelperTag) (hasElse : Bool) {body elseBody : Render κ σ Unit}
    (hbody : body.Disciplined) (helse : elseBody.Disciplined) :
    (invocation setting sink helper tag hasElse body elseBody).Disciplined := by
  intro state
  have hstart := Scope.Extends.refl state.scope
  refine Along.ask hstart (Along.bind ?_)
  refine (runScript_along setting sink hbody helse state.scope _ [] rfl).mono
    (fun _ hmoment => hmoment) ?_
  rintro _ last hmoment ⟨result, left, rfl, hlast⟩
  have hdropped : last.scope.drop left.length = state.scope := by
    rw [hlast, Scope.drop_above]
  refine Along.changeScope hmoment ?_
  exact ⟨hdropped ▸ hstart, hdropped⟩

mutual

theorem disciplined_segment (setting : Setting κ) {deeper : Option (Renderer κ)}
    (hdeeper : ∀ render ∈ deeper, DisciplinedRenderer render) (sink : Sink σ) :
    ∀ part : Segment, (segment setting deeper sink part).Disciplined
  | .text text => disciplined_write sink text
  | .output name escaped _ => disciplined_output setting sink name escaped
  | .block name false body _ =>
    (disciplined_segments setting hdeeper sink body).plainBlock setting name
  | .block name true body _ =>
    (disciplined_segments setting hdeeper sink body).invertedBlock setting name
  | .inclusion name indent _ => disciplined_inclusion setting sink hdeeper name indent
  | .invocation registered tag body none =>
    disciplined_invocation setting sink registered.helper tag false
      (disciplined_segments setting hdeeper sink body) (disciplined_pure ())
  | .invocation registered tag body (some elseBody) =>
    disciplined_invocation setting sink registered.helper tag true
      (disciplined_segments setting hdeeper sink body)
      (disciplined_segments setting hdeeper sink elseBody)
  | .comment => disciplined_pure ()

theorem disciplined_segments (setting : Setting κ) {deeper : Option (Renderer κ)}
    (hdeeper : ∀ render ∈ deeper, DisciplinedRenderer render) (sink : Sink σ) :
    ∀ parts : List Segment, (segments setting deeper sink parts).Disciplined
  | [] => disciplined_pure ()
  | first :: later =>
    (disciplined_segment setting hdeeper sink first).bind fun _ =>
      disciplined_segments setting hdeeper sink later

end

/-- However deep inclusions may nest, what they render is disciplined. -/
theorem disciplined_nested (setting : Setting κ) (depth : Nat) :
    DisciplinedRenderer (nested setting depth) := by
  induction depth with
  | zero =>
    intro τ sink body
    exact disciplined_segments setting (by simp) sink body
  | succ depth ih =>
    intro τ sink body
    refine disciplined_segments setting ?_ sink body
    intro render hrender
    rw [← Option.mem_some.mp hrender]
    exact ih

theorem disciplined_all (setting : Setting κ) (sink : Sink σ) (body : List Segment) :
    (all setting sink body).Disciplined :=
  (disciplined_ask _).bind fun _ => disciplined_nested setting _ σ sink body

/-- Rendering gives the scopes and the inclusions back as they were, whether it fails or not, and
only ever adds to them on the way. In particular a helper never takes away or changes a frame that
was there when it was called, whatever it asks for and wherever it is called. -/
theorem all_keeps_scopes (setting : Setting κ) (sink : Sink σ) (body : List Segment)
    (state : Rendering κ σ) :
    ((all setting sink body).outcome state).2.scope = state.scope ∧
      (∀ moment ∈ (all setting sink body).moments state, moment.scope.Extends state.scope) ∧
      ∀ (depth : Nat) (τ : Type) (sink : Sink τ) (registered : Registered) (tag : HelperTag)
        (inner : List Segment) (elseBody : Option (List Segment)) (called : Rendering κ τ),
        ∀ moment ∈ (nested setting depth τ sink
            [.invocation registered tag inner elseBody]).moments called,
          called.scope.frames <:+ moment.scope.frames := by
  obtain ⟨hmoments, hlast⟩ := along_iff.mp (disciplined_all setting sink body state)
  refine ⟨hlast, hmoments, ?_⟩
  intro depth τ sink registered tag inner elseBody called moment hmoment
  have hcall := disciplined_nested setting depth τ sink
    [.invocation registered tag inner elseBody] called
  exact ((along_iff.mp hcall).1 moment hmoment).frames

end Render

end Stencil
