import Stencil.Proofs.Rendering.Moments

/-! A rendering changes its store by looking for included templates, and by nothing else. -/

namespace Stencil.Render

variable {κ σ α β : Type}

def LooksUp (setting : Setting κ) (store after : κ) : Prop :=
  after = store ∨ ∃ name, after = ((setting.find name).outcome store).2

/-- A rendering whose steps leave the store alone or look for a template in it. -/
def OnlyLooksUp (setting : Setting κ) : Render κ σ α → Prop
  | .done _ => True
  | .step act next =>
    (∀ state, LooksUp setting state.store (act state).2.store) ∧
      ∀ answer, (next answer).OnlyLooksUp setting

section Rules

variable {setting : Setting κ}

theorem onlyLooksUp_done (result : Except Error α) :
    (done result : Render κ σ α).OnlyLooksUp setting := trivial

theorem onlyLooksUp_pure (a : α) : (pure a : Render κ σ α).OnlyLooksUp setting := trivial

/-- A step may change the scopes and the output. -/
theorem onlyLooksUp_step {act : Rendering κ σ → β × Rendering κ σ} {next : β → Render κ σ α}
    (hact : ∀ state, (act state).2.store = state.store)
    (hnext : ∀ answer, (next answer).OnlyLooksUp setting) :
    (step act next).OnlyLooksUp setting :=
  ⟨fun state => .inl (hact state), hnext⟩

theorem OnlyLooksUp.bind {action : Render κ σ α} {rest : α → Render κ σ β}
    (h : action.OnlyLooksUp setting) (hrest : ∀ a, (rest a).OnlyLooksUp setting) :
    (action >>= rest).OnlyLooksUp setting := by
  induction action with
  | done result =>
    cases result with
    | ok a => exact hrest a
    | error error => trivial
  | step act next ih => exact ⟨h.1, fun answer => ih answer (h.2 answer)⟩

theorem OnlyLooksUp.attempt {action : Render κ σ α} (h : action.OnlyLooksUp setting) :
    action.attempt.OnlyLooksUp setting := by
  induction action with
  | done result => trivial
  | step act next ih => exact ⟨h.1, fun answer => ih answer (h.2 answer)⟩

theorem onlyLooksUp_ask (f : Rendering κ σ → α) : (ask f : Render κ σ α).OnlyLooksUp setting :=
  onlyLooksUp_step (fun _ => rfl) onlyLooksUp_pure

theorem onlyLooksUp_changeScope (f : Scope → Scope) :
    (changeScope f : Render κ σ Unit).OnlyLooksUp setting :=
  onlyLooksUp_step (fun _ => rfl) onlyLooksUp_pure

theorem OnlyLooksUp.andFinally {action : Render κ σ α} (h : action.OnlyLooksUp setting)
    (f : Scope → Scope) : (action.andFinally f).OnlyLooksUp setting :=
  h.attempt.bind fun result => (onlyLooksUp_changeScope f).bind fun _ => onlyLooksUp_done result

theorem onlyLooksUp_write (sink : Sink σ) (text : String) :
    (write sink text : Render κ σ Unit).OnlyLooksUp setting :=
  onlyLooksUp_step (fun _ => rfl) fun _ => onlyLooksUp_done _

theorem onlyLooksUp_writeAll (sink : Sink σ) (texts : List String) :
    (writeAll sink texts : Render κ σ Unit).OnlyLooksUp setting := by
  induction texts with
  | nil => exact onlyLooksUp_pure ()
  | cons text later ih => exact (onlyLooksUp_write sink text).bind fun _ => ih

theorem onlyLooksUp_find (name : String) :
    (find setting name : Render κ σ (Option Template)).OnlyLooksUp setting :=
  ⟨fun _ => .inr ⟨name, rfl⟩, onlyLooksUp_done⟩

theorem onlyLooksUp_push (value : Value) (position : Option Iteration) :
    (push setting value position : Render κ σ Unit).OnlyLooksUp setting := by
  apply onlyLooksUp_step
  · intro state
    cases state.scope.push setting.config.scopeLimit value position <;> rfl
  · exact onlyLooksUp_done

theorem OnlyLooksUp.under {body : Render κ σ Unit} (h : body.OnlyLooksUp setting) (value : Value)
    (position : Option Iteration) : (under setting value position body).OnlyLooksUp setting :=
  (onlyLooksUp_push value position).bind fun _ => h.andFinally _

theorem OnlyLooksUp.elements {body : Render κ σ Unit} (h : body.OnlyLooksUp setting)
    (size before : Nat) (values : List Value) :
    (elements setting body size before values).OnlyLooksUp setting := by
  induction values generalizing before with
  | nil => exact onlyLooksUp_pure ()
  | cons value later ih => exact (h.under _ _).bind fun _ => ih _

theorem onlyLooksUp_output (sink : Sink σ) (name : String) (escaped : Bool) :
    (output setting sink name escaped).OnlyLooksUp setting := by
  apply (onlyLooksUp_ask _).bind
  intro found
  split
  · exact onlyLooksUp_pure ()
  · exact onlyLooksUp_pure ()
  · split
    · exact onlyLooksUp_writeAll sink _
    · exact onlyLooksUp_write sink _

theorem OnlyLooksUp.plainBlock {body : Render κ σ Unit} (h : body.OnlyLooksUp setting)
    (name : String) : (plainBlock setting name body).OnlyLooksUp setting := by
  apply (onlyLooksUp_ask _).bind
  intro found
  split
  · exact onlyLooksUp_pure ()
  · split
    · exact h.elements _ _ _
    · split
      · exact h.under _ _
      · exact onlyLooksUp_pure ()

theorem OnlyLooksUp.invertedBlock {body : Render κ σ Unit} (h : body.OnlyLooksUp setting)
    (name : String) : (invertedBlock setting name body).OnlyLooksUp setting := by
  apply (onlyLooksUp_ask _).bind
  intro found
  split
  · exact h
  · exact onlyLooksUp_pure ()

theorem onlyLooksUp_collectBehind {body : Render κ String Unit} (h : body.OnlyLooksUp setting)
    (text : String) : (collectBehind text body : Render κ σ String).OnlyLooksUp setting := by
  induction body generalizing text with
  | done result => trivial
  | step act next ih =>
    constructor
    · exact fun state => h.1 ⟨state.scope, state.store, text⟩
    · exact fun answer => ih answer.1 (h.2 answer.1) answer.2

def LookingRenderer (setting : Setting κ) (render : Renderer κ) : Prop :=
  ∀ (τ : Type) (sink : Sink τ) (body : List Segment), (render τ sink body).OnlyLooksUp setting

theorem onlyLooksUp_inclusion (sink : Sink σ) {deeper : Option (Renderer κ)}
    (hdeeper : ∀ render ∈ deeper, LookingRenderer setting render) (name indent : String) :
    (inclusion setting sink deeper name indent).OnlyLooksUp setting := by
  apply (onlyLooksUp_find name).bind
  intro found
  split
  · exact onlyLooksUp_pure ()
  · rename_i template
    split
    · exact onlyLooksUp_done _
    · rename_i render
      have hrender := hdeeper render rfl
      apply (onlyLooksUp_changeScope _).bind
      intro _
      apply OnlyLooksUp.andFinally
      split
      · exact hrender σ sink _
      · apply (onlyLooksUp_collectBehind (hrender String .text template.segments) "").bind
        exact fun _ => onlyLooksUp_writeAll sink _

theorem onlyLooksUp_runScript (sink : Sink σ) {body elseBody : Render κ σ Unit}
    (hbody : body.OnlyLooksUp setting) (helse : elseBody.OnlyLooksUp setting) (script : Script α)
    (pushed : Nat) : (runScript setting sink body elseBody pushed script).OnlyLooksUp setting := by
  induction script generalizing pushed with
  | done result => trivial
  | push value position next ih =>
    rw [runScript]
    apply (onlyLooksUp_push value position).attempt.bind
    intro answer
    cases answer with
    | ok _ => exact ih _ _
    | error error => exact ih _ _
  | pop next ih =>
    cases pushed with
    | zero => exact ih none 0
    | succ left => exact onlyLooksUp_step (fun _ => rfl) fun answer => ih answer left
  | renderBody next ih => exact hbody.attempt.bind fun answer => ih answer pushed
  | renderElse next ih => exact helse.attempt.bind fun answer => ih answer pushed
  | append text next ih =>
    exact (onlyLooksUp_write sink text).attempt.bind fun answer => ih answer pushed
  | peek next ih => exact (onlyLooksUp_ask _).bind fun answer => ih answer pushed
  | resolve name next ih => exact (onlyLooksUp_ask _).bind fun answer => ih answer pushed
  | apply function argument next ih => exact ih _ pushed

theorem onlyLooksUp_invocation (sink : Sink σ) (helper : Helper) (tag : HelperTag) (hasElse : Bool)
    {body elseBody : Render κ σ Unit} (hbody : body.OnlyLooksUp setting)
    (helse : elseBody.OnlyLooksUp setting) :
    (invocation setting sink helper tag hasElse body elseBody).OnlyLooksUp setting := by
  apply (onlyLooksUp_ask _).bind
  intro call
  apply (onlyLooksUp_runScript sink hbody helse _ 0).bind
  intro answer
  exact (onlyLooksUp_changeScope _).bind fun _ => onlyLooksUp_done _

end Rules

section Trees

mutual

theorem onlyLooksUp_segment (setting : Setting κ) {deeper : Option (Renderer κ)}
    (hdeeper : ∀ render ∈ deeper, LookingRenderer setting render) (sink : Sink σ) :
    ∀ part : Segment, (segment setting deeper sink part).OnlyLooksUp setting
  | .text text => onlyLooksUp_write sink text
  | .output name escaped _ => onlyLooksUp_output sink name escaped
  | .block name false body _ => (onlyLooksUp_segments setting hdeeper sink body).plainBlock name
  | .block name true body _ => (onlyLooksUp_segments setting hdeeper sink body).invertedBlock name
  | .inclusion name indent _ => onlyLooksUp_inclusion sink hdeeper name indent
  | .invocation registered tag body none =>
    onlyLooksUp_invocation sink registered.helper tag false
      (onlyLooksUp_segments setting hdeeper sink body) (onlyLooksUp_pure ())
  | .invocation registered tag body (some elseBody) =>
    onlyLooksUp_invocation sink registered.helper tag true
      (onlyLooksUp_segments setting hdeeper sink body)
      (onlyLooksUp_segments setting hdeeper sink elseBody)
  | .comment => onlyLooksUp_pure ()

theorem onlyLooksUp_segments (setting : Setting κ) {deeper : Option (Renderer κ)}
    (hdeeper : ∀ render ∈ deeper, LookingRenderer setting render) (sink : Sink σ) :
    ∀ parts : List Segment, (segments setting deeper sink parts).OnlyLooksUp setting
  | [] => onlyLooksUp_pure ()
  | first :: later =>
    (onlyLooksUp_segment setting hdeeper sink first).bind fun _ =>
      onlyLooksUp_segments setting hdeeper sink later

end

theorem onlyLooksUp_nested (setting : Setting κ) (depth : Nat) :
    LookingRenderer setting (nested setting depth) := by
  induction depth with
  | zero => exact fun τ sink body => onlyLooksUp_segments setting (by simp) sink body
  | succ depth ih =>
    intro τ sink body
    apply onlyLooksUp_segments setting _ sink body
    rintro render ⟨⟩
    exact ih

theorem onlyLooksUp_all (setting : Setting κ) (sink : Sink σ) (body : List Segment) :
    (all setting sink body).OnlyLooksUp setting :=
  (onlyLooksUp_ask _).bind fun depth => onlyLooksUp_nested setting depth σ sink body

end Trees

end Stencil.Render
