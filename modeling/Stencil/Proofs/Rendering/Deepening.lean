import Stencil.Proofs.Rendering.Congruence
import Stencil.Proofs.Rendering.Entailing
import Stencil.Proofs.Rendering.Moments

/-! The same rendering inside of more inclusions. As long as it leaves room for them it goes the
same way, whatever helpers it calls: it comes to the same result, with the same output. -/

namespace Stencil

/-- The open scopes of a template, in a template that other inclusions have led to. -/
def Scope.inside (outer scope : Scope) : Scope :=
  ⟨outer.template, scope.frames, scope.inclusions ++ outer.inclusions⟩

theorem Scope.currentTemplate_inside {outer scope : Scope}
    (h : scope.template = outer.currentTemplate) :
    (outer.inside scope).currentTemplate = scope.currentTemplate := by
  obtain ⟨template, frames, _ | ⟨name, inclusions⟩⟩ := scope
  · exact h.symm
  · rfl

theorem Scope.push_inside {outer scope : Scope} (h : scope.template = outer.currentTemplate)
    (limit : Nat) (value : Value) (position : Option Iteration) :
    (outer.inside scope).push limit value position =
      (scope.push limit value position).map outer.inside := by
  have hcurrent := currentTemplate_inside h
  have hdepth : (outer.inside scope).depth = scope.depth := rfl
  unfold push
  rw [hcurrent, hdepth]
  split <;> rfl

theorem Scope.template_of_push {scope opened : Scope} {limit : Nat} {value : Value}
    {position : Option Iteration} (h : scope.push limit value position = .ok opened) :
    opened.template = scope.template := by
  unfold push at h
  split at h
  · contradiction
  · exact (Except.ok.inj h) ▸ rfl

namespace Render

variable {κ σ α β : Type}

theorem start_mem_moments (action : Render κ σ α) (state : Rendering κ σ) :
    state ∈ action.moments state := by
  cases action <;> simp [moments]

theorem moments_subset_bind (action : Render κ σ α) (rest : α → Render κ σ β)
    (state : Rendering κ σ) : action.moments state ⊆ (action >>= rest).moments state := by
  induction action generalizing state with
  | done result =>
    rw [moments, List.cons_subset]
    exact ⟨start_mem_moments _ state, List.nil_subset _⟩
  | step act next ih => exact List.cons_subset_cons state (ih _ _)

theorem moments_rest_subset_bind {action : Render κ σ α} {a : α} {state middle : Rendering κ σ}
    (h : action.outcome state = (.ok a, middle)) (rest : α → Render κ σ β) :
    (rest a).moments middle ⊆ (action >>= rest).moments state := by
  induction action generalizing state with
  | done result =>
    obtain ⟨rfl, rfl⟩ := Prod.mk.inj h
    exact List.Subset.refl _
  | step act next ih => exact List.subset_cons_of_subset _ (ih _ h)

theorem moments_attempt (action : Render κ σ α) (state : Rendering κ σ) :
    action.attempt.moments state = action.moments state := by
  induction action generalizing state with
  | done result => rfl
  | step act next ih => exact congrArg (state :: ·) (ih _ _)

/-- While a text is put in place of the output, the scopes are those of the rendering into it. -/
theorem map_scope_moments_collectBehind (body : Render κ String Unit) (text : String)
    (state : Rendering κ σ) :
    ((collectBehind text body : Render κ σ String).moments state).map Rendering.scope =
      (body.moments ⟨state.scope, state.store, text⟩).map Rendering.scope := by
  induction body generalizing text state with
  | done result => rfl
  | step act next ih => exact congrArg (state.scope :: ·) (ih _ _ _)

/-- Never are more inclusions active on the way. -/
def Within (bound : Nat) (action : Render κ σ α) (state : Rendering κ σ) : Prop :=
  ∀ moment ∈ action.moments state, moment.scope.inclusions.length ≤ bound

section Within

variable {bound : Nat} {state : Rendering κ σ}

theorem Within.of_bind {action : Render κ σ α} {rest : α → Render κ σ β}
    (h : Within bound (action >>= rest) state) : Within bound action state :=
  fun moment hmoment => h moment (moments_subset_bind action rest state hmoment)

theorem Within.rest {action : Render κ σ α} {rest : α → Render κ σ β}
    (h : Within bound (action >>= rest) state) {a : α} {middle : Rendering κ σ}
    (haction : action.outcome state = (.ok a, middle)) : Within bound (rest a) middle :=
  fun moment hmoment => h moment (moments_rest_subset_bind haction rest hmoment)

theorem Within.of_attempt {action : Render κ σ α} (h : Within bound action.attempt state) :
    Within bound action state := by
  rwa [Within, moments_attempt] at h

theorem Within.of_collect {body : Render κ String Unit}
    (h : Within bound (collect body : Render κ σ String) state) :
    Within bound body ⟨state.scope, state.store, ""⟩ := by
  intro moment hmoment
  have hscope : moment.scope ∈
      ((collect body : Render κ σ String).moments state).map Rendering.scope := by
    rw [collect, map_scope_moments_collectBehind]
    exact List.mem_map_of_mem hmoment
  obtain ⟨other, hother, hsame⟩ := List.mem_map.mp hscope
  rw [← hsame]
  exact h other hother

/-- What enters an inclusion within the bound finds room for it. -/
theorem Within.lt_of_enter {name : String} {rest : Unit → Render κ σ α}
    (h : Within bound (changeScope (.enter name) >>= rest) state) :
    state.scope.inclusions.length < bound :=
  h _ (List.mem_cons_of_mem _ (start_mem_moments _ { state with scope := state.scope.enter name }))

end Within

/-- The same open scopes and the same output, with so many inclusions active on one side, and on the
other side those around them as well. -/
structure Deeper (stores : κ → Prop) (outer : Scope) (active : Nat) (state second : Rendering κ σ) :
    Prop where
  scope : second.scope = outer.inside state.scope
  template : state.scope.template = outer.currentTemplate
  active : state.scope.inclusions.length = active
  output : second.output = state.output
  store : stores state.store
  other : stores second.store

/-- A rendering that stays within the bound ends with the same result inside of more inclusions. -/
def GoesDeeper (stores : κ → Prop) (outer : Scope) (bound active : Nat)
    (action other : Render κ σ α) : Prop :=
  ∀ state second, Deeper stores outer active state second → Within bound action state →
    (other.outcome second).1 = (action.outcome state).1 ∧
      Deeper stores outer active (action.outcome state).2 (other.outcome second).2

section Rules

variable {stores : κ → Prop} {outer : Scope} {bound active : Nat}

theorem goesDeeper_done (result : Except Error α) :
    GoesDeeper stores outer bound active (done result : Render κ σ α) (done result) :=
  fun _ _ hdeeper _ => ⟨rfl, hdeeper⟩

/-- One step on each side, with one answer to go on with. -/
theorem goesDeeper_step {act other : Rendering κ σ → β × Rendering κ σ}
    {next : β → Render κ σ α}
    (hact : ∀ state second, Deeper stores outer active state second →
      (other second).1 = (act state).1 ∧
        Deeper stores outer active (act state).2 (other second).2)
    (hnext : ∀ b, GoesDeeper stores outer bound active (next b) (next b)) :
    GoesDeeper stores outer bound active (step act next) (step other next) := by
  intro state second hdeeper hwithin
  obtain ⟨hanswer, hchanged⟩ := hact state second hdeeper
  rw [outcome_step, outcome_step, hanswer]
  exact hnext _ _ _ hchanged fun moment hmoment => hwithin moment (List.mem_cons_of_mem _ hmoment)

theorem GoesDeeper.bind {action other : Render κ σ α} {rest later : α → Render κ σ β}
    (h : GoesDeeper stores outer bound active action other)
    (hrest : ∀ a, GoesDeeper stores outer bound active (rest a) (later a)) :
    GoesDeeper stores outer bound active (action >>= rest) (other >>= later) := by
  intro state second hdeeper hwithin
  obtain ⟨hresult, hlast⟩ := h state second hdeeper hwithin.of_bind
  rw [outcome_bind, outcome_bind]
  rcases haction : action.outcome state with ⟨error | a, middle⟩ <;>
    rcases hother : other.outcome second with ⟨fault | b, behind⟩ <;>
    simp only [haction, hother, Except.ok.injEq, Except.error.injEq, reduceCtorEq] at hresult hlast
  · exact ⟨congrArg Except.error hresult, hlast⟩
  · subst hresult
    exact hrest b middle behind hlast (hwithin.rest haction)

theorem GoesDeeper.attempt {action other : Render κ σ α}
    (h : GoesDeeper stores outer bound active action other) :
    GoesDeeper stores outer bound active action.attempt other.attempt := by
  intro state second hdeeper hwithin
  obtain ⟨hresult, hlast⟩ := h state second hdeeper hwithin.of_attempt
  rw [outcome_attempt, outcome_attempt]
  exact ⟨congrArg Except.ok hresult, hlast⟩

/-- Steps on both sides that lead to the same open scopes. -/
theorem Deeper.move {state second : Rendering κ σ} (h : Deeper stores outer active state second)
    {moved : Scope} (htemplate : moved.template = state.scope.template)
    (hinclusions : moved.inclusions = state.scope.inclusions) :
    Deeper stores outer active { state with scope := moved }
      { second with scope := outer.inside moved } where
  scope := rfl
  template := htemplate.trans h.template
  active := (congrArg List.length hinclusions).trans h.active
  output := h.output
  store := h.store
  other := h.other

/-- Nothing but inclusions can tell how many of them are active. -/
theorem congruence_goesDeeper (setting : Setting κ) (sink : Sink σ) :
    Congruence setting sink fun action other =>
      GoesDeeper stores outer bound active action other where
  done := goesDeeper_done
  bind := GoesDeeper.bind
  attempt := GoesDeeper.attempt
  ask h := by
    refine goesDeeper_step (fun state second hdeeper => ⟨h state second ?_, hdeeper⟩) fun a =>
      goesDeeper_done (.ok a)
    rw [hdeeper.scope]
    rfl
  reframe f := by
    refine goesDeeper_step (fun state second hdeeper => ?_) fun a => goesDeeper_done (.ok a)
    rw [hdeeper.scope]
    exact ⟨rfl, hdeeper.move rfl rfl⟩
  push value position := by
    refine goesDeeper_step (fun state second hdeeper => ?_) goesDeeper_done
    rw [hdeeper.scope, Scope.push_inside hdeeper.template]
    cases hpush : state.scope.push setting.config.scopeLimit value position with
    | error error => exact ⟨rfl, hdeeper⟩
    | ok opened =>
      exact ⟨rfl, hdeeper.move (Scope.template_of_push hpush) (Scope.inclusions_of_push hpush)⟩
  pop := by
    refine goesDeeper_step (fun state second hdeeper => ?_) fun a => goesDeeper_done (.ok a)
    rw [hdeeper.scope, Scope.pop_eq, Scope.pop_eq]
    exact ⟨rfl, hdeeper.move rfl rfl⟩
  write text := by
    refine goesDeeper_step (fun state second hdeeper => ?_) fun taken => goesDeeper_done _
    simp only [hdeeper.output]
    exact ⟨trivial, hdeeper.scope, hdeeper.template, hdeeper.active, rfl, hdeeper.store,
      hdeeper.other⟩

theorem GoesDeeper.collect {body other : Render κ String Unit}
    (h : GoesDeeper stores outer bound active body other) :
    GoesDeeper stores outer bound active (collect body : Render κ σ String) (collect other) := by
  intro state second hdeeper hwithin
  obtain ⟨hresult, hlast⟩ := h ⟨state.scope, state.store, ""⟩ ⟨second.scope, second.store, ""⟩
    ⟨hdeeper.scope, hdeeper.template, hdeeper.active, rfl, hdeeper.store, hdeeper.other⟩
    hwithin.of_collect
  unfold Render.collect
  rw [outcome_collectBehind, outcome_collectBehind]
  simp only [hresult, hlast.output, true_and]
  exact ⟨hlast.scope, hlast.template, hlast.active, hdeeper.output, hlast.store, hlast.other⟩

def RendersDeeper (stores : κ → Prop) (outer : Scope) (bound active : Nat)
    (render other : Renderer κ) : Prop :=
  ∀ (τ : Type) (sink : Sink τ) (body : List Segment),
    GoesDeeper stores outer bound active (render τ sink body) (other τ sink body)

theorem RendersDeeper.place (setting : Setting κ) {render other : Renderer κ}
    (h : RendersDeeper stores outer bound active render other) (sink : Sink σ) (indent : String)
    (body : List Segment) :
    GoesDeeper stores outer bound active (place sink render indent body)
      (place sink other indent body) := by
  unfold Render.place
  split
  · exact h σ sink body
  · exact (h String .text body).collect.bind fun text =>
      (congruence_goesDeeper setting sink).writeAll _

theorem Deeper.enter {state second : Rendering κ σ} (h : Deeper stores outer active state second)
    (name : String) :
    Deeper stores outer (active + 1) { state with scope := state.scope.enter name }
      { second with scope := second.scope.enter name } where
  scope := by
    rw [h.scope]
    rfl
  template := h.template
  active := congrArg (· + 1) h.active
  output := h.output
  store := h.store
  other := h.other

theorem Deeper.leave {state second : Rendering κ σ}
    (h : Deeper stores outer (active + 1) state second) :
    Deeper stores outer active { state with scope := state.scope.leave }
      { second with scope := second.scope.leave } where
  scope := by
    have hne : state.scope.inclusions ≠ [] := List.ne_nil_of_length_eq_add_one h.active
    rw [h.scope, Scope.leave, Scope.inside, List.tail_append_of_ne_nil hne]
    rfl
  template := h.template
  active := by
    have hlength := h.active
    simp only [Scope.leave, List.length_tail]
    omega
  output := h.output
  store := h.store
  other := h.other

/-- What goes on inside of one more inclusion. -/
theorem GoesDeeper.entered {action other : Render κ σ Unit} {name : String}
    (h : GoesDeeper stores outer bound (active + 1) action other) :
    GoesDeeper stores outer bound active
      (changeScope (.enter name) >>= fun _ => action.andFinally .leave)
      (changeScope (.enter name) >>= fun _ => other.andFinally .leave) := by
  intro state second hdeeper hwithin
  let entered : Rendering κ σ := { state with scope := state.scope.enter name }
  have hinside : Within bound (action.andFinally .leave) entered :=
    fun moment hmoment => hwithin moment (List.mem_cons_of_mem _ hmoment)
  obtain ⟨hresult, hlast⟩ := h entered { second with scope := second.scope.enter name }
    (hdeeper.enter name) hinside.of_bind.of_attempt
  have houtcome : ∀ (body : Render κ σ Unit) (start : Rendering κ σ),
      (changeScope (.enter name) >>= fun _ => body.andFinally .leave).outcome start =
        (body.andFinally .leave).outcome { start with scope := start.scope.enter name } :=
    fun _ _ => rfl
  rw [houtcome, houtcome, outcome_andFinally, outcome_andFinally]
  exact ⟨hresult, hlast.leave⟩

section Inclusions

variable {setting : Setting κ} {allowed : Helper → Prop}
  {answers : String → Except Error (Option Template)}
  (hkeeps : setting.Keeps allowed stores answers)

include hkeeps

theorem goesDeeper_find (name : String) :
    GoesDeeper stores outer bound active (find setting name : Render κ σ (Option Template))
      (find setting name) := by
  refine goesDeeper_step (fun state second hdeeper => ?_) goesDeeper_done
  have hanswer := hkeeps.finds name state.store hdeeper.store
  have hother := hkeeps.finds name second.store hdeeper.other
  exact ⟨hother.trans hanswer.symm, hdeeper.scope, hdeeper.template, hdeeper.active,
    hdeeper.output, hkeeps.keeps name state.store hdeeper.store,
    hkeeps.keeps name second.store hdeeper.other⟩

/-- Where an inclusion leaves room for another one, so it does inside of more of them. -/
theorem goesDeeper_inclusion (sink : Sink σ) {deeper inner : Option (Renderer κ)}
    (hnone : deeper = none → inner = none)
    (hsome : ∀ render ∈ deeper, active < bound → ∃ other ∈ inner,
      RendersDeeper stores outer bound (active + 1) render other) (name indent : String) :
    GoesDeeper stores outer bound active (inclusion setting sink deeper name indent)
      (inclusion setting sink inner name indent) := by
  refine (goesDeeper_find hkeeps name).bind fun found => ?_
  cases found with
  | none => exact goesDeeper_done (.ok ())
  | some template =>
    cases deeper with
    | none =>
      rw [hnone rfl]
      exact goesDeeper_done _
    | some render =>
      intro state second hdeeper hwithin
      have hroom : active < bound := hdeeper.active ▸ hwithin.lt_of_enter
      obtain ⟨other, rfl, hrender⟩ := hsome render rfl hroom
      exact (hrender.place setting sink indent template.segments).entered state second hdeeper
        hwithin

/-- The room that a rendering never uses may be taken by the inclusions around it. -/
theorem rendersDeeper_nested (extra : Nat) {depth active : Nat} (h : active + depth = bound) :
    RendersDeeper stores outer bound active (nested setting (depth + extra))
      (nested setting depth) := by
  induction depth generalizing active with
  | zero =>
    intro τ sink body
    obtain rfl : active = bound := h
    rw [Nat.zero_add]
    cases extra with
    | zero =>
      simp only [nested, segments_eq_segmentsBy]
      refine (congruence_goesDeeper setting sink).segmentsBy ?_ body
      exact goesDeeper_inclusion hkeeps sink (fun _ => rfl) (by simp)
    | succ extra =>
      simp only [nested, segments_eq_segmentsBy]
      refine (congruence_goesDeeper setting sink).segmentsBy ?_ body
      exact goesDeeper_inclusion hkeeps sink (fun _ => rfl)
        fun _ _ hroom => absurd hroom (Nat.lt_irrefl _)
  | succ depth ih =>
    intro τ sink body
    rw [show depth + 1 + extra = depth + extra + 1 by omega]
    simp only [nested, segments_eq_segmentsBy]
    refine (congruence_goesDeeper setting sink).segmentsBy ?_ body
    refine goesDeeper_inclusion hkeeps sink (fun hnone => absurd hnone (Option.some_ne_none _)) ?_
    rintro _ ⟨⟩ -
    exact ⟨_, rfl, ih (by omega)⟩

/-- A whole rendering goes the same way inside of more inclusions, if it leaves room for them. -/
theorem outcome_all_of_deeper (sink : Sink σ) (body : List Segment) {state second : Rendering κ σ}
    (hdeeper : Deeper stores outer active state second)
    (hroom : active + outer.inclusions.length ≤ setting.config.inclusionLimit)
    (hwithin : Within (setting.config.inclusionLimit - outer.inclusions.length)
      (all setting sink body) state) :
    ((all setting sink body).outcome second).1 = ((all setting sink body).outcome state).1 ∧
      Deeper stores outer active ((all setting sink body).outcome state).2
        ((all setting sink body).outcome second).2 := by
  let limit := setting.config.inclusionLimit
  have hlength : second.scope.inclusions.length = active + outer.inclusions.length := by
    rw [hdeeper.scope, Scope.inside, List.length_append, hdeeper.active]
  have hfirst : (all setting sink body).outcome state =
      (nested setting (limit - state.scope.inclusions.length) σ sink body).outcome state := rfl
  have hother : (all setting sink body).outcome second =
      (nested setting (limit - second.scope.inclusions.length) σ sink body).outcome second := rfl
  have hinside : Within (limit - outer.inclusions.length)
      (nested setting (limit - state.scope.inclusions.length) σ sink body) state :=
    fun moment hmoment => hwithin moment (List.mem_cons_of_mem _ hmoment)
  have hsplit : limit - active = limit - outer.inclusions.length - active +
      outer.inclusions.length := by
    have : active + outer.inclusions.length ≤ limit := hroom
    omega
  rw [hfirst, hother, hlength]
  rw [hdeeper.active, hsplit] at hinside ⊢
  have hdepth : limit - (active + outer.inclusions.length) =
      limit - outer.inclusions.length - active := by omega
  rw [hdepth]
  have hbound : active + (limit - outer.inclusions.length - active) =
      limit - outer.inclusions.length := by omega
  exact rendersDeeper_nested hkeeps outer.inclusions.length hbound σ sink body state second hdeeper
    hinside

end Inclusions

end Rules

end Render

end Stencil
