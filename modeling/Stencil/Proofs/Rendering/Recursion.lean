import Stencil.Proofs.Rendering.Matching

/-! The recursion through inclusions ends by the limit alone. Unrolled often enough, it never asks
for what lies below, however the templates include each other. -/

namespace Stencil.Render

variable {κ σ : Type}

def enter (setting : Setting κ) (name : String) : Render κ σ Unit :=
  .step
    (fun state =>
      if state.scope.inclusions.length ≥ setting.config.inclusionLimit then
        (.error (.recursionLimit name setting.config.inclusionLimit), state)
      else (.ok (), { state with scope := state.scope.enter name }))
    .done

/-- An inclusion that counts the active ones, and leaves the segments to `render`. -/
def countedInclusion (setting : Setting κ) (sink : Sink σ) (render : Renderer κ)
    (name indent : String) : Render κ σ Unit := do
  match ← find setting name with
  | none => pure ()
  | some template => do
    enter setting name
    (place sink render indent template.segments).andFinally .leave

/-- The recursion through inclusions unrolled so many times, with `bottom` for what lies deeper. -/
def unrolled (setting : Setting κ) (bottom : Renderer κ) : Nat → Renderer κ
  | 0 => bottom
  | count + 1 => fun _ sink =>
    segmentsBy setting sink (countedInclusion setting sink (unrolled setting bottom count))

def LeavesRoom (setting : Setting κ) (depth : Nat) (inclusions : List String) (store second : κ) :
    Prop :=
  second = store ∧ inclusions.length + depth = setting.config.inclusionLimit

theorem leavesRoom_find (setting : Setting κ) (depth : Nat) (name : String) :
    Matches (LeavesRoom setting depth) (find setting name : Render κ σ (Option Template))
      (find setting name) := by
  refine matches_find name ?_
  rintro inclusions store _ ⟨rfl, hroom⟩
  exact ⟨rfl, rfl, hroom⟩

theorem outcome_enter (setting : Setting κ) (name : String) {state : Rendering κ σ}
    (h : state.scope.inclusions.length < setting.config.inclusionLimit) (rest : Render κ σ Unit) :
    (enter setting name >>= fun _ => rest).outcome state =
      (changeScope (.enter name) >>= fun _ => rest).outcome state := by
  have hroom : ¬ state.scope.inclusions.length ≥ setting.config.inclusionLimit := by omega
  simp [outcome_bind, enter, changeScope, hroom]

theorem outcome_enter_full (setting : Setting κ) (name : String) {state : Rendering κ σ}
    (h : state.scope.inclusions.length = setting.config.inclusionLimit) (rest : Render κ σ Unit) :
    (enter setting name >>= fun _ => rest).outcome state =
      (.error (.recursionLimit name setting.config.inclusionLimit), state) := by
  have hfull : state.scope.inclusions.length ≥ setting.config.inclusionLimit := by omega
  simp [outcome_bind, enter, hfull]

/-- Where no inclusion may be entered, both ways of counting refuse it. -/
theorem matches_fullInclusion (setting : Setting κ) (sink : Sink σ) (render : Renderer κ)
    (name indent : String) :
    Matches (LeavesRoom setting 0) (inclusion setting sink none name indent)
      (countedInclusion setting sink render name indent) := by
  refine (leavesRoom_find setting _ name).bind fun found => ?_
  cases found with
  | none => exact matches_pure ()
  | some template =>
    intro state second hmatched
    have hfull : second.scope.inclusions.length = setting.config.inclusionLimit := by
      rw [hmatched.scope]
      exact hmatched.store.2
    simp only [outcome_enter_full setting name hfull]
    exact ⟨rfl, hmatched⟩

/-- Where an inclusion may be entered, both ways of counting enter it. -/
theorem matches_openInclusion {setting : Setting κ} {render other : Renderer κ} {depth : Nat}
    (h : ∀ (τ : Type) (sink : Sink τ) (body : List Segment),
      Matches (LeavesRoom setting depth) (render τ sink body) (other τ sink body))
    (sink : Sink σ) (name indent : String) :
    Matches (LeavesRoom setting (depth + 1)) (inclusion setting sink (some render) name indent)
      (countedInclusion setting sink other name indent) := by
  refine (leavesRoom_find setting _ name).bind fun found => ?_
  cases found with
  | none => exact matches_pure ()
  | some template =>
    intro state second hmatched
    have hroom : state.scope.inclusions.length + (depth + 1) = setting.config.inclusionLimit :=
      hmatched.store.2
    have hopen : second.scope.inclusions.length < setting.config.inclusionLimit := by
      rw [hmatched.scope]
      omega
    simp only [outcome_enter setting name hopen]
    refine (Matches.place h sink indent template.segments).inside ?_ ?_ state second hmatched
    · rintro inclusions store _ ⟨rfl, hlength⟩
      exact ⟨rfl, by simp only [List.length_cons]; omega⟩
    · rintro inclusions store _ ⟨rfl, hlength⟩
      exact ⟨rfl, by simp only [List.length_tail]; omega⟩

theorem matches_unrolled (setting : Setting κ) (bottom : Renderer κ) {depth count : Nat}
    (h : depth < count) : ∀ (τ : Type) (sink : Sink τ) (body : List Segment),
      Matches (LeavesRoom setting depth) (nested setting depth τ sink body)
        (unrolled setting bottom count τ sink body) := by
  -- The room that is left goes down with each inclusion on both sides, whichever template it
  -- enters.
  induction depth generalizing count with
  | zero =>
    intro τ sink body
    obtain ⟨count, rfl⟩ : ∃ further, count = further + 1 := ⟨count - 1, by omega⟩
    simp only [nested, unrolled, segments_eq_segmentsBy]
    exact matches_segmentsBy (.refl setting) sink (matches_fullInclusion setting sink _) body
  | succ depth ih =>
    intro τ sink body
    obtain ⟨count, rfl⟩ : ∃ further, count = further + 1 := ⟨count - 1, by omega⟩
    have hdeeper := ih (show depth < count by omega)
    simp only [nested, unrolled, segments_eq_segmentsBy]
    exact matches_segmentsBy (.refl setting) sink (matches_openInclusion hdeeper sink) body

/-- Unrolled once more than inclusions may nest, the recursion ends without its bottom. -/
theorem outcome_unrolled (setting : Setting κ) (sink : Sink σ) (body : List Segment)
    {state : Rendering κ σ}
    (hstate : state.scope.inclusions.length ≤ setting.config.inclusionLimit)
    (bottom : Renderer κ) {count : Nat}
    (h : setting.config.inclusionLimit - state.scope.inclusions.length < count) :
    (unrolled setting bottom count σ sink body).outcome state =
      (all setting sink body).outcome state := by
  have hroom : Matched
      (LeavesRoom setting (setting.config.inclusionLimit - state.scope.inclusions.length))
      state state := ⟨rfl, rfl, rfl, by omega⟩
  obtain ⟨hresult, hscope, houtput, hstore, -⟩ :=
    matches_unrolled setting bottom h σ sink body state state hroom
  have hall : (all setting sink body).outcome state =
      (nested setting (setting.config.inclusionLimit - state.scope.inclusions.length) σ sink
        body).outcome state := rfl
  rw [hall]
  refine Prod.ext hresult ?_
  rcases hlast : ((unrolled setting bottom count σ sink body).outcome state).2 with
    ⟨scope, store, output⟩
  rw [hlast] at hscope houtput hstore
  simp only at hscope houtput hstore
  rw [hscope, houtput, hstore]

/-- The renderer of what is included in these scopes, if there is room for one more inclusion. -/
def deeperIn (setting : Setting κ) (scope : Scope) : Option (Renderer κ) :=
  match setting.config.inclusionLimit - scope.inclusions.length with
  | 0 => none
  | depth + 1 => some (nested setting depth)

theorem exists_of_mem_deeperIn {setting : Setting κ} {scope : Scope} {inner : Renderer κ}
    (h : inner ∈ deeperIn setting scope) :
    ∃ depth ≤ setting.config.inclusionLimit - scope.inclusions.length,
      inner = nested setting depth := by
  unfold deeperIn at h
  split at h
  · cases h
  · rename_i depth hdepth
    exact ⟨depth, by omega, (Option.some.inj h).symm⟩

theorem outcome_all (setting : Setting κ) (sink : Sink σ) (body : List Segment)
    (state : Rendering κ σ) :
    (all setting sink body).outcome state =
      (segments setting (deeperIn setting state.scope) sink body).outcome state := by
  have hall : (all setting sink body).outcome state =
      (nested setting (setting.config.inclusionLimit - state.scope.inclusions.length) σ sink
        body).outcome state := rfl
  rw [hall, deeperIn]
  cases setting.config.inclusionLimit - state.scope.inclusions.length <;> rfl

theorem outcome_all_singleton (setting : Setting κ) (sink : Sink σ) (part : Segment)
    (state : Rendering κ σ) :
    (all setting sink [part]).outcome state =
      (segment setting (deeperIn setting state.scope) sink part).outcome state := by
  rw [outcome_all, segments, segments, outcome_bind]
  rcases (segment setting (deeperIn setting state.scope) sink part).outcome state with
    ⟨error | ⟨⟩, last⟩ <;> rfl

end Stencil.Render
