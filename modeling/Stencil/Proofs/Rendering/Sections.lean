import Stencil.Engine

/-! When a section renders its body, and when the inverted section of the same name does. Of the two
exactly one is active for every value but a host object whose elements and whose truth disagree. -/

namespace Stencil

namespace Render

variable {κ σ ν α : Type}

/-- A rendering beside a second part of the output, which it leaves alone. -/
def beside : Render κ σ α → Render κ (σ × ν) α
  | .done result => .done result
  | .step act next =>
    .step
      (fun state =>
        let (answer, inner) := act ⟨state.scope, state.store, state.output.1⟩
        (answer, ⟨inner.scope, inner.store, (inner.output, state.output.2)⟩))
      fun answer => (next answer).beside

def counted (body : Render κ σ Unit) : Render κ (σ × Nat) Unit :=
  .step (fun state => ((), { state with output := (state.output.1, state.output.2 + 1) }))
    fun _ => body.beside

def timesBegun (block : Render κ (σ × Nat) Unit → Render κ (σ × Nat) Unit)
    (body : Render κ σ Unit) (state : Rendering κ σ) : Nat :=
  ((block (counted body)).outcome ⟨state.scope, state.store, (state.output, 0)⟩).2.output.2

theorem outcome_beside (action : Render κ σ α) (state : Rendering κ (σ × ν)) :
    (action.beside : Render κ (σ × ν) α).outcome state =
      let (result, last) := action.outcome ⟨state.scope, state.store, state.output.1⟩
      (result, ⟨last.scope, last.store, (last.output, state.output.2)⟩) := by
  induction action generalizing state with
  | done result => rfl
  | step act next ih => exact ih _ _

theorem count_counted (body : Render κ σ Unit) (state : Rendering κ (σ × Nat)) :
    ((counted body).outcome state).2.output.2 = state.output.2 + 1 := by
  rw [counted, outcome_step, outcome_beside]

section Blocks

variable {setting : Setting κ} {name : String} {body : Render κ σ Unit}

theorem outcome_resolve_bind {β : Type} (setting : Setting κ) (name : String)
    (rest : Option Value → Render κ σ β) (state : Rendering κ σ) :
    (resolve setting name >>= rest).outcome state =
      (rest (setting.naming.resolve state.scope name)).outcome state := rfl

theorem outcome_push_of_room {state : Rendering κ σ} (value : Value) (position : Option Iteration)
    (hroom : state.scope.depth < setting.config.scopeLimit) :
    (push setting value position : Render κ σ Unit).outcome state =
      (.ok (), { state with
        scope := { state.scope with frames := ⟨value, position⟩ :: state.scope.frames } }) := by
  have hnot : ¬ state.scope.depth ≥ setting.config.scopeLimit := Nat.not_le.mpr hroom
  simp [push, Scope.push, hnot]

theorem outcome_push_of_full {state : Rendering κ σ} (value : Value) (position : Option Iteration)
    (hfull : ¬ state.scope.depth < setting.config.scopeLimit) :
    (push setting value position : Render κ σ Unit).outcome state =
      (.error (.recursionLimit state.scope.currentTemplate setting.config.scopeLimit), state) := by
  have hlimit : state.scope.depth ≥ setting.config.scopeLimit := Nat.not_lt.mp hfull
  simp [push, Scope.push, hlimit]

/-- A body is begun once under a scope for which there is room. -/
theorem count_under (setting : Setting κ) (body : Render κ σ Unit) (value : Value)
    (position : Option Iteration) (state : Rendering κ (σ × Nat)) :
    ((under setting value position (counted body)).outcome state).2.output.2 =
      state.output.2 + if state.scope.depth < setting.config.scopeLimit then 1 else 0 := by
  rw [under, outcome_bind]
  by_cases hroom : state.scope.depth < setting.config.scopeLimit
  · rw [outcome_push_of_room value position hroom]
    simp only [outcome_andFinally, count_counted, hroom, if_true]
  · rw [outcome_push_of_full value position hroom]
    simp [hroom]

theorem le_count_elements (setting : Setting κ) (body : Render κ σ Unit) (size before : Nat)
    (values : List Value) (state : Rendering κ (σ × Nat)) :
    state.output.2 ≤
      ((elements setting (counted body) size before values).outcome state).2.output.2 := by
  induction values generalizing before state with
  | nil => exact Nat.le_refl _
  | cons value later ih =>
    have hfirst := count_under setting body value (some ⟨before + 1, size⟩) state
    rw [elements, outcome_bind]
    rcases hunder :
        (under setting value (some ⟨before + 1, size⟩) (counted body)).outcome state with
      ⟨error | a, after⟩
    all_goals
      rw [hunder] at hfirst
      have hstate : state.output.2 ≤ after.output.2 := hfirst ▸ Nat.le_add_right _ _
    · exact hstate
    · exact Nat.le_trans hstate (ih (before + 1) after)

/-- With room for a scope the body is begun for the first element, if there is one. -/
theorem lt_count_elements (body : Render κ σ Unit) {state : Rendering κ (σ × Nat)}
    (hroom : state.scope.depth < setting.config.scopeLimit) (size before : Nat)
    {values : List Value} (hsome : values ≠ []) :
    state.output.2 <
      ((elements setting (counted body) size before values).outcome state).2.output.2 := by
  cases values with
  | nil => contradiction
  | cons value later =>
    have hfirst := count_under setting body value (some ⟨before + 1, size⟩) state
    rw [elements, outcome_bind]
    rcases hunder :
        (under setting value (some ⟨before + 1, size⟩) (counted body)).outcome state with
      ⟨error | a, after⟩
    all_goals
      rw [hunder, if_pos hroom] at hfirst
      have hstate : state.output.2 < after.output.2 := Nat.lt_of_succ_le (Nat.le_of_eq hfirst.symm)
    · exact hstate
    · exact Nat.lt_of_lt_of_le hstate (le_count_elements setting body size (before + 1) later after)

end Blocks

end Render

/-- Whether a section shows its body for a value: some element, or the truth of what has none. -/
def Value.isShown (value : Value) : Bool :=
  match value.elements with
  | some found => !found.isEmpty
  | none => value.isTruthy

/-- A value is shown as it is true, but for a host object whose elements say otherwise. -/
theorem Value.isShown_eq_isTruthy_iff (value : Value) :
    value.isShown = value.isTruthy ↔ ∀ object elements, value = .object object →
      object.elements = some elements → object.truthy = !elements.isEmpty := by
  cases value with
  | object object =>
    constructor
    · rintro h _ elements ⟨⟩ helements
      simpa [isShown, Value.elements, isTruthy, helements, eq_comm] using h
    · intro h
      cases helements : object.elements with
      | none => simp [isShown, Value.elements, isTruthy, helements]
      | some elements => simp [isShown, Value.elements, isTruthy, helements, h object elements rfl]
  | _ => simp [isShown, Value.elements, isTruthy]

namespace Render

variable {κ σ : Type} {setting : Setting κ}

theorem begins_plainBlock (name : String) (body : Render κ σ Unit) {state : Rendering κ σ}
    (hroom : state.scope.depth < setting.config.scopeLimit) :
    1 ≤ timesBegun (plainBlock setting name) body state ↔
      (setting.naming.resolve state.scope name).any Value.isShown = true := by
  let start : Rendering κ (σ × Nat) := ⟨state.scope, state.store, (state.output, 0)⟩
  rw [timesBegun, plainBlock, outcome_resolve_bind]
  cases setting.naming.resolve state.scope name with
  | none => simp
  | some value =>
    simp only [Option.any_some, Value.isShown]
    cases value.elements with
    | none =>
      cases value.isTruthy with
      | false => simp
      | true => simp [count_under, hroom]
    | some found =>
      cases found with
      | nil => simp [elements]
      | cons first later =>
        have hbegun : start.output.2 < _ :=
          lt_count_elements body hroom (first :: later).length 0 (List.cons_ne_nil first later)
        exact iff_of_true (Nat.succ_le_of_lt hbegun) rfl

theorem timesBegun_invertedBlock (name : String) (body : Render κ σ Unit) (state : Rendering κ σ) :
    timesBegun (invertedBlock setting name) body state =
      if (setting.naming.resolve state.scope name).all Value.isFalsy then 1 else 0 := by
  rw [timesBegun, invertedBlock, outcome_resolve_bind]
  split
  · exact count_counted body _
  · rfl

/-- Of a section and the inverted section of the same name exactly one is active, whatever the name
stands for, unless it is a host object that offers elements and is true without any or false with
some. -/
theorem exactly_one_section_active_iff (setting : Setting κ) (name : String)
    (body inverted : Render κ σ Unit) {state : Rendering κ σ}
    (hroom : state.scope.depth < setting.config.scopeLimit) :
    (1 ≤ timesBegun (plainBlock setting name) body state ↔
      timesBegun (invertedBlock setting name) inverted state = 0) ↔
    ∀ object elements, setting.naming.resolve state.scope name = some (.object object) →
      object.elements = some elements → object.truthy = !elements.isEmpty := by
  rw [begins_plainBlock name body hroom, timesBegun_invertedBlock]
  cases setting.naming.resolve state.scope name with
  | none => simp
  | some value =>
    have hagree : (value.isShown = true ↔ value.isTruthy = true) ↔
        value.isShown = value.isTruthy := Bool.eq_iff_iff.symm
    have hfalsy : (if value.isFalsy then 1 else 0) = 0 ↔ value.isTruthy = true := by
      simp [Value.isFalsy]
    simp only [Option.any_some, Option.all_some, Option.some.injEq]
    rw [hfalsy, hagree, value.isShown_eq_isTruthy_iff]

def sectionState (value : Value) : Rendering Unit Unit :=
  ⟨.ofRoot "t" (.map [("o", value)]), (), ()⟩

def sectionSetting : Setting Unit where
  config := {}
  resolvers := .standard
  transform := fun _ _ => .null
  find := fun _ => pure none

/-- A collection of the host without elements, which is true as host objects are by default. -/
def emptyCollection : Value :=
  .object { identity := 0, member := fun _ => .ok none, elements := some [] }

theorem exactly_one_section_active_list :
    1 ≤ timesBegun (plainBlock sectionSetting "o") (pure ()) (sectionState (.list [.null])) ↔
      timesBegun (invertedBlock sectionSetting "o") (pure ()) (sectionState (.list [.null])) =
        0 := by
  have hroom : (sectionState (.list [.null])).scope.depth < sectionSetting.config.scopeLimit := by
    decide
  have hresolved : sectionSetting.naming.resolve (sectionState (.list [.null])).scope "o" =
      some (.list [.null]) := by
    rfl
  apply (exactly_one_section_active_iff sectionSetting "o" (pure ()) (pure ()) hroom).mpr
  rw [hresolved]
  rintro object elements ⟨⟩

/-- Neither section is active for a collection of the host without elements. -/
theorem not_exactly_one_section_active :
    ¬ ∀ (setting : Setting Unit) (name : String) (body inverted : Render Unit Unit Unit)
      (state : Rendering Unit Unit), state.scope.depth < setting.config.scopeLimit →
        (1 ≤ timesBegun (plainBlock setting name) body state ↔
          timesBegun (invertedBlock setting name) inverted state = 0) := by
  intro h
  have hone := h sectionSetting "o" (pure ()) (pure ()) (sectionState emptyCollection) (by decide)
  have hplain :
      timesBegun (plainBlock sectionSetting "o") (pure ()) (sectionState emptyCollection) = 0 := by
    decide +kernel
  have hinverted :
      timesBegun (invertedBlock sectionSetting "o") (pure ()) (sectionState emptyCollection) =
        0 := by
    decide +kernel
  omega

end Render

end Stencil
