import Stencil.Scope

/-! What opening and closing scopes leaves as it was. -/

namespace Stencil.Scope

theorem inclusions_of_push {scope opened : Scope} {limit : Nat} {value : Value}
    {position : Option Iteration} (h : scope.push limit value position = .ok opened) :
    opened.inclusions = scope.inclusions := by
  unfold push at h
  split at h
  · contradiction
  · exact (Except.ok.inj h) ▸ rfl

theorem inclusions_pop (scope : Scope) : scope.pop.2.inclusions = scope.inclusions := by
  unfold pop
  split <;> rfl

theorem value_pop (scope : Scope) : scope.pop.1 = scope.frames.head?.map Frame.value := by
  obtain ⟨template, _ | ⟨frame, outer⟩, inclusions⟩ := scope <;> rfl

theorem pop_eq (scope : Scope) :
    scope.pop =
      (scope.frames.head?.map Frame.value, { scope with frames := scope.frames.tail }) := by
  obtain ⟨template, _ | ⟨frame, outer⟩, inclusions⟩ := scope <;> rfl

theorem frames_pop (scope : Scope) : scope.pop.2.frames = scope.frames.tail := by
  obtain ⟨template, _ | ⟨frame, outer⟩, inclusions⟩ := scope <;> rfl

theorem frames_pop_le (scope : Scope) : scope.pop.2.frames.length ≤ scope.frames.length := by
  obtain ⟨template, _ | ⟨frame, outer⟩, inclusions⟩ := scope
  · exact Nat.le_refl _
  · exact Nat.le_succ _

end Stencil.Scope
