import Stencil.Proofs.Helper.Builtin

/-! The standard helpers heed a refused write: they ask for nothing more that could write, and end
with its error. -/

namespace Stencil

namespace Script

variable {α β : Type}

/-- Ends with the error of a refused write, and asks for nothing on the way that could write. -/
def Stops : Script (Except Error α) → Prop
  | .done result => result = .error .write
  | .pop next => ∀ answer, (next answer).Stops
  | .peek next => ∀ answer, (next answer).Stops
  | .resolve _ next => ∀ answer, (next answer).Stops
  | .apply _ _ next => ∀ answer, (next answer).Stops
  | .push .. => False
  | .renderBody _ => False
  | .renderElse _ => False
  | .append .. => False

def Heeds : Script (Except Error α) → Prop
  | .done _ => True
  | .push _ _ next => ∀ answer, (next answer).Heeds
  | .pop next => ∀ answer, (next answer).Heeds
  | .renderBody next => (next (.error .write)).Stops ∧ ∀ answer, (next answer).Heeds
  | .renderElse next => (next (.error .write)).Stops ∧ ∀ answer, (next answer).Heeds
  | .append _ next => (next (.error .write)).Stops ∧ ∀ answer, (next answer).Heeds
  | .peek next => ∀ answer, (next answer).Heeds
  | .resolve _ next => ∀ answer, (next answer).Heeds
  | .apply _ _ next => ∀ answer, (next answer).Heeds

/-- A script that stops does nothing that follows a result. -/
theorem Stops.bind {script : Script (Except Error α)} (h : script.Stops)
    {rest : Except Error α → Script (Except Error β)}
    (herror : ∀ error, rest (.error error) = .done (.error error)) : (script.bind rest).Stops := by
  induction script with
  | done result =>
    obtain rfl : result = .error .write := h
    rw [Script.bind, herror]
    rfl
  | push value position next => exact h.elim
  | pop next ih => exact fun answer => ih answer (h answer)
  | renderBody next => exact h.elim
  | renderElse next => exact h.elim
  | append text next => exact h.elim
  | peek next ih => exact fun answer => ih answer (h answer)
  | resolve name next ih => exact fun answer => ih answer (h answer)
  | apply function argument next ih => exact fun answer => ih answer (h answer)

theorem Heeds.bind {script : Script (Except Error α)} (h : script.Heeds)
    {rest : Except Error α → Script (Except Error β)} (hok : ∀ a, (rest (.ok a)).Heeds)
    (herror : ∀ error, rest (.error error) = .done (.error error)) : (script.bind rest).Heeds := by
  induction script with
  | done result =>
    cases result with
    | ok a => exact hok a
    | error error =>
      rw [Script.bind, herror]
      trivial
  | push value position next ih => exact fun answer => ih answer (h answer)
  | pop next ih => exact fun answer => ih answer (h answer)
  | renderBody next ih => exact ⟨h.1.bind herror, fun answer => ih answer (h.2 answer)⟩
  | renderElse next ih => exact ⟨h.1.bind herror, fun answer => ih answer (h.2 answer)⟩
  | append text next ih => exact ⟨h.1.bind herror, fun answer => ih answer (h.2 answer)⟩
  | peek next ih => exact fun answer => ih answer (h answer)
  | resolve name next ih => exact fun answer => ih answer (h answer)
  | apply function argument next ih => exact fun answer => ih answer (h answer)

end Script

theorem HelperAction.heeds_composes : Composes fun _ action => Script.Heeds action.run where
  pure _ _ := trivial
  misused _ _ _ := trivial
  bind h hrest := h.bind hrest fun _ => rfl
  renderBody := ⟨rfl, fun _ => trivial⟩
  renderElse := ⟨rfl, fun _ => trivial⟩
  append _ := ⟨rfl, fun _ => trivial⟩
  peek _ := trivial
  apply _ _ _ := trivial
  renderBodyUnder value position := by
    intro opened
    cases opened with
    | error error => trivial
    -- The scope is popped behind a refused write, which its error outlasts.
    | ok _ => exact ⟨fun _ => rfl, fun _ _ => trivial⟩

def Helper.Heeds (helper : Helper) : Prop := ∀ call, Script.Heeds (helper.execute call).run

theorem Helper.IsBuiltin.heeds {helper : Helper} (h : helper.IsBuiltin) : helper.Heeds :=
  builtin_composed HelperAction.heeds_composes h

end Stencil
