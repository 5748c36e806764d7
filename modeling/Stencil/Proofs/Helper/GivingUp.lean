import Stencil.Proofs.Helper.Builtin

/-! The standard helpers give up where a request of theirs fails: whatever they still do, they end
with an error. -/

namespace Stencil

namespace Script

variable {α β : Type}

def Fails : Script (Except Error α) → Prop
  | .done result => ∀ a, result ≠ .ok a
  | .push _ _ next => ∀ answer, (next answer).Fails
  | .pop next => ∀ answer, (next answer).Fails
  | .renderBody next => ∀ answer, (next answer).Fails
  | .renderElse next => ∀ answer, (next answer).Fails
  | .append _ next => ∀ answer, (next answer).Fails
  | .peek next => ∀ answer, (next answer).Fails
  | .resolve _ next => ∀ answer, (next answer).Fails
  | .apply _ _ next => ∀ answer, (next answer).Fails

/-- Ends with an error wherever a request fails. -/
def GivesUp : Script (Except Error α) → Prop
  | .done _ => True
  | .push _ _ next => (∀ error, (next (.error error)).Fails) ∧ (next (.ok ())).GivesUp
  | .pop next => ∀ answer, (next answer).GivesUp
  | .renderBody next => (∀ error, (next (.error error)).Fails) ∧ (next (.ok ())).GivesUp
  | .renderElse next => (∀ error, (next (.error error)).Fails) ∧ (next (.ok ())).GivesUp
  | .append _ next => (∀ error, (next (.error error)).Fails) ∧ (next (.ok ())).GivesUp
  | .peek next => ∀ answer, (next answer).GivesUp
  | .resolve _ next => ∀ answer, (next answer).GivesUp
  | .apply _ _ next => ∀ answer, (next answer).GivesUp

/-- What follows a result makes no result of an error. -/
theorem Fails.bind {script : Script (Except Error α)} (h : script.Fails)
    {rest : Except Error α → Script (Except Error β)}
    (herror : ∀ error, rest (.error error) = .done (.error error)) : (script.bind rest).Fails := by
  induction script with
  | done result =>
    cases result with
    | ok a => exact absurd rfl (h a)
    | error error =>
      rw [Script.bind, herror]
      simp [Fails]
  | push value position next ih => exact fun answer => ih answer (h answer)
  | pop next ih => exact fun answer => ih answer (h answer)
  | renderBody next ih => exact fun answer => ih answer (h answer)
  | renderElse next ih => exact fun answer => ih answer (h answer)
  | append text next ih => exact fun answer => ih answer (h answer)
  | peek next ih => exact fun answer => ih answer (h answer)
  | resolve name next ih => exact fun answer => ih answer (h answer)
  | apply function argument next ih => exact fun answer => ih answer (h answer)

theorem GivesUp.bind {script : Script (Except Error α)} (h : script.GivesUp)
    {rest : Except Error α → Script (Except Error β)} (hok : ∀ a, (rest (.ok a)).GivesUp)
    (herror : ∀ error, rest (.error error) = .done (.error error)) :
    (script.bind rest).GivesUp := by
  induction script with
  | done result =>
    cases result with
    | ok a => exact hok a
    | error error =>
      rw [Script.bind, herror]
      trivial
  | push value position next ih => exact ⟨fun error => (h.1 error).bind herror, ih _ h.2⟩
  | pop next ih => exact fun answer => ih answer (h answer)
  | renderBody next ih => exact ⟨fun error => (h.1 error).bind herror, ih _ h.2⟩
  | renderElse next ih => exact ⟨fun error => (h.1 error).bind herror, ih _ h.2⟩
  | append text next ih => exact ⟨fun error => (h.1 error).bind herror, ih _ h.2⟩
  | peek next ih => exact fun answer => ih answer (h answer)
  | resolve name next ih => exact fun answer => ih answer (h answer)
  | apply function argument next ih => exact fun answer => ih answer (h answer)

end Script

theorem HelperAction.givesUp_composes : Composes fun _ action => Script.GivesUp action.run where
  pure _ _ := trivial
  misused _ _ _ := trivial
  bind h hrest := h.bind hrest fun _ => rfl
  renderBody := ⟨fun _ _ => nofun, trivial⟩
  renderElse := ⟨fun _ _ => nofun, trivial⟩
  append _ := ⟨fun _ _ => nofun, trivial⟩
  peek _ := trivial
  apply _ _ _ := trivial
  -- The error of a body is kept until its scope is popped.
  renderBodyUnder _ _ := ⟨fun _ _ => nofun, fun _ _ _ => nofun, fun _ => trivial⟩

def Helper.GivesUp (helper : Helper) : Prop := ∀ call, Script.GivesUp (helper.execute call).run

theorem Helper.IsBuiltin.givesUp {helper : Helper} (h : helper.IsBuiltin) : helper.GivesUp :=
  builtin_composed HelperAction.givesUp_composes h

end Stencil
