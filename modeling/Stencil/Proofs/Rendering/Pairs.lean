import Stencil.Render

/-! Two renderings side by side, which may write to different places. A relation of their states
that both keep from step to step is one that they keep to their ends. -/

namespace Stencil.Render

variable {κ σ τ α β γ : Type}

/-- Two renderings that end with the same result in related states if they start in such. -/
def Pairs (related : Rendering κ σ → Rendering κ τ → Prop) (action : Render κ σ α)
    (other : Render κ τ α) : Prop :=
  ∀ state second, related state second →
    (other.outcome second).1 = (action.outcome state).1 ∧
      related (action.outcome state).2 (other.outcome second).2

variable {related : Rendering κ σ → Rendering κ τ → Prop}

theorem pairs_done (result : Except Error α) :
    Pairs related (done result : Render κ σ α) (done result) :=
  fun _ _ h => ⟨rfl, h⟩

theorem pairs_pure (a : α) : Pairs related (pure a : Render κ σ α) (pure a) := pairs_done _

/-- One step on each side. The answers may differ, if what follows them goes on alike. -/
theorem pairs_step {act : Rendering κ σ → β × Rendering κ σ}
    {second : Rendering κ τ → γ × Rendering κ τ} {next : β → Render κ σ α}
    {later : γ → Render κ τ α}
    (h : ∀ state other, related state other → related (act state).2 (second other).2 ∧
      Pairs related (next (act state).1) (later (second other).1)) :
    Pairs related (step act next) (step second later) := by
  intro state other hrelated
  obtain ⟨hchanged, hnext⟩ := h state other hrelated
  exact hnext _ _ hchanged

theorem pairs_ask_bind {f : Rendering κ σ → β} {g : Rendering κ τ → γ} {rest : β → Render κ σ α}
    {later : γ → Render κ τ α}
    (h : ∀ state other, related state other → Pairs related (rest (f state)) (later (g other))) :
    Pairs related (ask f >>= rest) (ask g >>= later) :=
  pairs_step fun state other hrelated => ⟨hrelated, h state other hrelated⟩

theorem Pairs.bind {action : Render κ σ α} {other : Render κ τ α} {rest : α → Render κ σ β}
    {later : α → Render κ τ β} (h : Pairs related action other)
    (hrest : ∀ a, Pairs related (rest a) (later a)) :
    Pairs related (action >>= rest) (other >>= later) := by
  intro state second hrelated
  obtain ⟨hresult, hlast⟩ := h state second hrelated
  rw [outcome_bind, outcome_bind]
  rcases hfirst : action.outcome state with ⟨error | a, changed⟩ <;>
    rcases hsecond : other.outcome second with ⟨fault | b, moved⟩ <;>
    simp only [hfirst, hsecond, Except.ok.injEq, Except.error.injEq, reduceCtorEq] at hresult hlast
  · exact ⟨congrArg Except.error hresult, hlast⟩
  · subst hresult
    exact hrest b changed moved hlast

theorem Pairs.attempt {action : Render κ σ α} {other : Render κ τ α}
    (h : Pairs related action other) : Pairs related action.attempt other.attempt := by
  intro state second hrelated
  obtain ⟨hresult, hlast⟩ := h state second hrelated
  rw [outcome_attempt, outcome_attempt]
  exact ⟨congrArg Except.ok hresult, hlast⟩

end Stencil.Render
