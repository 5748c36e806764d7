import Stencil.Effect

/-! Equations for actions that change a state, pairs of actions that go alike, and actions that keep
to one result. -/

universe u

namespace Stencil

/-- The same error on both sides, or results that are related. -/
inductive Agree {α β : Type} (related : α → β → Prop) : Except Error α → Except Error β → Prop where
  | error (error : Error) : Agree related (.error error) (.error error)
  | ok {a : α} {b : β} (h : related a b) : Agree related (.ok a) (.ok b)

theorem agree_of_map {α β γ : Type} {f : α → γ} {g : β → γ} {first : Except Error α}
    {second : Except Error β} (h : second.map g = first.map f) :
    Agree (fun a b => g b = f a) first second := by
  cases first <;> cases second <;>
    simp only [Except.map, Except.ok.injEq, Except.error.injEq, reduceCtorEq] at h
  · subst h
    exact .error _
  · exact .ok h

theorem agree_eq {α : Type} {first second : Except Error α} (h : second = first) :
    Agree (fun a b => b = a) first second := by
  subst h
  cases second with
  | error error => exact .error error
  | ok a => exact .ok rfl

theorem Agree.eq {α : Type} {first second : Except Error α}
    (h : Agree (fun a b => b = a) first second) : second = first := by
  cases h with
  | error error => rfl
  | ok h => exact congrArg Except.ok h

theorem Agree.map {α β : Type} {γ : Type u} {related : α → β → Prop} {f : α → γ} {g : β → γ}
    {first : Except Error α} {second : Except Error β} (h : Agree related first second)
    (hmap : ∀ a b, related a b → g b = f a) : second.map g = first.map f := by
  cases h with
  | error error => rfl
  | ok h => exact congrArg Except.ok (hmap _ _ h)

namespace Effect

variable {σ τ α β γ δ : Type}

theorem outcome_map (f : α → β) (action : Effect σ α) (state : σ) :
    (f <$> action).outcome state =
      ((action.outcome state).1.map f, (action.outcome state).2) := by
  rw [map_eq_pure_bind, outcome_bind]
  rcases action.outcome state with ⟨error | a, changed⟩ <;> rfl

theorem outcome_onPart (part : Part σ τ) (action : Effect τ α) (state : σ) :
    (action.onPart part).outcome state =
      ((action.outcome (part.get state)).1, part.set (action.outcome (part.get state)).2 state) :=
  rfl

/-- From related states two actions end in related states, with results that agree. -/
def Matches (related : σ → σ → Prop) (results : α → β → Prop) (action : Effect σ α)
    (other : Effect σ β) : Prop :=
  ∀ state second, related state second →
    Agree results (action.outcome state).1 (other.outcome second).1 ∧
      related (action.outcome state).2 (other.outcome second).2

variable {related : σ → σ → Prop} {results : α → β → Prop}

theorem matches_ofExcept {first : Except Error α} {second : Except Error β}
    (h : Agree results first second) : Matches related results (ofExcept first) (ofExcept second) :=
  fun _ _ hstate => ⟨h, hstate⟩

theorem matches_pure {a : α} {b : β} (h : results a b) :
    Matches related results (pure a) (pure b) := fun _ _ hstate => ⟨.ok h, hstate⟩

theorem Matches.bind {later : γ → δ → Prop} {action : Effect σ α} {other : Effect σ β}
    {rest : α → Effect σ γ} {second : β → Effect σ δ} (h : Matches related results action other)
    (hrest : ∀ a b, results a b → Matches related later (rest a) (second b)) :
    Matches related later (action >>= rest) (other >>= second) := by
  intro state moved hstate
  obtain ⟨hagree, hchanged⟩ := h state moved hstate
  rw [outcome_bind, outcome_bind]
  rcases hfirst : action.outcome state with ⟨error | a, changed⟩ <;>
    rcases hsecond : other.outcome moved with ⟨fault | b, behind⟩ <;>
    rw [hfirst, hsecond] at hagree hchanged <;> cases hagree
  · exact ⟨.error error, hchanged⟩
  · rename_i hresults
    exact hrest a b hresults changed behind hchanged

/-- In states that are alike an action has one result. They stay alike if it runs in both of them,
or in the second one alone. -/
def Steady (alike : σ → σ → Prop) (action : Effect σ α) : Prop :=
  ∃ result, ∀ state second, alike state second →
    (action.outcome state).1 = result ∧ (action.outcome second).1 = result ∧
      alike (action.outcome state).2 (action.outcome second).2 ∧
      alike state (action.outcome second).2

variable {alike : σ → σ → Prop}

theorem steady_pure (a : α) : Steady alike (pure a : Effect σ α) :=
  ⟨.ok a, fun _ _ halike => ⟨rfl, rfl, halike, halike⟩⟩

theorem Steady.bind {action : Effect σ α} {rest : α → Effect σ β} (h : Steady alike action)
    (hrest : ∀ a, Steady alike (rest a)) : Steady alike (action >>= rest) := by
  obtain ⟨error | a, haction⟩ := h
  · refine ⟨.error error, fun state second halike => ?_⟩
    obtain ⟨hstate, hsecond, hboth, halone⟩ := haction state second halike
    rw [outcome_bind, outcome_bind]
    rcases hfirst : action.outcome state with ⟨first, changed⟩
    rcases hmoved : action.outcome second with ⟨other, behind⟩
    simp only [hfirst, hmoved] at hstate hsecond hboth halone
    subst hstate hsecond
    exact ⟨rfl, rfl, hboth, halone⟩
  · obtain ⟨result, hresult⟩ := hrest a
    refine ⟨result, fun state second halike => ?_⟩
    obtain ⟨hstate, hsecond, hboth, halone⟩ := haction state second halike
    rw [outcome_bind, outcome_bind]
    rcases hfirst : action.outcome state with ⟨first, changed⟩
    rcases hmoved : action.outcome second with ⟨other, behind⟩
    simp only [hfirst, hmoved] at hstate hsecond hboth halone
    subst hstate hsecond
    obtain ⟨hlast, hother, hlastBoth, -⟩ := hresult changed behind hboth
    obtain ⟨-, -, -, hlastAlone⟩ := hresult state behind halone
    exact ⟨hlast, hother, hlastBoth, hlastAlone⟩

inductive Runs {ι : Type} (action : ι → Effect σ α) : List ι → List α → σ → σ → Prop where
  | nil (state : σ) : Runs action [] [] state state
  | cons {i : ι} {later : List ι} {a : α} {results : List α} {state between after : σ}
      (hfirst : (action i).outcome state = (.ok a, between))
      (hlater : Runs action later results between after) :
      Runs action (i :: later) (a :: results) state after

/-- Of several actions all run, or one fails behind others that run. -/
theorem runs_or_fails {ι : Type} (action : ι → Effect σ α) (elements : List ι) (state : σ) :
    (∃ results after, Runs action elements results state after) ∨
      ∃ earlier i later results between error after, elements = earlier ++ i :: later ∧
        Runs action earlier results state between ∧
        (action i).outcome between = (.error error, after) := by
  induction elements generalizing state with
  | nil => exact .inl ⟨[], state, .nil state⟩
  | cons first others ih =>
    rcases hfirst : (action first).outcome state with ⟨error | a, between⟩
    · exact .inr ⟨[], first, others, [], state, error, between, rfl, .nil state, hfirst⟩
    · rcases ih between with ⟨results, after, hothers⟩ |
        ⟨earlier, i, later, results, moved, error, after, rfl, hearlier, hfailed⟩
      · exact .inl ⟨a :: results, after, .cons hfirst hothers⟩
      · exact .inr ⟨first :: earlier, i, later, a :: results, moved, error, after, rfl,
          .cons hfirst hearlier, hfailed⟩

end Effect

end Stencil
