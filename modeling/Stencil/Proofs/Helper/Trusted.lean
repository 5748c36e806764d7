import Stencil.Proofs.Helper.Builtin
import Stencil.Proofs.Rendering.Refusals

/-! The standard helpers make up no errors for limits: they only pass on those they are answered
with. -/

namespace Stencil

namespace Script

variable {α β : Type}

/-- The error a script ends with, if it is one for a limit, is known or was an answer on the way. -/
def PassesOn : (Error → Prop) → Script (Except Error α) → Prop
  | known, .done result => Passed known result
  | known, .push _ _ next => ∀ answer, (next answer).PassesOn fun e => known e ∨ answer = .error e
  | known, .pop next => ∀ answer, (next answer).PassesOn known
  | known, .renderBody next =>
    ∀ answer, (next answer).PassesOn fun e => known e ∨ answer = .error e
  | known, .renderElse next =>
    ∀ answer, (next answer).PassesOn fun e => known e ∨ answer = .error e
  | known, .append _ next => ∀ answer, (next answer).PassesOn fun e => known e ∨ answer = .error e
  | known, .peek next => ∀ answer, (next answer).PassesOn known
  | known, .resolve _ next => ∀ answer, (next answer).PassesOn known
  | known, .apply _ _ next => ∀ answer, (next answer).PassesOn known

/-- A script passes on what it ends with, if what follows a result does so on its own. -/
theorem PassesOn.bind {script : Script (Except Error α)} {known : Error → Prop}
    (h : script.PassesOn known) {rest : Except Error α → Script (Except Error β)}
    (hok : ∀ a known, (rest (.ok a)).PassesOn known)
    (herror : ∀ error, rest (.error error) = .done (.error error)) :
    (script.bind rest).PassesOn known := by
  induction script generalizing known with
  | done result =>
    cases result with
    | ok a => exact hok a known
    | error error =>
      rw [Script.bind, herror]
      exact fun other hother => h other (congrArg Except.error (Except.error.inj hother))
  | push value position next ih => exact fun answer => ih answer (h answer)
  | pop next ih => exact fun answer => ih answer (h answer)
  | renderBody next ih => exact fun answer => ih answer (h answer)
  | renderElse next ih => exact fun answer => ih answer (h answer)
  | append text next ih => exact fun answer => ih answer (h answer)
  | peek next ih => exact fun answer => ih answer (h answer)
  | resolve name next ih => exact fun answer => ih answer (h answer)
  | apply function argument next ih => exact fun answer => ih answer (h answer)

end Script

namespace HelperAction

variable {α β : Type}

def PassesOn (action : HelperAction α) : Prop := ∀ known, Script.PassesOn known action.run

theorem passesOn_ofExcept {result : Except Error α}
    (h : ∀ error, result = .error error → error.isLimit = false) : (ofExcept result).PassesOn := by
  intro known error herror hlimit
  rw [h error herror] at hlimit
  contradiction

theorem passesOn_pure (a : α) : (pure a : HelperAction α).PassesOn := fun known => passed_ok known a

theorem PassesOn.bind {action : HelperAction α} {rest : α → HelperAction β} (h : action.PassesOn)
    (hrest : ∀ a, (rest a).PassesOn) : (action >>= rest).PassesOn :=
  fun known => (h known).bind (fun a known => hrest a known) fun _ => rfl

theorem passed_answer {known : Error → Prop} (answer : Except Error Unit) :
    Passed (fun error => known error ∨ answer = .error error) answer :=
  fun _ herror _ => .inr herror

theorem passesOn_renderBody : renderBody.PassesOn := fun _ answer => passed_answer answer

theorem passesOn_renderElse : renderElse.PassesOn := fun _ answer => passed_answer answer

theorem passesOn_append (text : String) : (append text).PassesOn := fun _ answer =>
  passed_answer answer

theorem passesOn_peek : peek.PassesOn := fun known answer => passed_ok known answer

theorem passesOn_apply (function : FunctionId) (argument : Value) :
    (apply function argument).PassesOn := fun known answer => passed_ok known answer

theorem passesOn_renderBodyUnder (value : Value) (position : Option Iteration) :
    (renderBodyUnder value position).PassesOn := by
  intro known answer
  cases answer with
  | error error => exact passed_answer (.error error)
  | ok _ => exact fun rendered _ => passed_answer rendered

theorem passesOn_composes : Composes fun _ action => action.PassesOn where
  pure _ a := passesOn_pure a
  misused _ _ _ := passesOn_ofExcept fun _ herror => Except.error.inj herror ▸ rfl
  bind h hrest := h.bind hrest
  renderBody := passesOn_renderBody
  renderElse := passesOn_renderElse
  append := passesOn_append
  peek := passesOn_peek
  apply := passesOn_apply
  renderBodyUnder := passesOn_renderBodyUnder

end HelperAction

structure Helper.Trusted (helper : Helper) : Prop where
  calls : ∀ call, (helper.execute call).PassesOn
  checks : ∀ tag error, helper.validate tag = .error error → error.isLimit = false

theorem isLimit_of_checkUsage {required : Nat} {supported : SupportedKeys} {tag : HelperTag}
    {error : Error} (h : checkUsage required supported tag = .error error) :
    error.isLimit = false := by
  unfold checkUsage at h
  split at h
  · exact Except.error.inj h ▸ rfl
  · split at h
    · contradiction
    · contradiction
    · split at h
      · exact Except.error.inj h ▸ rfl
      · contradiction

theorem Helper.IsBuiltin.trusted {helper : Helper} (h : helper.IsBuiltin) : helper.Trusted := by
  constructor
  · exact builtin_composed HelperAction.passesOn_composes h
  · intro tag error herror
    rw [h.validate_eq] at herror
    exact isLimit_of_checkUsage herror

end Stencil
