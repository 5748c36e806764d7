import Stencil.Proofs.Helper.Builtin

/-! The standard helpers are discreet about the open scopes: all they learn from them is whether the
innermost value is truthy. The only text that they write themselves is a named argument. -/

namespace Stencil

namespace Script

variable {α β : Type}

/-- Learns from the open scopes only whether the innermost value is truthy, looks up no names, and
writes no other texts itself than allowed ones. -/
def IsDiscreet (allowed : String → Prop) : Script α → Prop
  | .done _ => True
  | .push _ _ next => ∀ answer, (next answer).IsDiscreet allowed
  | .pop next => (∀ a b, next a = next b) ∧ ∀ answer, (next answer).IsDiscreet allowed
  | .renderBody next => ∀ answer, (next answer).IsDiscreet allowed
  | .renderElse next => ∀ answer, (next answer).IsDiscreet allowed
  | .append text next => allowed text ∧ ∀ answer, (next answer).IsDiscreet allowed
  | .peek next =>
    (∀ a b : Value, a.isTruthy = b.isTruthy → next a = next b) ∧
      ∀ answer, (next answer).IsDiscreet allowed
  | .resolve .. => False
  | .apply _ _ next => ∀ answer, (next answer).IsDiscreet allowed

theorem IsDiscreet.bind {allowed : String → Prop} {script : Script α}
    (h : script.IsDiscreet allowed) {rest : α → Script β}
    (hrest : ∀ a, (rest a).IsDiscreet allowed) : (script.bind rest).IsDiscreet allowed := by
  induction script with
  | done result => exact hrest result
  | push value position next ih => exact fun answer => ih answer (h answer)
  | pop next ih =>
    exact ⟨fun a b => congrArg (Script.bind · rest) (h.1 a b), fun answer => ih answer (h.2 answer)⟩
  | renderBody next ih => exact fun answer => ih answer (h answer)
  | renderElse next ih => exact fun answer => ih answer (h answer)
  | append text next ih => exact ⟨h.1, fun answer => ih answer (h.2 answer)⟩
  | peek next ih =>
    exact ⟨fun a b hsame => congrArg (Script.bind · rest) (h.1 a b hsame),
      fun answer => ih answer (h.2 answer)⟩
  | resolve name next => exact h.elim
  | apply function argument next ih => exact fun answer => ih answer (h answer)

end Script

theorem HelperAction.discreet_combines (allowed : String → Prop) :
    Combines fun _ action => Script.IsDiscreet allowed action.run where
  pure _ _ := trivial
  misused _ _ _ := trivial
  bind h hrest := by
    refine h.bind fun result => ?_
    cases result with
    | ok a => exact hrest a
    | error error => trivial
  renderBody _ := trivial
  renderElse _ := trivial
  apply _ _ _ := trivial
  renderBodyUnder value position := by
    intro opened
    cases opened with
    | error error => trivial
    | ok _ => exact fun _ => ⟨fun _ _ => rfl, fun _ => trivial⟩

namespace Conditional

def decided (call : Call) (decision : Bool) : HelperAction Unit :=
  if decision then HelperAction.renderBody
  else if call.hasElse then HelperAction.renderElse
  else (call.named? elseKey).elim (pure ()) fun value => HelperAction.append value.text

theorem run_execute (c : Conditional) (call : Call) :
    (c.execute call).run = .peek fun top => (decided call (c.decision call top)).run := by
  unfold execute decided
  cases call.named? elseKey <;> rfl

theorem discreet_decided {allowed : String → Prop} {call : Call}
    (hallowed : ∀ value, call.named? elseKey = some value → allowed value.text)
    (decision : Bool) : Script.IsDiscreet allowed (decided call decision).run := by
  unfold decided
  split
  · exact fun _ => trivial
  · split
    · exact fun _ => trivial
    · cases hnamed : call.named? elseKey with
      | none => trivial
      | some value => exact ⟨hallowed value hnamed, fun _ => trivial⟩

variable {c : Conditional} (htruth : c.isMatch = Value.isTruthy ∨ c.isMatch = Value.isFalsy)

include htruth

theorem isMatch_congr {a b : Value} (h : a.isTruthy = b.isTruthy) : c.isMatch a = c.isMatch b := by
  rcases htruth with hmatch | hmatch <;> rw [hmatch]
  · exact h
  · exact congrArg not h

theorem decision_congr (call : Call) {a b : Value} (h : a.isTruthy = b.isTruthy) :
    c.decision call a = c.decision call b := by
  unfold decision decisionBy
  split
  · exact isMatch_congr htruth h
  · rfl
  · rfl

theorem discreet_execute {allowed : String → Prop} {call : Call}
    (hallowed : ∀ value, call.named? elseKey = some value → allowed value.text) :
    Script.IsDiscreet allowed (c.execute call).run := by
  rw [run_execute]
  refine ⟨fun a b hsame => ?_, fun top => discreet_decided hallowed _⟩
  exact congrArg (fun decision => (decided call decision).run) (decision_congr htruth call hsame)

end Conditional

def Helper.IsDiscreet (helper : Helper) : Prop :=
  ∀ (allowed : String → Prop) (call : Call),
    (∀ value, call.named? Conditional.elseKey = some value → allowed value.text) →
      Script.IsDiscreet allowed (helper.execute call).run

theorem Helper.IsBuiltin.discreet {helper : Helper} (h : helper.IsBuiltin) : helper.IsDiscreet :=
  fun allowed _ hallowed => builtin_combined (HelperAction.discreet_combines allowed)
    (fun _ htruth => Conditional.discreet_execute htruth hallowed) h

end Stencil
