import Stencil.Helper.Builtin

/-! What the standard helpers are made of. A property of actions that their requests have, and that
composing keeps, is one of all their calls. -/

namespace Stencil

open HelperAction

/-- One of the helpers that every template can count on. -/
def Helper.IsBuiltin (helper : Helper) : Prop := helper ∈ builtinHelpers.map Prod.snd

theorem Helper.IsBuiltin.cases {helper : Helper} (h : helper.IsBuiltin) :
    helper = ifHelper ∨ helper = unlessHelper ∨ helper = eachHelper ∨ helper = withHelper := by
  simpa only [IsBuiltin, builtinHelpers, List.map_cons, List.map_nil, List.mem_cons,
    List.not_mem_nil, or_false] using h

/-- A property that rendering the parts of a block has, under more scopes or not, and asking the
host, and composed actions if their parts do. -/
structure HelperAction.Combines (P : (α : Type) → HelperAction α → Prop) : Prop where
  pure : ∀ (α : Type) (a : α), P α (Pure.pure a)
  misused : ∀ (α : Type) name misuse, P α (ofExcept (.error (.invalidHelperUsage name misuse)))
  bind : ∀ {α β : Type} {action : HelperAction α} {rest : α → HelperAction β}, P α action →
    (∀ a, P β (rest a)) → P β (action >>= rest)
  renderBody : P Unit renderBody
  renderElse : P Unit renderElse
  apply : ∀ function argument, P Value (apply function argument)
  renderBodyUnder : ∀ value position, P Unit (renderBodyUnder value position)

structure HelperAction.Composes (P : (α : Type) → HelperAction α → Prop) : Prop
    extends Combines P where
  append : ∀ text, P Unit (append text)
  peek : P Value peek

section Calls

variable {P : (α : Type) → HelperAction α → Prop}

theorem Conditional.composed (h : Composes P) (c : Conditional) (call : Call) :
    P Unit (c.execute call) := by
  apply h.bind h.peek
  intro top
  split
  · exact h.renderBody
  · split
    · exact h.renderElse
    · split
      · exact h.append _
      · exact h.pure Unit ()

theorem withHelper_composed (h : Combines P) (call : Call) : P Unit (withHelper.execute call) := by
  simp only [withHelper]
  split
  · exact h.renderElse
  · exact h.renderBodyUnder _ _

namespace EachHelper

theorem element?_composed (h : Combines P) (transform : Option FunctionId) (element : Value) :
    P (Option Value) (element? transform element) := by
  unfold element?
  split
  · exact h.pure _ _
  · exact h.bind (h.apply _ _) fun answer => h.pure _ _

theorem renderElements_composed (h : Combines P) (transform : Option FunctionId) (size before : Nat)
    (rendered : Bool) (values : List Value) :
    P Bool (renderElements transform size before rendered values) := by
  induction values generalizing before rendered with
  | nil => exact h.pure Bool rendered
  | cons element later ih =>
    apply h.bind (element?_composed h transform element)
    intro answer
    split
    · exact ih _ _
    · exact h.bind (h.renderBodyUnder _ _) fun _ => ih _ _

theorem transform?_composed (h : Combines P) (call : Call) :
    P (Option FunctionId) (HelperAction.ofExcept (transform? call)) := by
  unfold transform?
  split
  · exact h.pure _ none
  · exact h.pure _ (some _)
  · exact h.misused _ _ _

theorem execute_composed (h : Combines P) (call : Call) : P Unit (execute call) := by
  simp only [execute]
  split
  · exact h.misused Unit _ _
  · apply h.bind (transform?_composed h call)
    intro transform
    apply h.bind (renderElements_composed h transform _ _ _ _)
    intro rendered
    split
    · exact h.pure Unit ()
    · exact h.renderElse

end EachHelper

/-- A property of combined actions is one of all calls of the standard helpers, if it is one of the
calls that test values for their truth. -/
theorem builtin_combined (h : Combines P) {call : Call}
    (hconditional : ∀ c : Conditional, c.isMatch = Value.isTruthy ∨ c.isMatch = Value.isFalsy →
      P Unit (c.execute call))
    {helper : Helper} (hhelper : helper.IsBuiltin) : P Unit (helper.execute call) := by
  rcases hhelper.cases with rfl | rfl | rfl | rfl
  · exact hconditional _ (.inl rfl)
  · exact hconditional _ (.inr rfl)
  · exact EachHelper.execute_composed h call
  · exact withHelper_composed h call

theorem builtin_composed (h : Composes P) {helper : Helper} (hhelper : helper.IsBuiltin)
    (call : Call) : P Unit (helper.execute call) :=
  builtin_combined h.toCombines (fun c _ => Conditional.composed h c call) hhelper

end Calls

/-- The standard helpers check no more than the parameters and keys of their tags. -/
theorem Helper.IsBuiltin.validate_eq {helper : Helper} (h : helper.IsBuiltin) :
    helper.validate = checkUsage helper.requiredParams helper.supportedKeys := by
  rcases h.cases with rfl | rfl | rfl | rfl <;> rfl

end Stencil
