import Mathlib.Data.List.Forall2
import Stencil.Helper.Conditional

/-! What a conditional helper decides. Its parameters are tested in order up to the first that
settles the result, which is that of all or of some of them as the logic of the call says. One value
alone decides the same under every logic, and opposite tests decide the opposite under the other
logic. -/

namespace Stencil

def upToFirst {α : Type} (p : α → Bool) (elements : List α) : List α :=
  elements.takeWhile (fun a => !p a) ++ (elements.dropWhile fun a => !p a).take 1

namespace Logic

def word : Logic → String
  | .and => "and"
  | .or => "or"

def IsSpelled (logic : Logic) (text : String) : Prop :=
  List.Forall₂ (fun c letter => c = letter ∨ c = letter.toUpper) text.toList logic.word.toList

/-- Capital letters stand 32 places before the small ones. -/
theorem toLower_eq_iff {c letter : Char} (hletter : letter.isLower = true) :
    c.toLower = letter ↔ c = letter ∨ c = letter.toUpper := by
  have hsmall : 'a'.val ≤ letter.val ∧ letter.val ≤ 'z'.val := by
    obtain ⟨hfirst, hlast⟩ := Bool.and_eq_true_iff.mp hletter
    exact ⟨of_decide_eq_true hfirst, of_decide_eq_true hlast⟩
  delta Char.toLower Char.toUpper
  rw [dif_pos hsmall]
  simp only [Char.reduceVal, UInt32.le_iff_toNat_le, UInt32.reduceToNat] at hsmall
  split
  all_goals
    rename_i hc
    simp only [Char.reduceVal, UInt32.le_iff_toNat_le, ge_iff_le, UInt32.reduceToNat] at hc
    simp only [Char.ext_iff, ← UInt32.toNat_inj, UInt32.toNat_add, Char.reduceVal,
      UInt32.reduceSub, UInt32.reduceToNat]
    omega

theorem map_toLower_eq_iff {letters text : List Char}
    (hletters : ∀ letter ∈ letters, letter.isLower = true) :
    text.map Char.toLower = letters ↔
      List.Forall₂ (fun c letter => c = letter ∨ c = letter.toUpper) text letters := by
  induction letters generalizing text with
  | nil => simp
  | cons letter later ih =>
    obtain ⟨hletter, hlater⟩ := List.forall_mem_cons.mp hletters
    cases text with
    | nil => simp
    | cons c rest =>
      rw [List.map_cons, List.cons.injEq, toLower_eq_iff hletter, ih hlater, List.forall₂_cons]

theorem read?_eq_some_iff {text : String} {logic : Logic} :
    read? text = some logic ↔ logic.IsSpelled text := by
  have hlower : ∀ letter ∈ logic.word.toList, letter.isLower = true := by
    cases logic <;> simp [word]
  rw [IsSpelled, ← map_toLower_eq_iff hlower, read?]
  cases logic with
  | and => simp [word]
  | or =>
    by_cases hand : text.toList.map Char.toLower = "and".toList
    · simp [word, hand]
    · simp only [hand, if_false]
      simp [word]

instance (logic : Logic) (text : String) : Decidable (logic.IsSpelled text) :=
  decidable_of_iff (read? text = some logic) read?_eq_some_iff

/-! ### The values that are tested -/

section Tests

variable {α : Type} (isMatch : α → Bool) (values : List α)

theorem evaluate_cons (logic : Logic) (v : α) :
    logic.evaluate isMatch (v :: values) =
      (logic.decides (isMatch v)).getD (logic.evaluate isMatch values) := by
  cases h : logic.decides (isMatch v) <;> simp [evaluate, evaluateBy, h]

theorem evaluate_and : evaluate .and isMatch values = values.all isMatch := by
  induction values with
  | nil => rfl
  | cons v later ih =>
    rw [evaluate_cons, ih, List.all_cons]
    cases isMatch v <;> rfl

theorem evaluate_or : evaluate .or isMatch values = values.any isMatch := by
  induction values with
  | nil => rfl
  | cons v later ih =>
    rw [evaluate_cons, ih, List.any_cons]
    cases isMatch v <;> rfl

/-- One value alone decides the same under every logic. -/
theorem evaluateBy_singleton {m : Type → Type} [Monad m] [LawfulMonad m] (logic : Logic)
    (test : α → m Bool) (v : α) : logic.evaluateBy test [v] = test v := by
  refine Eq.trans (congrArg (test v >>= ·) (funext fun matched => ?_)) (bind_pure (test v))
  cases logic <;> cases matched <;> rfl

theorem evaluate_singleton (logic : Logic) (v : α) : logic.evaluate isMatch [v] = isMatch v := by
  rw [evaluate, evaluateBy_singleton]
  rfl

/-- Evaluating asks for the values up to the first that settles the result. -/
theorem run_evaluateBy_noting (logic : Logic) (seen : List α) :
    Id.run ((logic.evaluateBy (noting isMatch) values).run seen) =
      (logic.evaluate isMatch values,
        seen ++ upToFirst (fun v => (logic.decides (isMatch v)).isSome) values) := by
  induction values generalizing seen with
  | nil => simp [evaluateBy, evaluate, upToFirst]
  | cons v later ih =>
    rw [evaluate_cons]
    cases h : logic.decides (isMatch v) with
    | none => simp [evaluateBy, noting, upToFirst, h, ih]
    | some result => simp [evaluateBy, noting, upToFirst, h]

theorem tested_eq (logic : Logic) :
    logic.tested isMatch values =
      upToFirst (fun v => (logic.decides (isMatch v)).isSome) values := by
  rw [tested, run_evaluateBy_noting, List.nil_append]

end Tests

end Logic

namespace Conditional

/-- The logic of a call: the one that its `logic` argument spells, or the default one. -/
inductive Under (c : Conditional) (call : Call) : Logic → Prop where
  | named {value : Value} {logic : Logic} (hvalue : call.named? logicKey = some value)
      (hspelled : logic.IsSpelled value.text) : Under c call logic
  | default (hnone : ∀ value, call.named? logicKey = some value → ∀ logic : Logic,
      ¬ logic.IsSpelled value.text) : Under c call c.defaultLogic

def tests (call : Call) (top : Value) : List Value :=
  match call.params with
  | [] => [top]
  | params => params

variable {c : Conditional} {call : Call}

theorem under_iff {logic : Logic} : c.Under call logic ↔ c.logic call = logic := by
  rw [Conditional.logic]
  constructor
  · rintro (⟨hvalue, hspelled⟩ | hnone)
    · simp only [hvalue]
      rw [Logic.read?_eq_some_iff.mpr hspelled, Option.getD_some]
    · split
      · rfl
      · rename_i value hvalue
        cases hread : Logic.read? value.text with
        | none => rfl
        | some logic => exact absurd (Logic.read?_eq_some_iff.mp hread) (hnone value hvalue logic)
  · rintro rfl
    split
    · rename_i hvalue
      exact .default fun value hsome => nomatch hvalue.symm.trans hsome
    · rename_i value hvalue
      cases hread : Logic.read? value.text with
      | none =>
        refine .default fun other hsome logic hspelled => ?_
        obtain rfl := Option.some.inj (hvalue.symm.trans hsome)
        rw [Logic.read?_eq_some_iff.mpr hspelled] at hread
        contradiction
      | some logic => exact .named hvalue (Logic.read?_eq_some_iff.mp hread)

/-- All calls decide by evaluating, those with less than two parameters too. -/
theorem decisionBy_eq {m : Type → Type} [Monad m] [LawfulMonad m] (c : Conditional)
    (test : Value → m Bool) (call : Call) (top : Value) :
    c.decisionBy test call top = (c.logic call).evaluateBy test (tests call top) := by
  obtain ⟨tag, _ | ⟨single, _ | ⟨second, later⟩⟩, named, hasElse⟩ := call
  · exact (Logic.evaluateBy_singleton _ test top).symm
  · exact (Logic.evaluateBy_singleton _ test single).symm
  · rfl

theorem decision_eq (c : Conditional) (call : Call) (top : Value) :
    c.decision call top = (c.logic call).evaluate c.isMatch (tests call top) := by
  rw [decision, decisionBy_eq, Logic.evaluate]

theorem tests_of_params (h : call.params ≠ []) (top : Value) : tests call top = call.params := by
  obtain ⟨first, later, hparams⟩ := List.exists_cons_of_ne_nil h
  rw [tests, hparams]

/-- A decision asks for the values up to the first that settles it, and no others. -/
theorem run_decisionBy_noting (c : Conditional) (call : Call) (top : Value) :
    Id.run ((c.decisionBy (Logic.noting c.isMatch) call top).run []) =
      (c.decision call top,
        upToFirst (fun v => ((c.logic call).decides (c.isMatch v)).isSome) (tests call top)) := by
  rw [decisionBy_eq, Logic.run_evaluateBy_noting, decision_eq, List.nil_append]

/-- A call decides as its logic says, and its test is asked for no more than that takes. -/
structure DecidesByLogic (c : Conditional) (call : Call) (top : Value) : Prop where
  alone : call.params = [] → c.decision call top = c.isMatch top
  all : call.params ≠ [] → c.Under call .and → c.decision call top = call.params.all c.isMatch
  any : call.params ≠ [] → c.Under call .or → c.decision call top = call.params.any c.isMatch
  logic : ∃! logic, c.Under call logic
  single : ∀ v, call.params = [v] → ∀ logic : Logic,
    logic.evaluate c.isMatch [v] = c.decision call top
  plain : Id.run (c.decisionBy (fun v => pure (c.isMatch v)) call top) = c.decision call top
  asked : ∀ logic, c.Under call logic →
    Id.run ((c.decisionBy (Logic.noting c.isMatch) call top).run []) =
      (c.decision call top,
        upToFirst (fun v => (logic.decides (c.isMatch v)).isSome) (tests call top))

theorem decidesByLogic (c : Conditional) (call : Call) (top : Value) :
    c.DecidesByLogic call top where
  alone hparams := by
    rw [decision, decisionBy, hparams]
    rfl
  all hparams hunder := by
    rw [decision_eq, tests_of_params hparams, under_iff.mp hunder, Logic.evaluate_and]
  any hparams hunder := by
    rw [decision_eq, tests_of_params hparams, under_iff.mp hunder, Logic.evaluate_or]
  logic := ⟨c.logic call, under_iff.mpr rfl, fun _ hunder => (under_iff.mp hunder).symm⟩
  single v hparams logic := by
    rw [Logic.evaluate_singleton, decision, decisionBy, hparams]
    rfl
  plain := rfl
  asked logic hunder := by rw [← under_iff.mp hunder, run_decisionBy_noting]

/-- Opposite tests decide the opposite of the same values, one under `or` and the other under
`and`. -/
theorem decision_opposite {d : Conditional} (hmatch : ∀ v, d.isMatch v = !c.isMatch v)
    {other : Call} (hparams : other.params = call.params) (hor : c.Under call .or)
    (hand : d.Under other .and) (top : Value) : d.decision other top = !c.decision call top := by
  have htests : tests other top = tests call top := by rw [tests, tests, hparams]
  rw [decision_eq, decision_eq, under_iff.mp hor, under_iff.mp hand, Logic.evaluate_and,
    Logic.evaluate_or, htests, funext hmatch, List.not_any_eq_all_not]

end Conditional

end Stencil
