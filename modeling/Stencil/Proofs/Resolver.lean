import Stencil.Resolver

/-! What strategies find: never null, one by one or in a chain. The standard ones find nothing
without a candidate, and take `this` for the candidate itself. -/

namespace Stencil

namespace Value

def found? (value : Value) : Option Value := if value.isNull then none else some value

theorem isNull_eq_true {value : Value} : value.isNull = true ↔ value = .null := by
  cases value <;> simp [isNull]

theorem found?_of_ne_null {value : Value} (h : value ≠ .null) : value.found? = some value :=
  if_neg fun hnull => h (isNull_eq_true.mp hnull)

theorem found?_eq_none_iff {value : Value} : value.found? = none ↔ value = .null := by
  rw [found?, ← isNull_eq_true]
  split <;> simp_all

end Value

namespace Resolver

theorem find?_of_answer {resolver : Resolver} {candidate : Option Value} {name : String}
    {answer : Option Value} (h : resolver.answer candidate name = .ok answer) :
    resolver.find? candidate name = answer.bind Value.found? := by
  rw [find?, h]
  rcases answer with _ | _ | _ <;> rfl

theorem find?_ne_null (resolver : Resolver) (candidate : Option Value) (name : String) :
    resolver.find? candidate name ≠ some .null := by
  cases hanswer : resolver.answer candidate name with
  | error error => simp [find?, hanswer]
  | ok answer =>
    rw [find?_of_answer hanswer]
    rcases answer with _ | _ | _ <;> simp [Value.found?, Value.isNull]

theorem find?_globalData_of_some (data : List (String × Value)) (value : Value) (name : String) :
    (globalData data).find? (some value) name = none := rfl

theorem find?_globalData_of_none (data : List (String × Value)) (name : String) :
    (globalData data).find? none name = (data.lookup name).bind Value.found? := find?_of_answer rfl

end Resolver

namespace Chain

theorem resolve_ne_null {chain : Chain} {candidate : Option Value} {name : String} {value : Value}
    (h : chain.resolve candidate name = some value) : value ≠ .null := by
  rintro rfl
  obtain ⟨entry, -, hanswer⟩ := List.exists_of_findSome?_eq_some h
  exact entry.resolver.find?_ne_null candidate name hanswer

theorem resolve_standard (candidate : Option Value) (name : String) :
    Chain.standard.resolve candidate name =
      ([.this, .map, .listIndex, .object] : List Resolver).findSome? fun resolver =>
        resolver.find? candidate name := rfl

theorem resolve_standard_of_none (name : String) : Chain.standard.resolve none name = none := by
  simp [resolve_standard, Resolver.find?, Resolver.this, Resolver.map, Resolver.listIndex,
    Resolver.object]

/-- The standard strategies take `this` for the candidate, and have no other answer if it is
null. -/
theorem resolve_standard_this (value : Value) :
    Chain.standard.resolve (some value) "this" = value.found? := by
  rw [resolve_standard, List.findSome?_cons, Resolver.find?_of_answer rfl, if_pos rfl]
  cases value <;> rfl

end Chain

end Stencil
