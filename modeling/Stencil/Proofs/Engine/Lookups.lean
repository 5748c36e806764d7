import Stencil.Proofs.Engine.Globals

/-! How names are looked up by an engine without strategies of its own. There `this` and a dot alone
mean the same, unless the innermost value is null: the dot then means nothing, and `this` what is
not null around it. -/

namespace Stencil

theorem Scope.findSome?_found_of_ne_null (scope : Scope) (h : scope.peek ≠ .null) :
    (scope.frames.findSome? fun frame => frame.value.found?) = some scope.peek := by
  obtain ⟨template, frames, inclusions⟩ := scope
  cases frames with
  | nil => exact absurd rfl h
  | cons frame outer =>
    have hfound : frame.value.found? = some frame.value := Value.found?_of_ne_null h
    rw [List.findSome?_cons, hfound]
    rfl

theorem Scope.findSome?_found_of_null (scope : Scope) (h : scope.peek = .null) :
    (scope.frames.findSome? fun frame => frame.value.found?) =
      scope.frames.tail.findSome? fun frame => frame.value.found? := by
  obtain ⟨template, frames, inclusions⟩ := scope
  cases frames with
  | nil => rfl
  | cons frame outer =>
    have hnull : frame.value.found? = none := Value.found?_eq_none_iff.mpr h
    rw [List.findSome?_cons, hnull]
    rfl

namespace Setup

variable {ω : Type} {setup : Setup ω}

def global? (setup : Setup ω) (name : String) : Option Value :=
  (setup.globals.reverse.lookup name).bind Value.found?

/-- Without strategies of its own an engine asks the standard ones, and its global data last. -/
theorem resolve_chain (hresolvers : setup.resolvers = []) (candidate : Option Value)
    (name : String) :
    setup.chain.resolve candidate name =
      (Chain.standard.resolve candidate name).or
        ((Resolver.globalData (sortEntries setup.globals)).find? candidate name) := by
  have hown : setup.ownChain = Chain.standard := by
    rw [ownChain, hresolvers]
    rfl
  have hadded : (Chain.standard.add Resolver.globalDataPriority
      (.globalData (sortEntries setup.globals))).entries =
        Chain.standard.entries ++
          [⟨Resolver.globalDataPriority, .globalData (sortEntries setup.globals)⟩] := rfl
  rw [resolve_chain_eq, hown, Chain.resolve, hadded, List.findSome?_append]
  simp [Chain.resolve]

theorem resolve_chain_this (hresolvers : setup.resolvers = []) (value : Value) :
    setup.chain.resolve (some value) "this" = value.found? := by
  rw [resolve_chain hresolvers, Chain.resolve_standard_this, Resolver.find?_globalData_of_some,
    Option.or_none]

theorem resolve_chain_of_none (hresolvers : setup.resolvers = []) (name : String) :
    setup.chain.resolve none name = setup.global? name := by
  rw [resolve_chain hresolvers, Chain.resolve_standard_of_none, Option.none_or,
    Resolver.find?_globalData_of_none, lookup_sortEntries, global?]

/-- What `this` means: the innermost value that is not null, or else the global one of that name. -/
theorem resolve_this (hresolvers : setup.resolvers = [])
    (hposition : setup.config.iterationAlias ≠ "this") (scope : Scope) :
    setup.toEngine.setting.naming.resolve scope "this" =
      (scope.frames.findSome? fun frame => frame.value.found?).or (setup.global? "this") := by
  have hframe : setup.toEngine.setting.naming.inFrame "this" = fun frame => frame.value.found? := by
    funext frame
    have hvalue : setup.chain.resolve (some frame.value) "this" = frame.value.found? :=
      resolve_chain_this hresolvers frame.value
    unfold Naming.inFrame
    split
    · exact (if_neg hposition.symm).trans hvalue
    · exact hvalue
  have hparts : Naming.parts "this" = ["this"] := by decide
  rw [Naming.resolve_eq (by decide) hparts, Naming.resolveFirst, hframe]
  cases scope.frames.findSome? fun frame => frame.value.found? with
  | some value => rfl
  | none => exact resolve_chain_of_none hresolvers "this"

/-- Where the innermost value is not null, `this` and a dot alone both mean it. Where it is null, or
no scope is open, the dot means nothing, while null is no answer to `this`, which means the next
value outward that is not null, or else the global value of that name. So they mean the same there
only if neither of those is to be found. -/
theorem this_eq_dot_iff (hresolvers : setup.resolvers = [])
    (hposition : setup.config.iterationAlias ≠ "this") (scope : Scope) :
    let naming := setup.toEngine.setting.naming
    (scope.peek ≠ .null →
      naming.resolve scope "this" = some scope.peek ∧ naming.resolve scope "." = some scope.peek) ∧
    (scope.peek = .null →
      naming.resolve scope "." = none ∧
      naming.resolve scope "this" =
        (scope.frames.tail.findSome? fun frame => frame.value.found?).or (setup.global? "this")) ∧
    (naming.resolve scope "this" = naming.resolve scope "." ↔
      scope.peek ≠ .null ∨
        (∀ frame ∈ scope.frames, frame.value = .null) ∧ setup.global? "this" = none) := by
  intro naming
  have hthis := resolve_this hresolvers hposition scope
  have hdot : naming.resolve scope "." = scope.peek.found? := naming.resolve_dot
  refine ⟨fun hpeek => ⟨?_, ?_⟩, fun hpeek => ⟨?_, ?_⟩, ?_⟩
  · rw [hthis, scope.findSome?_found_of_ne_null hpeek, Option.some_or]
  · rw [hdot, Value.found?_of_ne_null hpeek]
  · rw [hdot, Value.found?_eq_none_iff.mpr hpeek]
  · rw [hthis, scope.findSome?_found_of_null hpeek]
  · rw [hthis, hdot]
    by_cases hpeek : scope.peek = .null
    · rw [Value.found?_eq_none_iff.mpr hpeek, Option.or_eq_none_iff, List.findSome?_eq_none_iff]
      simp [Value.found?_eq_none_iff, hpeek]
    · rw [scope.findSome?_found_of_ne_null hpeek, Value.found?_of_ne_null hpeek, Option.some_or]
      exact iff_of_true rfl (.inl hpeek)

def plainSetup : Setup Unit where
  globals := [("site", .string "Home")]
  registry := .builtin

def elementScope (element : Value) : Scope where
  template := "t"
  frames := [⟨element, some ⟨1, 1⟩⟩, ⟨.map [("items", .list [element])], none⟩]

theorem this_eq_dot_iff_text :
    plainSetup.config.iterationAlias ≠ "this" ∧
      plainSetup.toEngine.setting.naming.resolve (elementScope (.string "tea")) "this" =
        some (.string "tea") := by
  have hposition : plainSetup.config.iterationAlias ≠ "this" := by decide
  have hinner := (this_eq_dot_iff rfl hposition (elementScope (.string "tea"))).1
  exact ⟨hposition, (hinner fun hnull => nomatch hnull).1⟩

/-- In a null element `this` is the data around it, and the dot nothing. -/
theorem not_this_eq_dot :
    ¬ ∀ (setup : Setup Unit) (scope : Scope), setup.resolvers = [] →
      setup.config.iterationAlias ≠ "this" →
        setup.toEngine.setting.naming.resolve scope "this" =
          setup.toEngine.setting.naming.resolve scope "." := by
  intro h
  have hsame := h plainSetup (elementScope .null) rfl (by decide)
  rw [resolve_this rfl (by decide), Naming.resolve_dot] at hsame
  exact nomatch hsame

end Setup

end Stencil
