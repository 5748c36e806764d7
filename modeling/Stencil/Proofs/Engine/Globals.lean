import Stencil.Engine
import Stencil.Proofs.Naming
import Stencil.Proofs.Ordered

/-! Global data is conservative: one global value more changes no name but its own, and that only
where nothing in scope has it. -/

namespace Stencil

namespace Chain

variable {chain : Chain} {priority : Int32} {resolver other : Resolver}
  {candidate : Option Value} {name : String}

/-- Of strategies that are added with one priority only what they find matters. -/
theorem resolve_add_congr (h : resolver.find? candidate name = other.find? candidate name) :
    (chain.add priority resolver).resolve candidate name =
      (chain.add priority other).resolve candidate name := by
  simp only [resolve, add, insertRanked_eq, List.findSome?_append, List.findSome?_cons, h]

theorem resolve_add_of_none (h : resolver.find? candidate name = none) :
    (chain.add priority resolver).resolve candidate name = chain.resolve candidate name := by
  have hsplit : chain.resolve candidate name =
      ((chain.entries.takeWhile fun entry => priority ≤ entry.priority) ++
        chain.entries.dropWhile fun entry => priority ≤ entry.priority).findSome?
          fun entry => entry.resolver.find? candidate name := by
    rw [List.takeWhile_append_dropWhile, resolve]
  rw [hsplit]
  simp only [resolve, add, insertRanked_eq, List.findSome?_append, List.findSome?_cons, h]

end Chain

/-- Two ways to look names up that find the same in every value, and call positions by one name.
They may differ in what they find without a candidate. -/
structure Naming.AlikeInValues (naming other : Naming) : Prop where
  positionName : other.positionName = naming.positionName
  found : ∀ value name,
    other.resolvers.resolve (some value) name = naming.resolvers.resolve (some value) name

namespace Naming.AlikeInValues

variable {naming other : Naming} {frames : List Frame} {name : String}

theorem inFrame_eq (h : naming.AlikeInValues other) (name : String) :
    other.inFrame name = naming.inFrame name := by
  funext frame
  simp only [inFrame, h.positionName, h.found]

theorem resolveRest_eq (h : naming.AlikeInValues other) (start : Option Value)
    (later : List String) : other.resolveRest start later = naming.resolveRest start later := by
  induction later generalizing start with
  | nil => cases start <;> rfl
  | cons part later ih =>
    cases start with
    | none => rfl
    | some value => rw [resolveRest, resolveRest, h.found, ih]

theorem resolveFirst_eq_of_alone (h : naming.AlikeInValues other)
    (halone : other.resolvers.resolve none name = naming.resolvers.resolve none name) :
    other.resolveFirst frames name = naming.resolveFirst frames name := by
  rw [resolveFirst, resolveFirst, h.inFrame_eq, halone]

/-- Where a scope has an answer, nothing is looked up without a candidate. -/
theorem resolveFirst_eq_of_answers (h : naming.AlikeInValues other) {frame : Frame} {answer : Value}
    (hframe : frame ∈ frames) (hanswers : naming.Answers name frame answer) :
    other.resolveFirst frames name = naming.resolveFirst frames name := by
  rw [resolveFirst, resolveFirst, h.inFrame_eq]
  cases hfound : frames.findSome? (naming.inFrame name) with
  | some value => rfl
  | none =>
    have hnone := inFrame_eq_none_iff.mp (List.findSome?_eq_none_iff.mp hfound frame hframe)
    exact absurd hanswers (hnone answer)

theorem resolve_eq (h : naming.AlikeInValues other) {scope : Scope}
    (hfirst : ∀ first, (parts name).head? = some first →
      other.resolveFirst scope.frames first = naming.resolveFirst scope.frames first) :
    other.resolve scope name = naming.resolve scope name := by
  by_cases hname : name = "."
  · subst hname
    rw [resolve_dot, resolve_dot]
  · obtain ⟨first, later, hparts⟩ := List.exists_cons_of_ne_nil (parts_ne_nil name)
    have hsame := hfirst first (by rw [hparts, List.head?_cons])
    rw [Naming.resolve_eq hname hparts, Naming.resolve_eq hname hparts, hsame, h.resolveRest_eq]

end Naming.AlikeInValues

namespace Setup

variable {ω : Type} {setup : Setup ω} {global name : String} {value : Value}

def ownChain (setup : Setup ω) : Chain := Chain.standard.addAll setup.resolvers

def withGlobal (setup : Setup ω) (global : String) (value : Value) : Setup ω :=
  { setup with globals := setup.globals ++ [(global, value)] }

/-- No global data at all is like global data without entries. -/
theorem resolve_chain_eq (setup : Setup ω) (candidate : Option Value) (name : String) :
    setup.chain.resolve candidate name =
      (setup.ownChain.add Resolver.globalDataPriority
        (.globalData (sortEntries setup.globals))).resolve candidate name := by
  rw [chain]
  split
  · rename_i hempty
    have hnone : (Resolver.globalData (sortEntries setup.globals)).find? candidate name = none := by
      rw [List.isEmpty_iff.mp hempty]
      cases candidate <;> rfl
    exact (Chain.resolve_add_of_none hnone).symm
  · rfl

theorem resolve_chain_of_some (setup : Setup ω) (candidate : Value) (name : String) :
    setup.chain.resolve (some candidate) name = setup.ownChain.resolve (some candidate) name := by
  rw [resolve_chain_eq]
  exact Chain.resolve_add_of_none (Resolver.find?_globalData_of_some _ candidate name)

theorem resolve_chain_withGlobal_of_ne (h : name ≠ global) :
    (setup.withGlobal global value).chain.resolve none name = setup.chain.resolve none name := by
  have hlookup : (sortEntries (setup.globals ++ [(global, value)])).lookup name =
      (sortEntries setup.globals).lookup name := by
    rw [lookup_sortEntries, lookup_sortEntries, List.reverse_concat, lookup_cons_eq_ite, if_neg h]
  rw [resolve_chain_eq, resolve_chain_eq]
  apply Chain.resolve_add_congr
  rw [Resolver.find?_globalData_of_none, Resolver.find?_globalData_of_none]
  exact congrArg (Option.bind · Value.found?) hlookup

theorem alikeInValues_withGlobal (setup : Setup ω) (global : String) (value : Value) :
    setup.toEngine.setting.naming.AlikeInValues
      (setup.withGlobal global value).toEngine.setting.naming where
  positionName := rfl
  found candidate name := by
    have hmore := (setup.withGlobal global value).resolve_chain_of_some candidate name
    exact hmore.trans (setup.resolve_chain_of_some candidate name).symm

/-- One global value more leaves what names mean, in any scopes and beside any strategies. It may
give a meaning to names that begin with its own, and to these only where no scope answers to it.
What is looked up in a value, as the later parts of a dotted name are, global data never answers. -/
theorem globals_conservative (setup : Setup ω) (global : String) (value : Value) :
    let naming := setup.toEngine.setting.naming
    let extended := (setup.withGlobal global value).toEngine.setting.naming
    (∀ scope name,
      (Naming.parts name).head? ≠ some global ∨
        (∃ frame ∈ scope.frames, ∃ answer, naming.Answers global frame answer) →
      extended.resolve scope name = naming.resolve scope name) ∧
    (∀ candidate name, extended.resolvers.resolve (some candidate) name =
      setup.ownChain.resolve (some candidate) name) ∧
    ∀ scope start part, start ≠ "." → '.' ∉ part.toList → start ++ "." ++ part ≠ "." →
      extended.resolve scope (start ++ "." ++ part) =
        (extended.resolve scope start).bind fun found =>
          setup.ownChain.resolve (some found) part := by
  intro naming extended
  have halike : naming.AlikeInValues extended := setup.alikeInValues_withGlobal global value
  have hown : ∀ candidate name, extended.resolvers.resolve (some candidate) name =
      setup.ownChain.resolve (some candidate) name :=
    (setup.withGlobal global value).resolve_chain_of_some
  refine ⟨fun scope name h => ?_, hown, fun scope start part hstart hpart hname => ?_⟩
  · refine halike.resolve_eq fun first hfirst => ?_
    -- Only a lookup of its own name without a candidate can find the new value.
    by_cases hsame : first = global
    · subst hsame
      rcases h with hother | ⟨frame, hframe, answer, hanswers⟩
      · exact absurd hfirst hother
      · exact halike.resolveFirst_eq_of_answers hframe hanswers
    · exact halike.resolveFirst_eq_of_alone (resolve_chain_withGlobal_of_ne hsame)
  · rw [Naming.resolve_append hstart hpart hname]
    simp only [hown]

/-- A strategy with the priority of global data, which answers with and without a candidate. -/
def greeterSetup : Setup Unit where
  resolvers := [⟨Resolver.globalDataPriority,
    ⟨"greeter", fun _ name => .ok (if name = "greeting" then some (.string "hello") else none)⟩⟩]

/-- In a page of a site, `site` is what it was, whatever the global value of that name. -/
theorem globals_conservative_site :
    let naming := greeterSetup.toEngine.setting.naming
    let extended := (greeterSetup.withGlobal "site" (.string "elsewhere")).toEngine.setting.naming
    let site : Value := .map [("title", .string "Home")]
    (∃ frame ∈ Naming.pageScope.frames, naming.Answers "site" frame site) ∧
      '.' ∉ "title".toList ∧
      extended.resolve Naming.pageScope "site" = some site ∧
      extended.resolve Naming.pageScope ("site" ++ "." ++ "title") = some (.string "Home") := by
  intro naming extended site
  obtain ⟨hsame, -, hdotted⟩ :=
    globals_conservative greeterSetup "site" (.string "elsewhere")
  have hanswers : naming.Answers "site" ⟨.map [("site", site)], none⟩ site :=
    .value (fun _ => rfl) rfl
  have hframe : ⟨.map [("site", site)], none⟩ ∈ Naming.pageScope.frames := by
    simp [Naming.pageScope, site]
  have hpart : '.' ∉ "title".toList := by decide
  have hsite : extended.resolve Naming.pageScope "site" = some site :=
    (hsame Naming.pageScope "site" (.inr ⟨_, hframe, site, hanswers⟩)).trans rfl
  refine ⟨⟨_, hframe, hanswers⟩, hpart, hsite, ?_⟩
  rw [hdotted Naming.pageScope "site" "title" (by decide) hpart (by decide), hsite]
  rfl

end Setup

end Stencil
