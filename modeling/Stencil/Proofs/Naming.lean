import Stencil.Proofs.Resolver
import Stencil.Proofs.Text.Search
import Stencil.Scope

/-! What names mean. The first part of a dotted name is what the innermost scope with an answer
answers, each later part is looked up in the value of the part before, and null is never a
meaning. -/

namespace Stencil

/-- From a value the parts lead to another one, each looked up in the value of the part before. -/
inductive Chain.Follows (chain : Chain) : Value → List String → Value → Prop where
  | stop (value : Value) : Follows chain value [] value
  | part {value next last : Value} {name : String} {later : List String}
      (hfound : chain.resolve (some value) name = some next)
      (hlater : Follows chain next later last) : Follows chain value (name :: later) last

theorem Chain.Follows.ne_null {chain : Chain} {value last : Value} {later : List String}
    (h : chain.Follows value later last) (hvalue : value ≠ .null) : last ≠ .null := by
  induction h with
  | stop value => exact hvalue
  | part hfound hlater ih => exact ih (Chain.resolve_ne_null hfound)

namespace Naming

/-- What a scope answers: its position in an iteration under the name of that, and otherwise what
the strategies find in its value. -/
inductive Answers (naming : Naming) (name : String) (frame : Frame) : Value → Prop where
  | position {position : Iteration} (hname : name = naming.positionName)
      (hposition : frame.position = some position) : Answers naming name frame position.toValue
  | value {value : Value} (hplain : name = naming.positionName → frame.position = none)
      (hfound : naming.resolvers.resolve (some frame.value) name = some value) :
      Answers naming name frame value

/-- What the first part of a name means: the answer of the innermost scope that has one, or else
what the strategies find without a candidate. -/
inductive Begins (naming : Naming) (name : String) (frames : List Frame) : Value → Prop where
  | scope {inner outer : List Frame} {frame : Frame} {value : Value}
      (hframes : frames = inner ++ frame :: outer)
      (hinner : ∀ other ∈ inner, ∀ answer, ¬ naming.Answers name other answer)
      (hanswers : naming.Answers name frame value) : Begins naming name frames value
  | alone {value : Value} (hframes : ∀ frame ∈ frames, ∀ answer, ¬ naming.Answers name frame answer)
      (hfound : naming.resolvers.resolve none name = some value) : Begins naming name frames value

section Walk

variable {naming : Naming} {name : String} {value : Value}

theorem inFrame_eq_some_iff {frame : Frame} :
    naming.inFrame name frame = some value ↔ naming.Answers name frame value := by
  unfold inFrame
  constructor
  · intro h
    split at h
    · rename_i position hposition
      split at h
      · rename_i hname
        obtain rfl := Option.some.inj h
        exact .position hname hposition
      · rename_i hname
        exact .value (fun hsame => absurd hsame hname) h
    · rename_i hnone
      exact .value (fun _ => hnone) h
  · rintro (⟨hname, hposition⟩ | ⟨hplain, hfound⟩)
    · rw [hposition]
      exact if_pos hname
    · cases hposition : frame.position with
      | none => exact hfound
      | some position =>
        have hname : name ≠ naming.positionName :=
          fun hsame => Option.some_ne_none _ (hposition.symm.trans (hplain hsame))
        exact (if_neg hname).trans hfound

theorem inFrame_eq_none_iff {frame : Frame} :
    naming.inFrame name frame = none ↔ ∀ answer, ¬ naming.Answers name frame answer := by
  simp only [← inFrame_eq_some_iff, Option.eq_none_iff_forall_ne_some, ne_eq]

theorem resolveFirst_eq_some_iff {frames : List Frame} :
    naming.resolveFirst frames name = some value ↔ naming.Begins name frames value := by
  have hmatch : naming.resolveFirst frames name =
      (frames.findSome? (naming.inFrame name)).or (naming.resolvers.resolve none name) := by
    unfold resolveFirst
    cases frames.findSome? (naming.inFrame name) <;> rfl
  rw [hmatch, Option.or_eq_some_iff, List.findSome?_eq_some_iff, List.findSome?_eq_none_iff]
  simp only [inFrame_eq_some_iff, inFrame_eq_none_iff]
  constructor
  · rintro (⟨inner, frame, outer, hframes, hanswers, hinner⟩ | ⟨hframes, hfound⟩)
    · exact .scope hframes hinner hanswers
    · exact .alone hframes hfound
  · rintro (⟨hframes, hinner, hanswers⟩ | ⟨hframes, hfound⟩)
    · exact .inl ⟨_, _, _, hframes, hanswers, hinner⟩
    · exact .inr ⟨hframes, hfound⟩

theorem resolveRest_none (later : List String) : naming.resolveRest none later = none := by
  cases later <;> rfl

theorem resolveRest_eq_some_iff {start : Option Value} {later : List String} :
    naming.resolveRest start later = some value ↔
      ∃ first, start = some first ∧ naming.resolvers.Follows first later value := by
  induction later generalizing start with
  | nil =>
    rw [show naming.resolveRest start [] = start by cases start <;> rfl]
    constructor
    · intro h
      exact ⟨value, h, .stop value⟩
    · rintro ⟨_, rfl, ⟨⟩⟩
      rfl
  | cons part later ih =>
    cases start with
    | none => simp [resolveRest_none]
    | some first =>
      rw [resolveRest, ih]
      constructor
      · rintro ⟨next, hfound, hlater⟩
        exact ⟨first, rfl, .part hfound hlater⟩
      · rintro ⟨start, hstart, hfollows⟩
        obtain rfl := Option.some.inj hstart
        cases hfollows with
        | part hfound hlater => exact ⟨_, hfound, hlater⟩

theorem resolveRest_append (start : Option Value) (later : List String) (part : String) :
    naming.resolveRest start (later ++ [part]) =
      (naming.resolveRest start later).bind fun last =>
        naming.resolvers.resolve (some last) part := by
  induction later generalizing start with
  | nil => cases start <;> rfl
  | cons name later ih =>
    cases start with
    | none => rfl
    | some first => exact ih _

end Walk

def parts (name : String) : List String := (Text.fields '.' name.toList).map String.ofList

theorem parts_ne_nil (name : String) : parts name ≠ [] := by
  rw [parts, Text.fields_eq_splitOn, ne_eq, List.map_eq_nil_iff]
  exact List.splitOn_ne_nil '.' name.toList

theorem notMem_of_mem_parts {name part : String} (h : part ∈ parts name) : '.' ∉ part.toList := by
  obtain ⟨field, hfield, rfl⟩ := List.mem_map.mp h
  rw [String.toList_ofList]
  exact Text.notMem_of_mem_fields hfield

theorem intercalate_parts (name : String) : ".".intercalate (parts name) = name := by
  apply String.toList_injective
  have hlists : (parts name).map String.toList = Text.fields '.' name.toList := by
    simp [parts, Function.comp_def]
  rw [String.toList_intercalate, hlists, Text.fields_eq_splitOn]
  exact List.intercalate_splitOn '.'

theorem parts_append (start : String) {part : String} (h : '.' ∉ part.toList) :
    parts (start ++ "." ++ part) = parts start ++ [part] := by
  have htext : (start ++ "." ++ part).toList = start.toList ++ '.' :: part.toList := by
    simp
  rw [parts, htext, Text.fields_append start.toList h, List.map_append, parts]
  simp

section Meaning

variable {naming : Naming} {scope : Scope} {name : String}

theorem resolve_eq (hname : name ≠ ".") {first : String} {later : List String}
    (hparts : parts name = first :: later) :
    naming.resolve scope name =
      naming.resolveRest (naming.resolveFirst scope.frames first) later := by
  unfold parts at hparts
  rw [resolve, if_neg hname, hparts]

theorem resolve_eq_some_iff (hname : name ≠ ".") {first : String} {later : List String}
    (hparts : parts name = first :: later) {value : Value} :
    naming.resolve scope name = some value ↔
      ∃ start, naming.Begins first scope.frames start ∧
        naming.resolvers.Follows start later value := by
  rw [resolve_eq hname hparts, resolveRest_eq_some_iff]
  simp only [resolveFirst_eq_some_iff]

theorem resolve_append {start part : String} (hstart : start ≠ ".") (hpart : '.' ∉ part.toList)
    (hname : start ++ "." ++ part ≠ ".") :
    naming.resolve scope (start ++ "." ++ part) =
      (naming.resolve scope start).bind fun value =>
        naming.resolvers.resolve (some value) part := by
  obtain ⟨first, later, hparts⟩ := List.exists_cons_of_ne_nil (parts_ne_nil start)
  have hmore : parts (start ++ "." ++ part) = first :: (later ++ [part]) := by
    rw [parts_append start hpart, hparts, List.cons_append]
  rw [resolve_eq hname hmore, resolve_eq hstart hparts, resolveRest_append]

theorem Answers.ne_null {frame : Frame} {value : Value} (h : naming.Answers name frame value) :
    value ≠ .null := by
  cases h with
  | position hname hposition => exact fun hnull => nomatch hnull
  | value hplain hfound => exact Chain.resolve_ne_null hfound

theorem Begins.ne_null {frames : List Frame} {value : Value} (h : naming.Begins name frames value) :
    value ≠ .null := by
  cases h with
  | scope hframes hinner hanswers => exact hanswers.ne_null
  | alone hframes hfound => exact Chain.resolve_ne_null hfound

theorem resolve_dot : naming.resolve scope "." = scope.peek.found? := rfl

theorem resolve_ne_null {value : Value} (h : naming.resolve scope name = some value) :
    value ≠ .null := by
  by_cases hname : name = "."
  · subst hname
    rintro rfl
    rw [resolve_dot, Value.found?] at h
    split at h
    · contradiction
    · rename_i hnull
      exact hnull (Option.some.inj h ▸ rfl)
  · obtain ⟨first, later, hparts⟩ := List.exists_cons_of_ne_nil (parts_ne_nil name)
    obtain ⟨start, hbegins, hfollows⟩ := (resolve_eq_some_iff hname hparts).mp h
    exact hfollows.ne_null hbegins.ne_null

/-- Names mean what the documented walk gives them. The first of the parts between the dots is what
the innermost scope with an answer answers, its position under the name of that and otherwise what
the strategies find in its value, or else what they find without a candidate. The other parts are
looked up one after the other, each in the value of the part before and nowhere else. So a name with
one part more means what that part is in the value of the name without it, and nothing ever means
null. -/
theorem resolve_walks_scopes (naming : Naming) (scope : Scope) :
    (∀ name, name ≠ "." → ∃ first later,
      ".".intercalate (first :: later) = name ∧ (∀ part ∈ first :: later, '.' ∉ part.toList) ∧
      ∀ value, naming.resolve scope name = some value ↔
        ∃ start, naming.Begins first scope.frames start ∧
          naming.resolvers.Follows start later value) ∧
    (∀ start part, start ≠ "." → '.' ∉ part.toList → start ++ "." ++ part ≠ "." →
      naming.resolve scope (start ++ "." ++ part) =
        (naming.resolve scope start).bind fun value => naming.resolvers.resolve (some value) part) ∧
    ∀ name value, naming.resolve scope name = some value → value ≠ .null := by
  refine ⟨fun name hname => ?_, fun _ _ => resolve_append, fun _ _ => resolve_ne_null⟩
  obtain ⟨first, later, hparts⟩ := List.exists_cons_of_ne_nil (parts_ne_nil name)
  refine ⟨first, later, ?_, ?_, fun value => resolve_eq_some_iff hname hparts⟩
  · rw [← hparts, intercalate_parts]
  · rw [← hparts]
    exact fun part => notMem_of_mem_parts

end Meaning

def standardNaming : Naming := ⟨"iter", .standard⟩

def pageScope : Scope where
  template := "page"
  frames := [
    ⟨.map [("site", .null), ("title", .string "One")], some ⟨1, 2⟩⟩,
    ⟨.map [("site", .map [("title", .string "Home")])], none⟩]

theorem resolve_walks_scopes_title :
    '.' ∉ "title".toList ∧
      standardNaming.resolve pageScope ("site" ++ "." ++ "title") = some (.string "Home") := by
  obtain ⟨-, hlast, -⟩ := resolve_walks_scopes standardNaming pageScope
  have hpart : '.' ∉ "title".toList := by decide
  refine ⟨hpart, ?_⟩
  rw [hlast "site" "title" (by decide) hpart (by decide)]
  rfl

end Naming

end Stencil
