import Stencil.Proofs.Helper.Discretion
import Stencil.Proofs.Rendering.Calls
import Stencil.Proofs.Rendering.Sections
import Stencil.Proofs.Tree.Parts

/-! Templates of texts, outputs, sections and the conditional helpers and `with` render without an
error, whatever the data is and however lookups go, if there is room for the scopes they open. -/

namespace Stencil

namespace Segment

mutual

/-- How many plain sections, and calls that count, stand inside of each other at most. -/
def nesting (counts : Registered → HelperTag → Bool) : Segment → Nat
  | .text _ => 0
  | .output .. => 0
  | .block _ false body _ => nestingAll counts body + 1
  | .block _ true body _ => nestingAll counts body
  | .inclusion .. => 0
  | .invocation registered tag body none =>
    nestingAll counts body + (counts registered tag).toNat
  | .invocation registered tag body (some elseBody) =>
    max (nestingAll counts body) (nestingAll counts elseBody) + (counts registered tag).toNat
  | .comment => 0

def nestingAll (counts : Registered → HelperTag → Bool) : List Segment → Nat
  | [] => 0
  | segment :: later => max (nesting counts segment) (nestingAll counts later)

end

/-- A segment that includes no other template and calls no other helper than these three, under the
names that they have in every engine. -/
def IsSimple : Segment → Prop
  | .inclusion .. => False
  | .invocation registered .. =>
    (registered.name, registered.helper) ∈
      [("if", ifHelper), ("unless", unlessHelper), ("with", withHelper)]
  | _ => True

end Segment

def Registered.isWith (registered : Registered) (_ : HelperTag) : Bool := registered.name == "with"

def Registered.isWithBlock (registered : Registered) (tag : HelperTag) : Bool :=
  registered.name == "with" && tag.block

theorem HelperAction.run_renderBodyUnder (value : Value) (position : Option Iteration) :
    (renderBodyUnder value position).run =
      .push value position fun answer => match answer with
        | .ok () => .renderBody fun rendered => .pop fun _ => .done rendered
        | .error error => .done (.error error) := by
  refine congrArg (Script.push value position) (funext ?_)
  rintro (error | ⟨⟩) <;> rfl

def Sink.AcceptsAll {σ : Type} (sink : Sink σ) : Prop :=
  ∀ text output, (sink.write text output).1 = true

namespace Render

variable {κ σ α β : Type}

/-- A rendering that has a result wherever there is room for so many more scopes, and gives the
scopes back as they were. -/
def Succeeds (setting : Setting κ) (room : Nat) (action : Render κ σ α) : Prop :=
  ∀ state, state.scope.depth + room ≤ setting.config.scopeLimit →
    ∃ a last, action.outcome state = (.ok a, last) ∧ last.scope = state.scope

def Completes (setting : Setting κ) (sink : Sink σ) (body elseBody : Render κ σ Unit) (room : Nat)
    (action : HelperAction Unit) : Prop :=
  ∀ state, state.scope.depth + room ≤ setting.config.scopeLimit →
    ∃ last, (runScript setting sink body elseBody 0 action.run).outcome state =
      (.ok (.ok (), 0), last) ∧ last.scope = state.scope

section Rules

variable {setting : Setting κ} {room : Nat}

theorem Succeeds.mono {action : Render κ σ α} {more : Nat} (h : Succeeds setting room action)
    (hmore : room ≤ more) : Succeeds setting more action :=
  fun state hroom => h state (by omega)

theorem succeeds_pure (a : α) : Succeeds setting room (pure a : Render κ σ α) :=
  fun state _ => ⟨a, state, rfl, rfl⟩

theorem succeeds_ask (f : Rendering κ σ → α) : Succeeds setting room (ask f : Render κ σ α) :=
  fun state _ => ⟨f state, state, rfl, rfl⟩

theorem Succeeds.bind {action : Render κ σ α} {rest : α → Render κ σ β}
    (h : Succeeds setting room action) (hrest : ∀ a, Succeeds setting room (rest a)) :
    Succeeds setting room (action >>= rest) := by
  intro state hroom
  obtain ⟨a, middle, haction, hmiddle⟩ := h state hroom
  obtain ⟨b, last, hlater, hlast⟩ := hrest a middle (hmiddle ▸ hroom)
  rw [outcome_bind, haction]
  exact ⟨b, last, hlater, hlast.trans hmiddle⟩

/-- One scope more than a rendering needs itself is room enough to render it under another one, and
that scope is the innermost one behind it. -/
theorem Succeeds.opened {body : Render κ σ Unit} (h : Succeeds setting room body) (value : Value)
    (position : Option Iteration) {state : Rendering κ σ}
    (hroom : state.scope.depth + (room + 1) ≤ setting.config.scopeLimit) :
    ∃ opened last,
      (push setting value position : Render κ σ Unit).outcome state = (.ok (), opened) ∧
      body.outcome opened = (.ok (), last) ∧ last.scope.pop.2 = state.scope := by
  let opened : Rendering κ σ := { state with
    scope := { state.scope with frames := ⟨value, position⟩ :: state.scope.frames } }
  have hopened : opened.scope.depth = state.scope.depth + 1 := rfl
  have hpush : (push setting value position : Render κ σ Unit).outcome state = (.ok (), opened) :=
    outcome_push_of_room value position (by omega)
  obtain ⟨⟨⟩, last, hbody, hlast⟩ := h opened (by omega)
  refine ⟨opened, last, hpush, hbody, ?_⟩
  rw [hlast]
  rfl

theorem Succeeds.under {body : Render κ σ Unit} (h : Succeeds setting room body) (value : Value)
    (position : Option Iteration) :
    Succeeds setting (room + 1) (under setting value position body) := by
  intro state hroom
  obtain ⟨opened, last, hpush, hbody, hlast⟩ := h.opened value position hroom
  refine ⟨(), { last with scope := last.scope.pop.2 }, ?_, hlast⟩
  rw [Render.under, outcome_bind, hpush]
  simp only [outcome_andFinally, hbody]

theorem Succeeds.elements {body : Render κ σ Unit} (h : Succeeds setting room body)
    (size before : Nat) (values : List Value) :
    Succeeds setting (room + 1) (elements setting body size before values) := by
  induction values generalizing before with
  | nil => exact succeeds_pure ()
  | cons value later ih => exact (h.under _ _).bind fun _ => ih _

theorem Succeeds.plainBlock {body : Render κ σ Unit} (h : Succeeds setting room body)
    (name : String) : Succeeds setting (room + 1) (plainBlock setting name body) := by
  refine (succeeds_ask _).bind fun found => ?_
  split
  · exact succeeds_pure ()
  · split
    · exact h.elements _ _ _
    · split
      · exact h.under _ _
      · exact succeeds_pure ()

theorem Succeeds.invertedBlock {body : Render κ σ Unit} (h : Succeeds setting room body)
    (name : String) : Succeeds setting room (invertedBlock setting name body) := by
  refine (succeeds_ask _).bind fun found => ?_
  split
  · exact h
  · exact succeeds_pure ()

section Sinks

variable {sink : Sink σ} (haccepts : sink.AcceptsAll)

include haccepts

theorem succeeds_write (text : String) :
    Succeeds setting room (write sink text : Render κ σ Unit) := by
  intro state _
  refine ⟨(), { state with output := (sink.write text state.output).2 }, ?_, rfl⟩
  simp [write, haccepts text state.output]

theorem succeeds_writeAll (texts : List String) :
    Succeeds setting room (writeAll sink texts : Render κ σ Unit) := by
  induction texts with
  | nil => exact succeeds_pure ()
  | cons text later ih => exact (succeeds_write haccepts text).bind fun _ => ih

theorem succeeds_output (name : String) (escaped : Bool) :
    Succeeds setting room (output setting sink name escaped) := by
  refine (succeeds_ask _).bind fun found => ?_
  split
  · exact succeeds_pure ()
  · exact succeeds_pure ()
  · split
    · exact succeeds_writeAll haccepts _
    · exact succeeds_write haccepts _

end Sinks

/-! ### Calls -/

section Calls

variable {sink : Sink σ} {body elseBody : Render κ σ Unit}

/-- A script that only makes one request and ends with the answer. -/
theorem completes_of_attempt {action : Render κ σ Unit} (h : Succeeds setting room action)
    {request : HelperAction Unit}
    (hrun : runScript setting sink body elseBody 0 request.run =
      (do pure (← action.attempt, 0) : Render κ σ (Except Error Unit × Nat))) :
    Completes setting sink body elseBody room request := by
  intro state hroom
  obtain ⟨⟨⟩, last, haction, hlast⟩ := h state hroom
  refine ⟨last, ?_, hlast⟩
  rw [outcome_runScript_request hrun, haction]

theorem completes_renderBody (h : Succeeds setting room body) :
    Completes setting sink body elseBody room HelperAction.renderBody :=
  completes_of_attempt h rfl

theorem completes_renderElse (h : Succeeds setting room elseBody) :
    Completes setting sink body elseBody room HelperAction.renderElse :=
  completes_of_attempt h rfl

theorem completes_append (haccepts : sink.AcceptsAll)
    (text : String) : Completes setting sink body elseBody room (HelperAction.append text) :=
  completes_of_attempt (succeeds_write haccepts text) rfl

theorem completes_pure : Completes setting sink body elseBody room (pure ()) :=
  fun state _ => ⟨state, rfl, rfl⟩

theorem completes_renderBodyUnder (h : Succeeds setting room body) (value : Value)
    (position : Option Iteration) :
    Completes setting sink body elseBody (room + 1)
      (HelperAction.renderBodyUnder value position) := by
  intro state hroom
  obtain ⟨opened, last, hpush, hbody, hlast⟩ := h.opened value position hroom
  refine ⟨{ last with scope := last.scope.pop.2 }, ?_, hlast⟩
  simp only [HelperAction.run_renderBodyUnder, runScript, outcome_bind, outcome_attempt, hpush,
    hbody]
  rfl

theorem Conditional.completes (haccepts : sink.AcceptsAll)
    (hbody : Succeeds setting room body) (helse : Succeeds setting room elseBody)
    (c : Conditional) (call : Call) :
    Completes setting sink body elseBody room (c.execute call) := by
  have hdecided (decision : Bool) :
      Completes setting sink body elseBody room (Conditional.decided call decision) := by
    unfold Conditional.decided
    split
    · exact completes_renderBody hbody
    · split
      · exact completes_renderElse helse
      · cases call.named? Conditional.elseKey with
        | none => exact completes_pure
        | some value => exact completes_append haccepts value.text
  intro state hroom
  rw [Conditional.run_execute]
  exact hdecided _ state hroom

theorem withHelper_completes (hbody : Succeeds setting room body)
    (helse : Succeeds setting (room + 1) elseBody) (call : Call) :
    Completes setting sink body elseBody (room + 1) (withHelper.execute call) := by
  simp only [withHelper]
  split
  · exact completes_renderElse helse
  · exact completes_renderBodyUnder hbody _ _

theorem succeeds_invocation {helper : Helper}
    (h : ∀ call, Completes setting sink body elseBody room (helper.execute call)) (tag : HelperTag)
    (hasElse : Bool) :
    Succeeds setting room (invocation setting sink helper tag hasElse body elseBody) := by
  refine (succeeds_ask _).bind fun call => ?_
  intro state hroom
  obtain ⟨last, hcall, hlast⟩ := h call state hroom
  refine ⟨(), { last with scope := last.scope.drop 0 }, ?_, hlast⟩
  rw [outcome_bind, hcall]
  rfl

/-- The three helpers need as much room as what they render, and `with` one scope more. -/
theorem succeeds_simple_invocation (haccepts : sink.AcceptsAll)
    {registered : Registered}
    (hsimple : (registered.name, registered.helper) ∈
      [("if", ifHelper), ("unless", unlessHelper), ("with", withHelper)])
    (hbody : Succeeds setting room body) (helse : Succeeds setting room elseBody)
    (tag : HelperTag) (hasElse : Bool) :
    Succeeds setting (room + (registered.isWith tag).toNat)
      (invocation setting sink registered.helper tag hasElse body elseBody) := by
  obtain ⟨registry, name, helper⟩ := registered
  simp only [List.mem_cons, Prod.mk.injEq, List.not_mem_nil, or_false] at hsimple
  rcases hsimple with ⟨rfl, rfl⟩ | ⟨rfl, rfl⟩ | ⟨rfl, rfl⟩
  · exact succeeds_invocation (Conditional.completes haccepts hbody helse _) tag hasElse
  · exact succeeds_invocation (Conditional.completes haccepts hbody helse _) tag hasElse
  · have hmore : Succeeds setting (room + 1) elseBody := helse.mono (Nat.le_succ room)
    exact succeeds_invocation (withHelper_completes hbody hmore) tag hasElse

end Calls

end Rules

section Trees

variable {setting : Setting κ} {sink : Sink σ} {deeper : Option (Renderer κ)}

open Segment (nesting nestingAll partsAll)

mutual

theorem succeeds_segment (haccepts : sink.AcceptsAll) :
    ∀ {part : Segment}, (∀ p ∈ part.parts, p.IsSimple) →
      Succeeds setting (part.nesting Registered.isWith) (segment setting deeper sink part)
  | .text text, _ => succeeds_write haccepts text
  | .output name escaped _, _ => succeeds_output haccepts name escaped
  | .block name false body _, h =>
    (succeeds_segments haccepts (List.forall_mem_cons.mp h).2).plainBlock name
  | .block name true body _, h =>
    (succeeds_segments haccepts (List.forall_mem_cons.mp h).2).invertedBlock name
  | .inclusion name indent line, h => (h _ (Segment.mem_parts_self _)).elim
  | .invocation registered tag body none, h => by
    obtain ⟨hcall, hinner⟩ := List.forall_mem_cons.mp h
    exact succeeds_simple_invocation haccepts hcall (succeeds_segments haccepts hinner)
      (succeeds_pure ()) tag false
  | .invocation registered tag body (some elseBody), h => by
    obtain ⟨hcall, hinner⟩ := List.forall_mem_cons.mp h
    obtain ⟨hbody, helse⟩ := List.forall_mem_append.mp hinner
    exact succeeds_simple_invocation haccepts hcall
      ((succeeds_segments haccepts hbody).mono (Nat.le_max_left _ _))
      ((succeeds_segments haccepts helse).mono (Nat.le_max_right _ _)) tag true
  | .comment, _ => succeeds_pure ()

theorem succeeds_segments (haccepts : sink.AcceptsAll) :
    ∀ {parts : List Segment}, (∀ p ∈ partsAll parts, p.IsSimple) →
      Succeeds setting (nestingAll Registered.isWith parts) (segments setting deeper sink parts)
  | [], _ => succeeds_pure ()
  | first :: later, h => by
    obtain ⟨hfirst, hlater⟩ := List.forall_mem_append.mp h
    exact ((succeeds_segment haccepts hfirst).mono (Nat.le_max_left _ _)).bind fun _ =>
      (succeeds_segments haccepts hlater).mono (Nat.le_max_right _ _)

end

/-- Without inclusions it does not matter how deep they may nest. -/
theorem succeeds_all (haccepts : sink.AcceptsAll)
    {body : List Segment} (hsimple : ∀ part ∈ partsAll body, part.IsSimple) :
    Succeeds setting (nestingAll Registered.isWith body) (all setting sink body) := by
  refine (succeeds_ask _).bind fun depth => ?_
  cases depth with
  | zero => exact succeeds_segments haccepts hsimple
  | succ depth => exact succeeds_segments haccepts hsimple

end Trees

end Render

open Segment (nestingAll partsAll)

/-- Missing or odd data is never an error: a template of texts, outputs, sections, comments and
calls of `if`, `unless` and `with` is rendered for all data, in every context and by every engine,
if there is room for its plain sections and calls of `with`, and the sink takes every text. -/
theorem Engine.renders_whatever_data {ω σ : Type} (engine : Engine ω) {sink : Sink σ}
    (haccepts : sink.AcceptsAll) {segments : List Segment}
    (hsimple : ∀ part ∈ partsAll segments, part.IsSimple) {state : Rendering (Store ω) σ}
    (hroom : state.scope.depth + nestingAll Registered.isWith segments ≤ engine.config.scopeLimit) :
    ((engine.renderIn sink segments).outcome state).1 = .ok () := by
  have hsucceeds : Render.Succeeds engine.setting (nestingAll Registered.isWith segments)
      (engine.renderIn sink segments) := Render.succeeds_all haccepts hsimple
  obtain ⟨⟨⟩, last, hrun, -⟩ := hsucceeds state hroom
  exact congrArg Prod.fst hrun

def failingEngine : Engine Unit where
  config := { scopeLimit := 3 }
  locators := []
  resolvers := ⟨[⟨0, "failing", fun _ name => .error ⟨name⟩⟩]⟩
  registry := .builtin
  transform := fun _ _ => .null

def gallerySegments : List Segment :=
  [.block "owner" false
      [.invocation ⟨0, "with", withHelper⟩ ⟨"with", [.name "address"], [], true, 1⟩
        [.output "street" true 1] (some [.text "none"])] 1,
    .block "owner" true
      [.invocation ⟨0, "if", ifHelper⟩ ⟨"if", [.name "open"], [], true, 2⟩ [.comment] none] 2]

theorem Engine.renders_whatever_data_gallery :
    let state : Rendering (Store Unit) String :=
      ⟨.ofRoot "gallery" (.list [.null]), failingEngine.emptyStore (), ""⟩
    Sink.text.AcceptsAll ∧
      (∀ part ∈ partsAll gallerySegments, part.IsSimple) ∧
      state.scope.depth + nestingAll Registered.isWith gallerySegments ≤
        failingEngine.config.scopeLimit ∧
      ((failingEngine.renderIn .text gallerySegments).outcome state).1 = .ok () := by
  intro state
  have hsimple : ∀ part ∈ partsAll gallerySegments, part.IsSimple := by
    simp [gallerySegments, partsAll, Segment.parts, Segment.IsSimple]
  have hroom : state.scope.depth + nestingAll Registered.isWith gallerySegments ≤
      failingEngine.config.scopeLimit := by decide +kernel
  exact ⟨fun _ _ => rfl, hsimple, hroom,
    failingEngine.renders_whatever_data (fun _ _ => rfl) hsimple hroom⟩

def crampedEngine : Engine Unit :=
  Setup.toEngine { config := { scopeLimit := 1 }, registry := .builtin }

/-- Calls of `with` count also if they are tags that render nothing: they open a scope all the
same. -/
theorem Engine.not_renders_whatever_data_with_tag :
    ¬ ∀ (engine : Engine Unit) (segments : List Segment) (state : Rendering (Store Unit) String),
      (∀ part ∈ partsAll segments, part.IsSimple) →
      state.scope.depth + nestingAll Registered.isWithBlock segments ≤ engine.config.scopeLimit →
      ((engine.renderIn .text segments).outcome state).1 = .ok () := by
  intro h
  let tag : Segment :=
    .invocation ⟨0, "with", withHelper⟩ ⟨"with", [.name "x"], [], false, 1⟩ [] none
  let state : Rendering (Store Unit) String :=
    ⟨.ofRoot "t" (.map [("x", .bool true)]), crampedEngine.emptyStore (), ""⟩
  have hsimple : ∀ part ∈ partsAll [tag], part.IsSimple := by
    simp [tag, partsAll, Segment.parts, Segment.IsSimple]
  have hrendered := h crampedEngine [tag] state hsimple (by decide +kernel)
  have hrefused : ((crampedEngine.renderIn .text [tag]).outcome state).1 =
      .error (.recursionLimit "t" 1) := by decide +kernel
  rw [hrefused] at hrendered
  contradiction

end Stencil
