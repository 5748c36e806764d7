import Stencil.Proofs.Rendering.Matching

/-! Relations of renderings that go through everything a template can ask for but inclusions: what
holds of single steps, and of steps one after the other, holds of whole templates if it holds of
their inclusions. -/

namespace Stencil.Render

variable {κ σ α : Type}

/-- A relation of renderings that steps in the open scopes have, and that goes through attempts and
through what follows. What a step reads of the scopes are the open ones, not the inclusions. -/
structure Congruence (setting : Setting κ) (sink : Sink σ)
    (alike : {α : Type} → Render κ σ α → Render κ σ α → Prop) : Prop where
  done {α : Type} (result : Except Error α) : alike (.done result) (.done result)
  bind {α β : Type} {action other : Render κ σ α} {rest later : α → Render κ σ β} :
    alike action other → (∀ a, alike (rest a) (later a)) → alike (action >>= rest) (other >>= later)
  attempt {α : Type} {action other : Render κ σ α} :
    alike action other → alike action.attempt other.attempt
  ask {α : Type} {f : Rendering κ σ → α} (h : ∀ state second : Rendering κ σ,
    second.scope.frames = state.scope.frames → f second = f state) : alike (.ask f) (.ask f)
  reframe (f : List Frame → List Frame) :
    alike (changeScope fun scope => { scope with frames := f scope.frames })
      (changeScope fun scope => { scope with frames := f scope.frames })
  push (value : Value) (position : Option Iteration) :
    alike (.push setting value position) (.push setting value position)
  pop : alike .pop .pop
  write (text : String) : alike (.write sink text) (.write sink text)

namespace Congruence

variable {setting : Setting κ} {sink : Sink σ}
  {alike : {α : Type} → Render κ σ α → Render κ σ α → Prop} (h : Congruence setting sink alike)

include h

theorem pure (a : α) : alike (Pure.pure a) (Pure.pure a) := h.done (.ok a)

theorem writeAll (texts : List String) :
    alike (Render.writeAll sink texts) (Render.writeAll sink texts) := by
  induction texts with
  | nil => exact h.pure ()
  | cons text later ih => exact h.bind (h.write text) fun _ => ih

theorem resolve (name : String) :
    alike (Render.resolve setting name) (Render.resolve setting name) := by
  refine h.ask ?_
  rintro ⟨⟨template, frames, inclusions⟩, store, output⟩ ⟨⟨_, _, _⟩, _, _⟩ rfl
  rfl

theorem andFinally {action other : Render κ σ α} (hbody : alike action other)
    (f : List Frame → List Frame) :
    alike (action.andFinally fun scope => { scope with frames := f scope.frames })
      (other.andFinally fun scope => { scope with frames := f scope.frames }) :=
  h.bind (h.attempt hbody) fun result => h.bind (h.reframe f) fun _ => h.done result

section Blocks

variable {body other : Render κ σ Unit} (hbody : alike body other)

include hbody

theorem under (value : Value) (position : Option Iteration) :
    alike (Render.under setting value position body)
      (Render.under setting value position other) := by
  have hpop : (fun scope : Scope => scope.pop.2) =
      fun scope => { scope with frames := scope.frames.tail } :=
    funext fun scope => congrArg Prod.snd scope.pop_eq
  refine h.bind (h.push value position) fun _ => ?_
  rw [hpop]
  exact h.andFinally hbody List.tail

theorem elements (size before : Nat) (values : List Value) :
    alike (Render.elements setting body size before values)
      (Render.elements setting other size before values) := by
  induction values generalizing before with
  | nil => exact h.pure ()
  | cons value later ih => exact h.bind (h.under hbody _ _) fun _ => ih _

theorem plainBlock (name : String) :
    alike (Render.plainBlock setting name body) (Render.plainBlock setting name other) := by
  refine h.bind (h.resolve name) fun found => ?_
  split
  · exact h.pure ()
  · split
    · exact h.elements hbody _ _ _
    · split
      · exact h.under hbody _ _
      · exact h.pure ()

theorem invertedBlock (name : String) :
    alike (Render.invertedBlock setting name body) (Render.invertedBlock setting name other) := by
  refine h.bind (h.resolve name) fun found => ?_
  split
  · exact hbody
  · exact h.pure ()

end Blocks

theorem output (name : String) (escaped : Bool) :
    alike (Render.output setting sink name escaped) (Render.output setting sink name escaped) := by
  refine h.bind (h.resolve name) fun found => ?_
  split
  · exact h.pure ()
  · exact h.pure ()
  · split
    · exact h.writeAll _
    · exact h.write _

section Calls

variable {body other elseBody otherElse : Render κ σ Unit} (hbody : alike body other)
  (helse : alike elseBody otherElse)

include hbody helse

/-- A script gets the same answers to its requests. -/
theorem runScript (script : Script α) (pushed : Nat) :
    alike (Render.runScript setting sink body elseBody pushed script)
      (Render.runScript setting sink other otherElse pushed script) := by
  induction script generalizing pushed with
  | done result => exact h.pure _
  | push value position next ih =>
    rw [Render.runScript, Render.runScript]
    refine h.bind (h.attempt (h.push value position)) fun answer => ?_
    cases answer with
    | ok _ => exact ih _ _
    | error error => exact ih _ _
  | pop next ih =>
    cases pushed with
    | zero => exact ih none 0
    | succ left => exact h.bind h.pop fun answer => ih answer left
  | renderBody next ih => exact h.bind (h.attempt hbody) fun answer => ih answer pushed
  | renderElse next ih => exact h.bind (h.attempt helse) fun answer => ih answer pushed
  | append text next ih => exact h.bind (h.attempt (h.write text)) fun answer => ih answer pushed
  | peek next ih =>
    refine h.bind (h.ask ?_) fun answer => ih answer pushed
    rintro ⟨⟨template, frames, inclusions⟩, store, output⟩ ⟨⟨_, _, _⟩, _, _⟩ rfl
    rfl
  | resolve name next ih => exact h.bind (h.resolve name) fun answer => ih answer pushed
  | apply function argument next ih => exact ih _ pushed

theorem invocation (helper : Helper) (tag : HelperTag) (hasElse : Bool) :
    alike (Render.invocation setting sink helper tag hasElse body elseBody)
      (Render.invocation setting sink helper tag hasElse other otherElse) := by
  refine h.bind (h.ask ?_) fun call => h.bind (h.runScript hbody helse _ 0) ?_
  · rintro ⟨⟨template, frames, inclusions⟩, store, output⟩ ⟨⟨_, _, _⟩, _, _⟩ rfl
    rfl
  · rintro ⟨result, pushed⟩
    exact h.bind (h.reframe (List.drop pushed)) fun _ => h.done result

end Calls

mutual

theorem segmentBy {included other : String → String → Render κ σ Unit}
    (hincluded : ∀ name indent, alike (included name indent) (other name indent)) :
    ∀ part : Segment, alike (Render.segmentBy setting sink included part)
      (Render.segmentBy setting sink other part)
  | .text text => h.write text
  | .output name escaped _ => h.output name escaped
  | .block name false body _ => h.plainBlock (segmentsBy hincluded body) name
  | .block name true body _ => h.invertedBlock (segmentsBy hincluded body) name
  | .inclusion name indent _ => hincluded name indent
  | .invocation registered tag body none =>
    h.invocation (segmentsBy hincluded body) (h.pure ()) registered.helper tag false
  | .invocation registered tag body (some elseBody) =>
    h.invocation (segmentsBy hincluded body) (segmentsBy hincluded elseBody) registered.helper tag
      true
  | .comment => h.pure ()

/-- Segments are alike if inclusions are. -/
theorem segmentsBy {included other : String → String → Render κ σ Unit}
    (hincluded : ∀ name indent, alike (included name indent) (other name indent)) :
    ∀ parts : List Segment, alike (Render.segmentsBy setting sink included parts)
      (Render.segmentsBy setting sink other parts)
  | [] => h.pure ()
  | first :: later => h.bind (segmentBy hincluded first) fun _ => segmentsBy hincluded later

end

end Congruence

end Stencil.Render
