import Mathlib.Data.List.Forall2
import Stencil.Proofs.Effect
import Stencil.Render

/-! Open scopes that are alike, frame by frame, and the names that mean the same in them. -/

namespace Stencil

/-- Like frames are equally truthy, and every frame is like itself. -/
structure Frame.Likeness (like : Frame → Frame → Prop) : Prop where
  refl : ∀ frame, like frame frame
  truth : ∀ frame other, like frame other → other.value.isTruthy = frame.value.isTruthy

structure Scope.Alike (like : Frame → Frame → Prop) (scope other : Scope) : Prop where
  template : other.template = scope.template
  inclusions : other.inclusions = scope.inclusions
  frames : List.Forall₂ like scope.frames other.frames

namespace Scope.Alike

variable {like : Frame → Frame → Prop} {scope other : Scope}

theorem push (h : scope.Alike like other) (hlike : Frame.Likeness like) (limit : Nat)
    (value : Value) (position : Option Iteration) :
    Agree (Alike like) (scope.push limit value position) (other.push limit value position) := by
  have hdepth : other.depth = scope.depth := h.frames.length_eq.symm
  have htemplate : other.currentTemplate = scope.currentTemplate := by
    rw [currentTemplate, currentTemplate, h.template, h.inclusions]
  unfold Scope.push
  rw [hdepth, htemplate]
  split
  · exact .error _
  · exact .ok ⟨h.template, h.inclusions, .cons (hlike.refl _) h.frames⟩

theorem pop (h : scope.Alike like other) : scope.pop.2.Alike like other.pop.2 := by
  obtain ⟨htemplate, hinclusions, hframes⟩ := h
  obtain ⟨template, frames, inclusions⟩ := scope
  obtain ⟨otherTemplate, otherFrames, otherInclusions⟩ := other
  cases hframes with
  | nil => exact ⟨htemplate, hinclusions, .nil⟩
  | cons hframe houter => exact ⟨htemplate, hinclusions, houter⟩

theorem drop (h : scope.Alike like other) (count : Nat) :
    (scope.drop count).Alike like (other.drop count) :=
  ⟨h.template, h.inclusions, List.forall₂_drop count h.frames⟩

theorem enter (h : scope.Alike like other) (name : String) :
    (scope.enter name).Alike like (other.enter name) :=
  ⟨h.template, congrArg (name :: ·) h.inclusions, h.frames⟩

theorem leave (h : scope.Alike like other) : scope.leave.Alike like other.leave :=
  ⟨h.template, congrArg List.tail h.inclusions, h.frames⟩

theorem truth (h : scope.Alike like other) (hlike : Frame.Likeness like) :
    other.peek.isTruthy = scope.peek.isTruthy := by
  obtain ⟨-, -, hframes⟩ := h
  obtain ⟨template, frames, inclusions⟩ := scope
  obtain ⟨otherTemplate, otherFrames, otherInclusions⟩ := other
  cases hframes with
  | nil => rfl
  | cons hframe houter => exact hlike.truth _ _ hframe

end Scope.Alike

namespace Naming

def Settles (naming : Naming) (like : Frame → Frame → Prop) (name : String) : Prop :=
  ∀ scope other : Scope, scope.Alike like other →
    naming.resolve other name = naming.resolve scope name

end Naming

def Argument.names : Argument → List String
  | .literal _ => []
  | .name text => [text]

def HelperTag.names (tag : HelperTag) : List String :=
  tag.params.flatMap Argument.names ++ tag.named.flatMap fun entry => entry.2.names

/-- The names that a segment looks up, apart from those of the segments inside of it. -/
def Segment.names : Segment → List String
  | .output name _ _ => [name]
  | .block name _ _ _ => [name]
  | .invocation _ tag _ _ => tag.names
  | _ => []

section Evaluating

variable {naming : Naming} {like : Frame → Frame → Prop} {scope other : Scope}

theorem Naming.evaluate_congr (h : scope.Alike like other) {argument : Argument}
    (hnames : ∀ name ∈ argument.names, naming.Settles like name) :
    naming.evaluate other argument = naming.evaluate scope argument := by
  cases argument with
  | literal value => rfl
  | name text =>
    have htext : naming.resolve other text = naming.resolve scope text :=
      hnames text (List.mem_singleton.mpr rfl) scope other h
    rw [evaluate, evaluate, htext]

theorem callOf_congr {κ : Type} {setting : Setting κ} (h : scope.Alike like other)
    {tag : HelperTag} (hnames : ∀ name ∈ tag.names, setting.naming.Settles like name)
    (hasElse : Bool) :
    Render.callOf setting other tag hasElse = Render.callOf setting scope tag hasElse := by
  have hparams : tag.params.map (setting.naming.evaluate other) =
      tag.params.map (setting.naming.evaluate scope) :=
    List.map_congr_left fun argument hargument => setting.naming.evaluate_congr h
      fun name hname => hnames name
        (List.mem_append_left _ (List.mem_flatMap.mpr ⟨argument, hargument, hname⟩))
  have hnamed : tag.named.map (fun entry => (entry.1, setting.naming.evaluate other entry.2)) =
      tag.named.map fun entry => (entry.1, setting.naming.evaluate scope entry.2) :=
    List.map_congr_left fun entry hentry => congrArg (Prod.mk entry.1)
      (setting.naming.evaluate_congr h fun name hname => hnames name
        (List.mem_append_right _ (List.mem_flatMap.mpr ⟨entry, hentry, hname⟩)))
  rw [Render.callOf, Render.callOf, hparams]
  exact congrArg (Call.mk tag _ · hasElse) hnamed

end Evaluating

end Stencil
