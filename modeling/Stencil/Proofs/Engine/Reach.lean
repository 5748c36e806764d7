import Stencil.Proofs.Engine.Limits
import Stencil.Proofs.Rendering.Reach
import Stencil.Proofs.Tree.WellFormed

/-! What the templates have in common that inclusions lead to in an engine: it has compiled them. -/

namespace Stencil.Engine

open Segment (AllCallOnly)

variable {ω : Type} {engine : Engine ω} {template : Template}

theorem Compiles.allCallOnly (h : engine.Compiles template) {allowed : Helper → Prop}
    (hallowed : ∀ entry ∈ engine.registry.helpers, allowed entry.2) :
    AllCallOnly allowed template.segments := by
  obtain ⟨name, source, hcompile⟩ := h
  exact allCallOnly_of_compile hallowed hcompile

theorem Compiles.blankIndents (h : engine.Compiles template) : BlankIndents template.segments := by
  obtain ⟨name, source, hcompile⟩ := h
  exact blankIndents_of_compile hcompile

/-- What holds of all compiled templates also holds of those that inclusions lead to from a sound
store. -/
theorem encloses_compiled (engine : Engine ω) (start : Template) (store : Store ω)
    {provided : Template → Prop} (h : ∀ found, engine.Compiles found → provided found) :
    engine.setting.Encloses
      (fun reached => engine.setting.Reaches start store reached ∧ provided reached)
      (fun before => engine.setting.Leads start store before ∧ engine.Sound before) := by
  refine (engine.setting.encloses_reached start store).provided fun name before hbefore => ?_
  obtain ⟨hafter, hcompiles⟩ := hbefore.find_setting name
  exact ⟨hafter, fun found hfound => h found (hcompiles found hfound)⟩

end Stencil.Engine
