import Stencil.Proofs.Rendering.Deepening
import Stencil.Proofs.Rendering.Inclusions
import Stencil.Proofs.Rendering.Indenting

/-! Templates that do no more than include the next one behind an indent. The first one is rendered
as the text of the last one, with all the indents in front of each line. -/

namespace Stencil.Render

variable {κ : Type}

def textBy (action : Render κ String Unit) (scope : Scope) (store : κ) : Except Error String :=
  let (result, last) := action.outcome ⟨scope, store, ""⟩
  result.map fun _ => last.output

/-- Segments in place write their text behind the indent. -/
theorem textBy_place (render : Renderer κ) (indent : String) (body : List Segment) (scope : Scope)
    (store : κ) :
    textBy (place .text render indent body) scope store =
      (textBy (render String .text body) scope store).map (indented indent) := by
  by_cases hindent : indent = ""
  · subst hindent
    have hplace : place .text render "" body = render String .text body := rfl
    have hsame : indented "" = id := funext indented_empty
    rw [hplace, hsame]
    cases textBy (render String .text body) scope store <;> rfl
  · rw [textBy, outcome_place_of_indent .text render hindent, textBy]
    rcases (render String .text body).outcome ⟨scope, store, ""⟩ with ⟨error | ⟨⟩, last⟩
    · rfl
    · simp only [writeUntil_indentedPieces]
      exact congrArg Except.ok (String.empty_append ..)

/-- The text of the template that a name stands for, empty if there is none. -/
def foundText (setting : Setting κ) (answer : Except Error (Option Template)) (scope : Scope)
    (store : κ) : Except Error String :=
  match answer with
  | .error error => .error error
  | .ok none => .ok ""
  | .ok (some template) => textBy (all setting .text template.segments) scope store

variable {setting : Setting κ} {allowed : Helper → Prop} {stores : κ → Prop}
  {answers : String → Except Error (Option Template)}

/-- A template that is one inclusion has the text of what it includes, behind the indent. -/
theorem textBy_inclusion (hkeeps : setting.Keeps allowed stores answers) {store : κ}
    (hstore : stores store) (scope : Scope)
    (hroom : scope.inclusions.length < setting.config.inclusionLimit) (name indent : String)
    (line : Nat) :
    textBy (all setting .text [.inclusion name indent line]) scope store =
      (foundText setting (answers name) (scope.enter name)
        ((setting.find name).outcome store).2).map (indented indent) := by
  have hanswer := hkeeps.finds name store hstore
  let depth := setting.config.inclusionLimit - (scope.enter name).inclusions.length
  have hdepth : setting.config.inclusionLimit - scope.inclusions.length = depth + 1 := by
    simp only [depth, Scope.enter, List.length_cons]
    omega
  have hdeeper : deeperIn setting scope = some (nested setting depth) := by
    rw [deeperIn, hdepth]
  have hinner : ∀ body after, textBy (all setting .text body) (scope.enter name) after =
      textBy (nested setting depth String .text body) (scope.enter name) after := fun _ _ => rfl
  rw [textBy, outcome_all_inclusion, outcome_inclusion, hdeeper]
  rcases hfind : (setting.find name).outcome store with ⟨error | _ | template, after⟩ <;>
    simp only [hfind] at hanswer ⊢ <;> rw [← hanswer, foundText]
  · rfl
  · rfl
  · rw [hinner, ← textBy_place, textBy]

/-- By these answers, templates that consist of one inclusion each lead from one name to another,
through inclusions with these indents. -/
inductive LeadsTo (answers : String → Except Error (Option Template)) :
    String → List String → String → Prop where
  | last (name : String) : LeadsTo answers name [] name
  | next {name next last indent : String} {indents : List String} {line : Nat} :
    answers name = .ok (some ⟨name, [.inclusion next indent line]⟩) → '\n' ∉ indent.toList →
    LeadsTo answers next indents last → LeadsTo answers name (indent :: indents) last

theorem LeadsTo.inline {name last : String} {indents : List String}
    (h : LeadsTo answers name indents last) : '\n' ∉ (String.join indents).toList := by
  induction h with
  | last => simp
  | next _ hindent _ ih =>
    rw [String.join_cons, String.toList_append]
    exact List.mem_append.not.mpr (not_or.mpr ⟨hindent, ih⟩)

theorem map_indented_indented {inner : String} (h : '\n' ∉ inner.toList) (outer : String)
    (text : Except Error String) :
    (text.map (indented inner)).map (indented outer) = text.map (indented (outer ++ inner)) := by
  cases text with
  | error error => rfl
  | ok text => exact congrArg Except.ok (indented_indented h outer text)

/-- Through all these inclusions the last template is rendered, and each line of its text gets all
the indents. -/
theorem LeadsTo.foundText_eq (hkeeps : setting.Keeps allowed stores answers) {name last : String}
    {indents : List String} (h : LeadsTo answers name indents last) (scope : Scope) {store : κ}
    (hstore : stores store) (hcurrent : scope.currentTemplate = name)
    (hroom : scope.inclusions.length + indents.length ≤ setting.config.inclusionLimit) :
    ∃ inner after, stores after ∧ inner.currentTemplate = last ∧ inner.frames = scope.frames ∧
      inner.inclusions.length = scope.inclusions.length + indents.length ∧
      foundText setting (answers name) scope store =
        (foundText setting (answers last) inner after).map (indented (String.join indents)) := by
  induction h generalizing scope store with
  | last name =>
    refine ⟨scope, store, hstore, hcurrent, rfl, rfl, ?_⟩
    have hsame : indented (String.join []) = id := funext indented_empty
    rw [hsame]
    cases foundText setting (answers name) scope store <;> rfl
  | @next name next last indent indents line hname hindent hnext ih =>
    rw [List.length_cons] at hroom ⊢
    obtain ⟨inner, after, hafter, hinner, hframes, hlength, htext⟩ :=
      ih (scope.enter next) (hkeeps.keeps next store hstore) rfl
        (by rw [Scope.enter, List.length_cons]; omega)
    refine ⟨inner, after, hafter, hinner, hframes, ?_, ?_⟩
    · rw [hlength, Scope.enter, List.length_cons]
      omega
    · have hlast := textBy_inclusion hkeeps hstore scope (by omega) next indent line
      rw [htext, map_indented_indented hnext.inline] at hlast
      rw [hname, String.join_cons]
      exact hlast

/-- The last template alone has the same text, if it leaves room for the inclusions before it. -/
theorem LeadsTo.foundText_ofRoot (hkeeps : setting.Keeps allowed stores answers)
    {first last : String} {indents : List String} (h : LeadsTo answers first indents last)
    {store other : κ} (hstore : stores store) (hother : stores other) (data : Value)
    (hroom : indents.length ≤ setting.config.inclusionLimit)
    (hwithin : ∀ template, answers last = .ok (some template) →
      Within (setting.config.inclusionLimit - indents.length)
        (all setting .text template.segments) ⟨.ofRoot last data, other, ""⟩) :
    foundText setting (answers first) (.ofRoot first data) store =
      (foundText setting (answers last) (.ofRoot last data) other).map
        (indented (String.join indents)) := by
  obtain ⟨inner, after, hafter, hcurrent, hframes, hlength, htext⟩ :=
    h.foundText_eq hkeeps (.ofRoot first data) hstore rfl (by simpa [Scope.ofRoot] using hroom)
  rw [htext]
  congr 1
  rcases hlast : answers last with error | _ | template
  · rfl
  · rfl
  · have hcount : inner.inclusions.length = indents.length := by
      simpa [Scope.ofRoot] using hlength
    have hdeeper : Deeper stores inner 0 ⟨.ofRoot last data, other, ""⟩ ⟨inner, after, ""⟩ :=
      { scope := by
          obtain ⟨template, frames, inclusions⟩ := inner
          obtain rfl : frames = [⟨data, none⟩] := hframes
          rfl
        template := hcurrent.symm
        active := rfl
        output := rfl
        store := hother
        other := hafter }
    have hgoes := outcome_all_of_deeper hkeeps .text template.segments hdeeper
      (by rw [hcount]; omega) (by rw [hcount]; exact hwithin template hlast)
    simp only [foundText, textBy, hgoes.1, hgoes.2.output]

end Stencil.Render
