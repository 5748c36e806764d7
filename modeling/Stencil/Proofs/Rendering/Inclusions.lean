import Stencil.Proofs.Rendering.Entailing
import Stencil.Proofs.Rendering.Following
import Stencil.Proofs.Rendering.Recursion

/-! What an inclusion comes to: its template is rendered as if its segments stood in place of the
tag, and behind an indent its text is written only once all of it is known. -/

namespace Stencil

open Segment (AllCallOnly)

namespace Render

variable {κ σ : Type}

theorem outcome_writeAll (sink : Sink σ) (pieces : List String) (state : Rendering κ σ) :
    (writeAll sink pieces).outcome state =
      let (taken, output) := sink.writeUntil pieces state.output
      (if taken then .ok () else .error .write, { state with output }) := by
  induction pieces generalizing state with
  | nil => rfl
  | cons piece later ih =>
    rw [writeAll, outcome_bind, Sink.writeUntil]
    rcases hwrite : sink.write piece state.output with ⟨_ | _, after⟩
    · simp [write, hwrite]
    · have hfirst : (write sink piece : Render κ σ Unit).outcome state =
          (.ok (), { state with output := after }) := by simp [write, hwrite]
      rw [hfirst]
      exact ih _

/-- Behind an indent, segments are rendered into a text, whose lines are then written. -/
theorem outcome_place_of_indent (sink : Sink σ) (render : Renderer κ) {indent : String}
    (hindent : indent ≠ "") (body : List Segment) (state : Rendering κ σ) :
    (place sink render indent body).outcome state =
      match (render String .text body).outcome ⟨state.scope, state.store, ""⟩ with
      | (.error error, last) => (.error error, ⟨last.scope, last.store, state.output⟩)
      | (.ok (), last) =>
        let (taken, output) := sink.writeUntil (indentedPieces indent last.output) state.output
        (if taken then .ok () else .error .write, ⟨last.scope, last.store, output⟩) := by
  have hempty : ¬ indent.isEmpty = true := by simpa using hindent
  rw [place, if_neg hempty, outcome_bind, collect, outcome_collectBehind]
  rcases (render String .text body).outcome ⟨state.scope, state.store, ""⟩ with
    ⟨error | ⟨⟩, last⟩
  · rfl
  · exact outcome_writeAll sink _ _

theorem outcome_inclusion (setting : Setting κ) (sink : Sink σ) (deeper : Option (Renderer κ))
    (name indent : String) (state : Rendering κ σ) :
    (inclusion setting sink deeper name indent).outcome state =
      let (found, store) := (setting.find name).outcome state.store
      match found, deeper with
      | .error error, _ => (.error error, { state with store })
      | .ok none, _ => (.ok (), { state with store })
      | .ok (some _), none =>
        (.error (.recursionLimit name setting.config.inclusionLimit), { state with store })
      | .ok (some template), some render =>
        let (result, last) := (place sink render indent template.segments).outcome
          { state with scope := state.scope.enter name, store }
        (result, { last with scope := last.scope.leave }) := by
  have hfind : (find setting name : Render κ σ (Option Template)).outcome state =
      (((setting.find name).outcome state.store).1,
        { state with store := ((setting.find name).outcome state.store).2 }) := rfl
  rw [inclusion, outcome_bind, hfind]
  rcases (setting.find name).outcome state.store with ⟨error | _ | template, store⟩
  · rfl
  · rfl
  · cases deeper with
    | none => rfl
    | some render =>
      have hinside := outcome_andFinally (place sink render indent template.segments) Scope.leave
        { state with scope := state.scope.enter name, store }
      exact hinside

section Places

variable {setting : Setting κ} {stores : κ → Prop}
  {answers : String → Except Error (Option Template)} {deeper : Option (Renderer κ)}
  {name indent : String} {state last : Rendering κ σ}

theorem found_of_inclusion {sink : Sink σ}
    (h : (inclusion setting sink deeper name indent).outcome state = (.ok (), last)) :
    ∃ found, ((setting.find name).outcome state.store).1 = .ok found := by
  rw [outcome_inclusion] at h
  rcases hfind : (setting.find name).outcome state.store with ⟨error | found, store⟩ <;>
    simp only [hfind] at h
  · cases h
  · exact ⟨found, rfl⟩

/-- Where an inclusion succeeds, so does its template in place, with any renderer that succeeds
where the deeper one does. -/
theorem entails_of_inclusion (hkeeps : setting.Keeps Helper.GivesUp stores answers)
    {template : Template} (hfound : answers name = .ok (some template)) (sink : Sink σ)
    {render : Renderer κ} (hdeeper : ∀ inner ∈ deeper, EntailsEverywhere stores inner render) :
    Entails stores Any (inclusion setting sink deeper name "")
      (render σ sink template.segments) := by
  rintro state second ⟨⟩ last hsame hlast -
  have hanswer := (hkeeps.finds name state.store hsame.store).trans hfound
  have hstore := hkeeps.keeps name state.store hsame.store
  rw [outcome_inclusion] at hlast
  rcases hfind : (setting.find name).outcome state.store with ⟨found, store⟩
  simp only [hfind] at hanswer hstore hlast
  subst hanswer
  cases deeper with
  | none => cases hlast
  | some inner =>
    let entered : Rendering κ σ := ⟨state.scope.enter name, store, state.output⟩
    have hentered : SameFrames stores entered second :=
      ⟨hsame.frames, hsame.output, hstore, hsame.other⟩
    have hplace : place sink inner "" template.segments = inner σ sink template.segments := rfl
    rcases hinner : (inner σ sink template.segments).outcome entered with ⟨result, middle⟩
    simp only [entered] at hinner
    simp only [hplace, hinner, Prod.mk.injEq] at hlast
    obtain ⟨rfl, rfl⟩ := hlast
    obtain ⟨behind, hother, hmiddle⟩ := hdeeper inner rfl σ sink template.segments
      (hkeeps.calls name template hfound) entered second () middle hentered hinner trivial
    exact ⟨behind, hother, hmiddle.frames, hmiddle.output, hmiddle.store, hmiddle.other⟩

/-- The template of a name is found, and is rendered into a text one inclusion deeper. -/
structure RenderedAside (setting : Setting κ) (deeper : Option (Renderer κ)) (name : String)
    (scope : Scope) (store : κ) (template : Template) (written : Rendering κ String) : Prop where
  found : ((setting.find name).outcome store).1 = .ok (some template)
  rendered : ∃ inner ∈ deeper, (inner String .text template.segments).outcome
    ⟨scope.enter name, ((setting.find name).outcome store).2, ""⟩ = (.ok (), written)

/-- Behind an indent the lines of the text are written. -/
theorem RenderedAside.outcome {template : Template} {written : Rendering κ String}
    (h : RenderedAside setting deeper name state.scope state.store template written)
    (hindent : indent ≠ "") (sink : Sink σ) :
    (inclusion setting sink deeper name indent).outcome state =
      let (taken, output) := sink.writeUntil (indentedPieces indent written.output) state.output
      (if taken then .ok () else .error .write, ⟨written.scope.leave, written.store, output⟩) := by
  obtain ⟨hfound, inner, rfl, hrendered⟩ := h
  rw [outcome_inclusion]
  rcases hfind : (setting.find name).outcome state.store with ⟨found, store⟩
  simp only [hfind] at hfound hrendered
  simp only [hfound, outcome_place_of_indent sink inner hindent, hrendered]

/-- What is rendered into any sink can be rendered into a text. -/
theorem Follows.exists_text {render : Renderer κ} (h : FollowsEverywhere stores render)
    {sink : Sink σ} {body : List Segment} (hcalls : AllCallOnly Helper.Heeds body) {scope : Scope}
    {store : κ} (hstore : stores store) {output : σ}
    (hok : (render σ sink body).outcome ⟨scope, store, output⟩ = (.ok (), last)) :
    ∃ written, (render String .text body).outcome ⟨scope, store, ""⟩ = (.ok (), written) := by
  obtain ⟨pieces, -, -, hcopied⟩ := h σ sink body hcalls scope store [] output hstore
  obtain ⟨texts, -, -, htext⟩ := h String .text body hcalls scope store [] "" hstore
  have hreference :
      ((render (List String) .pieces body).outcome ⟨scope, store, []⟩).1 = .ok () := by
    rcases hwritten : sink.writeUntil pieces output with ⟨_ | _, after⟩
    · have hfailed := (hcopied.refused after hwritten).1
      rw [hok] at hfailed
      cases hfailed
    · exact (congrArg Prod.fst ((hcopied.taken after hwritten).symm.trans hok))
  have hrendered := htext.taken _ (Sink.writeUntil_text texts "")
  rw [hreference] at hrendered
  exact ⟨_, hrendered⟩

/-- If an inclusion succeeds, its text is known, whether it has an indent or not. -/
theorem exists_renderedAside (hdeeper : ∀ inner ∈ deeper, FollowsEverywhere stores inner)
    {template : Template}
    (hfound : ((setting.find name).outcome state.store).1 = .ok (some template))
    (hcalls : AllCallOnly Helper.Heeds template.segments)
    (hstore : stores ((setting.find name).outcome state.store).2) {sink : Sink σ}
    (h : (inclusion setting sink deeper name indent).outcome state = (.ok (), last)) :
    ∃ written, RenderedAside setting deeper name state.scope state.store template written := by
  rw [outcome_inclusion] at h
  rcases hfind : (setting.find name).outcome state.store with ⟨found, store⟩
  simp only [hfind] at hfound hstore h
  subst hfound
  cases deeper with
  | none => cases h
  | some inner =>
    have hwritten : ∃ written, (inner String .text template.segments).outcome
        ⟨state.scope.enter name, store, ""⟩ = (.ok (), written) := by
      by_cases hindent : indent = ""
      · subst hindent
        have hplace : (inner σ sink template.segments).outcome
            ⟨state.scope.enter name, store, state.output⟩ = (.ok (), _) :=
          Prod.ext (Prod.mk.inj h).1 rfl
        exact Follows.exists_text (hdeeper inner rfl) hcalls hstore hplace
      · simp only [outcome_place_of_indent sink inner hindent] at h
        rcases hinner : (inner String .text template.segments).outcome
            ⟨state.scope.enter name, store, ""⟩ with ⟨error | ⟨⟩, written⟩ <;>
          simp only [hinner] at h
        · cases h
        · exact ⟨written, rfl⟩
    obtain ⟨written, hrendered⟩ := hwritten
    refine ⟨written, by rw [hfind], inner, rfl, ?_⟩
    rw [hfind]
    exact hrendered

/-- An indented inclusion that fails has written nothing, unless its whole text is known. -/
theorem output_of_failed_inclusion {sink : Sink σ} {error : Error} (hindent : indent ≠ "")
    (h : (inclusion setting sink deeper name indent).outcome state = (.error error, last)) :
    last.output = state.output ∨ ∃ template written,
      RenderedAside setting deeper name state.scope state.store template written := by
  rw [outcome_inclusion] at h
  rcases hfind : (setting.find name).outcome state.store with ⟨fault | _ | template, store⟩ <;>
    simp only [hfind] at h
  · exact .inl (congrArg Rendering.output (Prod.mk.inj h).2).symm
  · cases h
  · cases deeper with
    | none => exact .inl (congrArg Rendering.output (Prod.mk.inj h).2).symm
    | some inner =>
      simp only [outcome_place_of_indent sink inner hindent] at h
      rcases hinner : (inner String .text template.segments).outcome
          ⟨state.scope.enter name, store, ""⟩ with ⟨fault | ⟨⟩, written⟩ <;>
        simp only [hinner] at h
      · exact .inl (congrArg Rendering.output (Prod.mk.inj h).2).symm
      · exact .inr ⟨template, written, by rw [hfind], inner, rfl, by rw [hfind]; exact hinner⟩

theorem outcome_all_inclusion (setting : Setting κ) (sink : Sink σ) (name indent : String)
    (line : Nat) (state : Rendering κ σ) :
    (all setting sink [.inclusion name indent line]).outcome state =
      (inclusion setting sink (deeperIn setting state.scope) name indent).outcome state := by
  rw [outcome_all_singleton, segment]

end Places

end Render

end Stencil
