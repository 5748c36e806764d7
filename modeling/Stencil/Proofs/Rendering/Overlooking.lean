import Stencil.Proofs.Rendering.Alongside

/-! Renderings overlook what no name leads to. Maps that agree on the names that a template mentions
are taken for the same where they are the outermost data. -/

namespace Stencil

namespace Naming

def firstPart (name : String) : String :=
  (((Text.fields '.' name.toList).map String.ofList).head?).getD ""

end Naming

/-- The same frame, or maps that agree on some keys and are no elements of an iteration. -/
def Frame.AgreesOn (keys : String → Prop) (frame other : Frame) : Prop :=
  other = frame ∨ ∃ entries others, frame = ⟨.map entries, none⟩ ∧ other = ⟨.map others, none⟩ ∧
    ∀ key, keys key → others.lookup key = entries.lookup key

theorem Frame.likeness_agreesOn (keys : String → Prop) : Likeness (AgreesOn keys) where
  refl _ := .inl rfl
  truth := by
    rintro frame other (rfl | ⟨entries, others, rfl, rfl, -⟩) <;> rfl

def Resolver.ReadsKey (resolver : Resolver) (key : String) : Prop :=
  ∀ entries others : List (String × Value), others.lookup key = entries.lookup key →
    resolver.find? (some (.map others)) key = resolver.find? (some (.map entries)) key

def Chain.ReadsKey (chain : Chain) (key : String) : Prop :=
  ∀ entry ∈ chain.entries, entry.resolver.ReadsKey key

section Lookups

variable {keys : String → Prop} {naming : Naming} {key : String}

theorem Chain.resolve_map_congr {chain : Chain} (h : chain.ReadsKey key)
    {entries others : List (String × Value)} (hsame : others.lookup key = entries.lookup key) :
    chain.resolve (some (.map others)) key = chain.resolve (some (.map entries)) key := by
  obtain ⟨ranked⟩ := chain
  unfold resolve
  induction ranked with
  | nil => rfl
  | cons first later ih =>
    obtain ⟨hfirst, hlater⟩ := List.forall_mem_cons.mp h
    have hrest := ih hlater
    rw [List.findSome?_cons, List.findSome?_cons, hfirst entries others hsame, hrest]

theorem Naming.inFrame_congr (h : naming.resolvers.ReadsKey key) (hkey : keys key)
    {frame other : Frame} (hagrees : frame.AgreesOn keys other) :
    naming.inFrame key other = naming.inFrame key frame := by
  obtain rfl | ⟨entries, others, rfl, rfl, hsame⟩ := hagrees
  · rfl
  · exact Chain.resolve_map_congr h (hsame key hkey)

theorem Naming.resolveFirst_congr (h : naming.resolvers.ReadsKey key) (hkey : keys key)
    {frames others : List Frame} (hagree : List.Forall₂ (Frame.AgreesOn keys) frames others) :
    naming.resolveFirst others key = naming.resolveFirst frames key := by
  have hfound : others.findSome? (naming.inFrame key) =
      frames.findSome? (naming.inFrame key) := by
    induction hagree with
    | nil => rfl
    | cons hframe houter ih =>
      rw [List.findSome?_cons, List.findSome?_cons, Naming.inFrame_congr h hkey hframe, ih]
  rw [resolveFirst, resolveFirst, hfound]

/-- A name with parts means the same where maps agree on its first part. -/
theorem Naming.settles_agreesOn {name : String} (hname : name ≠ ".")
    (h : naming.resolvers.ReadsKey (firstPart name)) (hkey : keys (firstPart name)) :
    naming.Settles (Frame.AgreesOn keys) name := by
  intro scope other halike
  unfold resolve
  rw [if_neg hname, if_neg hname]
  cases hparts : (Text.fields '.' name.toList).map String.ofList with
  | nil => rfl
  | cons first later =>
    have hfirst : firstPart name = first := by
      rw [firstPart, hparts]
      rfl
    rw [hfirst] at h hkey
    simp only [resolveFirst_congr h hkey halike.frames]

end Lookups

/-- A template whose names mean the same in like scopes and which calls discreet helpers only. -/
def Template.Settled (naming : Naming) (like : Frame → Frame → Prop) (template : Template) : Prop :=
  (∀ part ∈ template.parts, ∀ name ∈ part.names, naming.Settles like name) ∧
    Segment.AllCallOnly Helper.IsDiscreet template.segments

namespace Render

variable {κ σ : Type} {setting : Setting κ} {like : Frame → Frame → Prop} {stores : κ → Prop}
  {templates : Template → Prop}

abbrev Same (like : Frame → Frame → Prop) (stores : κ → Prop) :
    Rendering κ σ → Rendering κ σ → Prop :=
  Paired like stores fun written second => second = written

theorem suits_of_settled {template : Template} (h : template.Settled setting.naming like)
    (sink : Sink σ) {part : Segment} (hpart : part ∈ template.parts) :
    Suits setting like (fun written second => second = written) sink sink sink part := by
  refine ⟨h.1 part hpart, ?_⟩
  cases part with
  | text text => exact sink.takesAlike_self text
  | output name escaped line => exact fun _ text _ => sink.takesAlike_self text
  | invocation registered tag body elseBody =>
    intro scope hasElse
    have hdiscreet : registered.helper.IsDiscreet := Segment.AllCallOnly.of_mem_parts h.2 hpart
    exact hdiscreet _ _ fun value _ => sink.takesAlike_self value.text
  | block name inverted body line => trivial
  | inclusion name indent line => trivial
  | comment => trivial

theorem Pairs.collect {body other : Render κ String Unit}
    (h : Pairs (Same like stores) body other) :
    Pairs (Same like stores) (collect body : Render κ σ String) (collect other) := by
  intro state second hpaired
  obtain ⟨hresult, hlast⟩ := h ⟨state.scope, state.store, ""⟩ ⟨second.scope, second.store, ""⟩
    ⟨hpaired.scope, hpaired.store, hpaired.sound, rfl⟩
  unfold Render.collect
  rw [outcome_collectBehind, outcome_collectBehind]
  simp only [hresult, hlast.output, true_and]
  exact ⟨hlast.scope, hlast.store, hlast.sound, hpaired.output⟩

variable (hlike : Frame.Likeness like) (hencloses : setting.Encloses templates stores)
  (hsettled : ∀ template, templates template → template.Settled setting.naming like)

include hlike hencloses hsettled

/-- The renderings of a template in like scopes write the same, if inclusions may nest so much
deeper. -/
theorem pairs_nested (depth : Nat) (sink : Sink σ) {template : Template}
    (htemplate : templates template) :
    Pairs (Same like stores) (nested setting depth σ sink template.segments)
      (nested setting depth σ sink template.segments) := by
  have hsegments {τ : Type} (sink : Sink τ) {template : Template} (htemplate : templates template)
      {deeper : Option (Renderer κ)} (hdeeper : ∀ indent, Option.Rel
        (PlacedAlike like stores (fun written second => second = written) templates indent)
        (deeper.map (place sink)) (deeper.map (place sink))) :
      Pairs (Same like stores) (segments setting deeper sink template.segments)
        (segments setting deeper sink template.segments) := by
    have hpairs : Pairs (Same like stores)
        (segmentsBy setting sink (inclusion setting sink deeper) template.segments)
        (segmentsInto setting sink sink (inclusion setting sink deeper) template.segments) := by
      rw [inclusion_eq_inclusionBy]
      exact pairs_segmentsInto hlike template.segments fun part hpart =>
        ⟨suits_of_settled (hsettled template htemplate) sink hpart,
          includesAlike_inclusionBy hencloses htemplate hpart fun _ indent _ _ => hdeeper indent⟩
    rwa [segmentsInto_self, ← segments_eq_segmentsBy] at hpairs
  induction depth generalizing σ template with
  | zero => exact hsegments sink htemplate fun _ => .none
  | succ depth ih =>
    refine hsegments sink htemplate fun indent => .some fun found hfound => ?_
    unfold place
    split
    · exact ih sink hfound
    · have hcollected : Pairs (Same like stores)
          (collect (nested setting depth String .text found.segments) : Render κ σ String)
          (collect (nested setting depth String .text found.segments)) :=
        (ih .text hfound).collect
      exact hcollected.bind fun text => pairs_writeAll fun piece _ => sink.takesAlike_self piece

theorem pairs_all (sink : Sink σ) {template : Template} (htemplate : templates template) :
    Pairs (Same like stores) (all setting sink template.segments)
      (all setting sink template.segments) := by
  apply pairs_ask_bind
  intro state second hpaired
  rw [hpaired.scope.inclusions]
  exact pairs_nested hlike hencloses hsettled _ sink htemplate

end Render

end Stencil
