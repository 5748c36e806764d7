import Stencil.Proofs.Tree.Parts
import Stencil.Render

/-! Which templates inclusions can lead to, where looking for a template may change the store. -/

namespace Stencil

variable {κ : Type}

mutual

/-- The templates that can come to be rendered where `start` is: itself, and what is found under a
name that one of them includes. -/
inductive Setting.Reaches (setting : Setting κ) (start : Template) (store : κ) :
    Template → Prop where
  | start : Setting.Reaches setting start store start
  | inclusion {outer found : Template} {name : String} {before : κ}
      (houter : Setting.Reaches setting start store outer) (hincludes : outer.Includes name)
      (hbefore : Setting.Leads setting start store before)
      (hfinds : ((setting.find name).outcome before).1 = .ok (some found)) :
    Setting.Reaches setting start store found

/-- The stores in which such a name can come to be looked for: the first one, and those behind
another search. -/
inductive Setting.Leads (setting : Setting κ) (start : Template) (store : κ) : κ → Prop where
  | start : Setting.Leads setting start store store
  | inclusion {outer : Template} {name : String} {before : κ}
      (houter : Setting.Reaches setting start store outer) (hincludes : outer.Includes name)
      (hbefore : Setting.Leads setting start store before) :
    Setting.Leads setting start store ((setting.find name).outcome before).2

end

/-- No inclusion leads out of these templates and these stores. -/
structure Setting.Encloses (setting : Setting κ) (templates : Template → Prop)
    (stores : κ → Prop) : Prop where
  finds : ∀ outer name store found, templates outer → outer.Includes name → stores store →
    ((setting.find name).outcome store).1 = .ok (some found) → templates found
  keeps : ∀ outer name store, templates outer → outer.Includes name → stores store →
    stores ((setting.find name).outcome store).2

namespace Setting

variable {setting : Setting κ} {start : Template} {store : κ}

theorem encloses_reached (setting : Setting κ) (start : Template) (store : κ) :
    setting.Encloses (setting.Reaches start store) (setting.Leads start store) where
  finds _ _ _ _ houter hincludes hstore hfinds := .inclusion houter hincludes hstore hfinds
  keeps _ _ _ houter hincludes hstore := .inclusion houter hincludes hstore

/-- Nothing leads out of two templates if one includes only the other, and that one none. -/
theorem encloses_pair {outer inner : Template} {name : String}
    (houter : ∀ included, outer.Includes included → included = name)
    (hinner : ∀ included, ¬ inner.Includes included)
    (hfinds : ∀ store, ((setting.find name).outcome store).1 = .ok (some inner)) :
    setting.Encloses (fun template => template = outer ∨ template = inner) fun _ => True where
  finds := by
    rintro _ included store found (rfl | rfl) hincludes - hfound
    · obtain rfl := houter included hincludes
      rw [hfinds] at hfound
      exact .inr (Option.some.inj (Except.ok.inj hfound)).symm
    · exact absurd hincludes (hinner included)
  keeps _ _ _ _ _ _ := trivial

section Enclosing

variable {templates : Template → Prop} {stores : κ → Prop}

/-- What holds of all that is found in sound stores also holds of what is found by inclusions. -/
theorem Encloses.provided (h : setting.Encloses templates stores) {provided : Template → Prop}
    {sound : κ → Prop}
    (hsound : ∀ name store, sound store → sound ((setting.find name).outcome store).2 ∧
      ∀ found, ((setting.find name).outcome store).1 = .ok (some found) → provided found) :
    setting.Encloses (fun template => templates template ∧ provided template)
      (fun store => stores store ∧ sound store) where
  finds outer name store found houter hincludes hstore hfinds :=
    ⟨h.finds outer name store found houter.1 hincludes hstore.1 hfinds,
      (hsound name store hstore.2).2 found hfinds⟩
  keeps outer name store houter hincludes hstore :=
    ⟨h.keeps outer name store houter.1 hincludes hstore.1, (hsound name store hstore.2).1⟩

mutual

/-- What encloses a template and a store has all templates that can be reached there. -/
theorem Encloses.reaches (h : setting.Encloses templates stores) (hstart : templates start)
    (hstore : stores store) : ∀ {template}, setting.Reaches start store template →
      templates template
  | _, .start => hstart
  | _, .inclusion houter hincludes hbefore hfinds =>
    h.finds _ _ _ _ (h.reaches hstart hstore houter) hincludes (h.leads hstart hstore hbefore)
      hfinds

theorem Encloses.leads (h : setting.Encloses templates stores) (hstart : templates start)
    (hstore : stores store) : ∀ {before}, setting.Leads start store before → stores before
  | _, .start => hstore
  | _, .inclusion houter hincludes hbefore =>
    h.keeps _ _ _ (h.reaches hstart hstore houter) hincludes (h.leads hstart hstore hbefore)

end

end Enclosing

end Setting

end Stencil
