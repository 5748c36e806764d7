import Stencil.Proofs.Tree.HelperCall

/-! What one item can do to a tree in the making, by what the contents of tags are read as. Reading
them with a registry of helpers, an item is accepted exactly if there is such a change. -/

namespace Stencil

theorem isElse_eq_true {kind : TagKind} {content : String} {inHelper : Bool}
    (h : isElse kind content inHelper = true) :
    inHelper = true ∧ kind = .escaped ∧ content = "else" := by
  simp only [isElse, Bool.and_eq_true, beq_iff_eq] at h
  exact ⟨h.1.1, h.1.2, h.2⟩

/-- What a content is read as on a line, in a block tag or in another one: the call of a helper, or
none. -/
abbrev CallReading := String → Bool → Nat → Option (Registered × HelperTag) → Prop

/-- The reading of an accepted tag, by a registry. -/
def CallReading.accepted (registry : Registry) (template : String) : CallReading :=
  fun content block line call => Tree.helperCall registry template content block line = .ok call

namespace Tree

/-- A tag that opens nothing and its segment, where the tag is directly in a helper block or not. -/
inductive Adds (reads : CallReading) (inHelper : Bool) : Item → Segment → Prop where
  | comment (content : String) (line : Nat) (indent : String) :
    Adds reads inHelper ⟨.tag .comment content line, indent⟩ .comment
  | inclusion (content : String) (line : Nat) (indent : String) :
    Adds reads inHelper ⟨.tag .inclusion content line, indent⟩ (.inclusion content indent line)
  | output {kind : TagKind} {content : String} {line : Nat}
      (hkind : kind = .escaped ∨ kind = .unescaped) (helse : isElse kind content inHelper = false)
      (hplain : reads content false line none) (indent : String) :
    Adds reads inHelper ⟨.tag kind content line, indent⟩ (.output content (kind == .escaped) line)
  | call {kind : TagKind} {content : String} {line : Nat} {registered : Registered}
      {tag : HelperTag} (hkind : kind = .escaped ∨ kind = .unescaped)
      (helse : isElse kind content inHelper = false)
      (hcall : reads content false line (some (registered, tag))) (indent : String) :
    Adds reads inHelper ⟨.tag kind content line, indent⟩ (.invocation registered tag [] none)

/-- A tag that opens a block, and what the block is. -/
inductive Opens (reads : CallReading) : Item → Opener → String → Nat → Prop where
  | plain {content : String} {line : Nat} (hplain : reads content true line none)
      (indent : String) :
    Opens reads ⟨.tag .opening content line, indent⟩ (.plain false) content line
  | inverted (content : String) (line : Nat) (indent : String) :
    Opens reads ⟨.tag .inverted content line, indent⟩ (.plain true) content line
  | helper {content : String} {line : Nat} {registered : Registered} {tag : HelperTag}
      (hcall : reads content true line (some (registered, tag))) (indent : String) :
    Opens reads ⟨.tag .opening content line, indent⟩ (.helper registered tag) tag.name line

/-- What an accepted item does to a tree. -/
inductive Change (reads : CallReading) : Tree → Item → Tree → Prop where
  | text (tree : Tree) (text : String) (line : Nat) (indent : String) :
    Change reads tree ⟨.literal text line, indent⟩ (tree.addText text)
  | delimiterChange (tree : Tree) (opening closing : String) (line : Nat) (indent : String) :
    Change reads tree ⟨.delimiterChange opening closing line, indent⟩ tree
  | adds {tree : Tree} {item : Item} {segment : Segment}
      (adds : Adds reads tree.inHelper item segment) :
    Change reads tree item (tree.add segment)
  | opens (tree : Tree) {item : Item} {opener : Opener} {name : String} {line : Nat}
      (opens : Opens reads item opener name line) :
    Change reads tree item (tree.openBlock opener name line)
  | divides (root : List Segment) (block : OpenBlock) (outer : List OpenBlock)
      (hhelper : block.isHelper = true) (hnone : block.elseBody = none) (line : Nat)
      (indent : String) :
    Change reads ⟨root, block :: outer⟩ ⟨.tag .escaped "else" line, indent⟩
      ⟨root, { block with elseBody := some [] } :: outer⟩
  | closes (root : List Segment) (block : OpenBlock) (outer : List OpenBlock) (line : Nat)
      (indent : String) :
    Change reads ⟨root, block :: outer⟩ ⟨.tag .closing block.name line, indent⟩
      (Tree.add ⟨root, outer⟩ block.toSegment)

/-- What more is read as, more changes. -/
theorem Change.mono {reads other : CallReading}
    (hreads : ∀ content block line call, reads content block line call →
      other content block line call)
    {tree next : Tree} {item : Item} (h : Change reads tree item next) :
    Change other tree item next := by
  cases h with
  | text tree text line indent => exact .text tree text line indent
  | delimiterChange tree opening closing line indent =>
    exact .delimiterChange tree opening closing line indent
  | adds adds =>
    cases adds with
    | comment content line indent => exact .adds (.comment content line indent)
    | inclusion content line indent => exact .adds (.inclusion content line indent)
    | output hkind helse hplain indent =>
      exact .adds (.output hkind helse (hreads _ _ _ _ hplain) indent)
    | call hkind helse hcall indent =>
      exact .adds (.call hkind helse (hreads _ _ _ _ hcall) indent)
  | opens tree opens =>
    cases opens with
    | plain hplain indent => exact .opens tree (.plain (hreads _ _ _ _ hplain) indent)
    | inverted _ _ indent => exact .opens tree (.inverted _ _ indent)
    | helper hcall indent => exact .opens tree (.helper (hreads _ _ _ _ hcall) indent)
  | divides root block outer hhelper hnone line indent =>
    exact .divides root block outer hhelper hnone line indent
  | closes root block outer line indent => exact .closes root block outer line indent

variable {registry : Registry} {template : String}

theorem addTag_output {kind : TagKind} (hkind : kind = .escaped ∨ kind = .unescaped) (tree : Tree)
    (indent content : String) (line : Nat) :
    addTag registry template tree indent kind content line =
      if isElse kind content tree.inHelper then tree.divide template line
      else (helperCall registry template content false line).map fun call =>
        match call with
        | some (registered, tag) => tree.add (.invocation registered tag [] none)
        | none => tree.add (.output content (kind == .escaped) line) := by
  rcases hkind with rfl | rfl <;>
  · simp only [addTag]
    rcases helperCall registry template content false line with _ | _ | _ <;> rfl

theorem addTag_opening (tree : Tree) (indent content : String) (line : Nat) :
    addTag registry template tree indent .opening content line =
      (helperCall registry template content true line).map fun call =>
        match call with
        | some (registered, tag) => tree.openBlock (.helper registered tag) tag.name line
        | none => tree.openBlock (.plain false) content line := by
  simp only [addTag]
  rcases helperCall registry template content true line with _ | _ | _ <;> rfl

/-- A call is one of the helper that the first word names, as the tag reads. -/
theorem helperCall_eq_some {content : String} {block : Bool} {line : Nat}
    {registered : Registered} {tag : HelperTag}
    (h : helperCall registry template content block line = .ok (some (registered, tag))) :
    registry.get? (String.ofList (Text.firstWord content.toList)) = some registered ∧
      HelperTag.read content block line = .ok (some tag) := by
  unfold helperCall at h
  split at h
  · cases Except.ok.inj h
  · rename_i called hcalled
    split at h
    · contradiction
    · cases Except.ok.inj h
    · rename_i read hread
      split at h
      · contradiction
      · obtain ⟨rfl, rfl⟩ := Prod.mk.inj (Option.some.inj (Except.ok.inj h))
        exact ⟨hcalled, hread⟩

theorem change_of_close {tree next : Tree} {name : String} {line : Nat}
    (h : tree.close template name line = .ok next) (indent : String) :
    Change (.accepted registry template) tree ⟨.tag .closing name line, indent⟩ next := by
  obtain ⟨root, opened⟩ := tree
  unfold close at h
  cases opened with
  | nil => contradiction
  | cons block outer =>
    by_cases hname : block.name = name
    · subst hname
      obtain rfl : Tree.add ⟨root, outer⟩ block.toSegment = next := by simpa using h
      exact .closes root block outer line indent
    · simp [hname] at h

/-- Only a block that is not divided yet is divided. -/
theorem divide_eq_ok {tree next : Tree} {line : Nat} (h : tree.divide template line = .ok next) :
    ∃ root block outer, tree = ⟨root, block :: outer⟩ ∧ block.elseBody = none ∧
      next = ⟨root, { block with elseBody := some [] } :: outer⟩ := by
  obtain ⟨root, opened⟩ := tree
  unfold divide at h
  cases opened with
  | nil => contradiction
  | cons block outer =>
    cases hnone : block.elseBody with
    | none =>
      simp only [hnone, Except.ok.injEq] at h
      exact ⟨root, block, outer, rfl, hnone, h.symm⟩
    | some body => simp [hnone] at h

theorem change_of_divide {tree next : Tree} {line : Nat} (hhelper : tree.inHelper = true)
    (h : tree.divide template line = .ok next) (indent : String) :
    Change (.accepted registry template) tree ⟨.tag .escaped "else" line, indent⟩ next := by
  obtain ⟨root, block, outer, rfl, hnone, rfl⟩ := divide_eq_ok h
  exact .divides root block outer hhelper hnone line indent

theorem change_of_output {kind : TagKind} (hkind : kind = .escaped ∨ kind = .unescaped)
    {tree next : Tree} {indent content : String} {line : Nat}
    (h : addTag registry template tree indent kind content line = .ok next) :
    Change (.accepted registry template) tree ⟨.tag kind content line, indent⟩ next := by
  rw [addTag_output hkind] at h
  by_cases helse : isElse kind content tree.inHelper = true
  · obtain ⟨hhelper, rfl, rfl⟩ := isElse_eq_true helse
    rw [if_pos helse] at h
    exact change_of_divide hhelper h indent
  · rw [if_neg helse] at h
    simp only [Bool.not_eq_true] at helse
    rcases hread : helperCall registry template content false line with _ | _ | ⟨registered, tag⟩
    · simp [hread, Except.map] at h
    · simp only [hread, Except.map, Except.ok.injEq] at h
      exact h ▸ .adds (.output hkind helse hread indent)
    · simp only [hread, Except.map, Except.ok.injEq] at h
      exact h ▸ .adds (.call hkind helse hread indent)

theorem change_of_opening {tree next : Tree} {indent content : String} {line : Nat}
    (h : addTag registry template tree indent .opening content line = .ok next) :
    Change (.accepted registry template) tree ⟨.tag .opening content line, indent⟩ next := by
  rw [addTag_opening] at h
  rcases hread : helperCall registry template content true line with _ | _ | ⟨registered, tag⟩
  · simp [hread, Except.map] at h
  · simp only [hread, Except.map, Except.ok.injEq] at h
    exact h ▸ .opens tree (.plain hread indent)
  · simp only [hread, Except.map, Except.ok.injEq] at h
    exact h ▸ .opens tree (.helper hread indent)

theorem change_of_addItem {tree next : Tree} {item : Item}
    (h : addItem registry template tree item = .ok next) :
    Change (.accepted registry template) tree item next := by
  obtain ⟨token, indent⟩ := item
  cases token with
  | literal text line =>
    obtain rfl := Except.ok.inj h
    exact .text tree text line indent
  | delimiterChange opening closing line =>
    obtain rfl := Except.ok.inj h
    exact .delimiterChange tree opening closing line indent
  | tag kind content line =>
    cases kind with
    | comment =>
      obtain rfl := Except.ok.inj h
      exact .adds (.comment content line indent)
    | inclusion =>
      obtain rfl := Except.ok.inj h
      exact .adds (.inclusion content line indent)
    | inverted =>
      obtain rfl := Except.ok.inj h
      exact .opens tree (.inverted content line indent)
    | closing => exact change_of_close h indent
    | opening => exact change_of_opening h
    | escaped => exact change_of_output (.inl rfl) h
    | unescaped => exact change_of_output (.inr rfl) h

theorem addItem_of_change {tree next : Tree} {item : Item}
    (h : Change (.accepted registry template) tree item next) :
    addItem registry template tree item = .ok next := by
  cases h with
  | text tree text line indent => rfl
  | delimiterChange tree opening closing line indent => rfl
  | adds adds =>
    cases adds with
    | comment content line indent => rfl
    | inclusion content line indent => rfl
    | output hkind helse hplain indent =>
      simp only [CallReading.accepted, addItem] at hplain ⊢
      rw [addTag_output hkind, helse, hplain]
      rfl
    | call hkind helse hcall indent =>
      simp only [CallReading.accepted, addItem] at hcall ⊢
      rw [addTag_output hkind, helse, hcall]
      rfl
  | opens tree opens =>
    cases opens with
    | plain hplain indent =>
      simp only [CallReading.accepted, addItem] at hplain ⊢
      rw [addTag_opening, hplain]
      rfl
    | inverted content line indent => rfl
    | helper hcall indent =>
      simp only [CallReading.accepted, addItem] at hcall ⊢
      rw [addTag_opening, hcall]
      rfl
  | divides root block outer hhelper hnone line indent =>
    simp [addItem, addTag, isElse, inHelper, hhelper, divide, hnone]
  | closes root block outer line indent => simp [addItem, addTag, close]

/-- Items are accepted for the changes that the helpers of a registry make of them. -/
theorem addItem_eq_ok_iff {tree next : Tree} {item : Item} :
    addItem registry template tree item = .ok next ↔
      Change (.accepted registry template) tree item next :=
  ⟨change_of_addItem, addItem_of_change⟩

/-- A text joins the text at the end of some segments, or stands behind them as a new one. -/
theorem appendText_cases (text : String) (segments : List Segment) :
    (∃ front last, segments = front ++ [.text last] ∧
      appendText text segments = front ++ [.text (last ++ text)]) ∨
    appendText text segments = segments ++ [.text text] := by
  induction segments with
  | nil => exact .inr rfl
  | cons segment later ih =>
    cases later with
    | nil =>
      cases segment with
      | text last => exact .inl ⟨[], last, rfl, rfl⟩
      | _ => exact .inr rfl
    | cons next later =>
      have hskip : appendText text (segment :: next :: later) =
          segment :: appendText text (next :: later) := by
        cases segment <;> rfl
      rcases ih with ⟨front, last, hsplit, hjoined⟩ | hnew
      · exact .inl ⟨segment :: front, last, by simp [hsplit], by simp [hskip, hjoined]⟩
      · exact .inr (by simp [hskip, hnew])

theorem foldlM_cons_eq_ok {item : Item} {later : List Item} {tree last : Tree}
    (h : (item :: later).foldlM (addItem registry template) tree = .ok last) :
    ∃ next, addItem registry template tree item = .ok next ∧
      later.foldlM (addItem registry template) next = .ok last := by
  rw [List.foldlM_cons] at h
  cases hitem : addItem registry template tree item with
  | error error =>
    rw [hitem] at h
    contradiction
  | ok next =>
    rw [hitem] at h
    exact ⟨next, rfl, h⟩

/-- What holds of a tree and the items read so far, and is kept by every change that an item makes,
holds behind all of them. -/
theorem invariant_of_foldlM {items : List Item} {tree last : Tree}
    (h : items.foldlM (addItem registry template) tree = .ok last)
    (invariant : List Item → Tree → Prop) (start : invariant [] tree)
    (step : ∀ read item current next, item ∈ items → invariant read current →
      Change (.accepted registry template) current item next → invariant (read ++ [item]) next) :
    invariant items last := by
  induction items generalizing tree invariant with
  | nil =>
    obtain rfl := Except.ok.inj h
    exact start
  | cons item later ih =>
    obtain ⟨next, hitem, hlater⟩ := foldlM_cons_eq_ok h
    have hnext := step [] item tree next List.mem_cons_self start (change_of_addItem hitem)
    refine ih hlater (fun read => invariant (item :: read)) hnext ?_
    intro read other current next hmem
    exact step (item :: read) other current next (List.mem_cons_of_mem item hmem)

end Tree

end Stencil
