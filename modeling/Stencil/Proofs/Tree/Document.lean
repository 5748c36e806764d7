import Stencil.Proofs.Tree.Step

/-! Well-nested documents and their trees. The items read so far are a document for the outermost
part and one for each open block, and this holds from item to item; so trees are built from the
well-nested documents and from nothing else. -/

namespace Stencil

/-- A well-nested document and its segments, where the document is directly in a helper block or
not. -/
inductive Document (registry : Registry) : Bool → List Item → List Segment → Prop where
  | nil {inHelper : Bool} : Document registry inHelper [] []
  | text {inHelper : Bool} {items : List Item} {segments : List Segment}
      (before : Document registry inHelper items segments) (text : String) (line : Nat)
      (indent : String) :
    Document registry inHelper (items ++ [⟨.literal text line, indent⟩])
      (Tree.appendText text segments)
  | delimiterChange {inHelper : Bool} {items : List Item} {segments : List Segment}
      (before : Document registry inHelper items segments) (opening closing : String) (line : Nat)
      (indent : String) :
    Document registry inHelper (items ++ [⟨.delimiterChange opening closing line, indent⟩]) segments
  | leaf {inHelper : Bool} {items : List Item} {segments : List Segment} {item : Item}
      {segment : Segment} (before : Document registry inHelper items segments)
      (leaf : Leaf registry inHelper item segment) :
    Document registry inHelper (items ++ [item]) (segments ++ [segment])
  | plainBlock {inHelper : Bool} {items inner : List Item} {segments body : List Segment}
      {item : Item} {name : String} {inverted : Bool} {line : Nat}
      (before : Document registry inHelper items segments)
      (opens : OpensPlain registry item name inverted line)
      (inside : Document registry false inner body) (closeLine : Nat) (closeIndent : String) :
    Document registry inHelper
      (items ++ item :: inner ++ [⟨.tag .closing name closeLine, closeIndent⟩])
      (segments ++ [.block name inverted body line])
  | helperBlock {inHelper : Bool} {items inner : List Item} {segments body : List Segment}
      {content : String} {line : Nat} {registered : Registered}
      (before : Document registry inHelper items segments)
      (call : IsCall registry content true line registered) (indent : String)
      (inside : Document registry true inner body) (closeLine : Nat) (closeIndent : String) :
    Document registry inHelper
      (items ++ ⟨.tag .opening content line, indent⟩ :: inner ++
        [⟨.tag .closing registered.name closeLine, closeIndent⟩])
      (segments ++ [.invocation registered (.ofContent content true line) body none])
  | dividedBlock {inHelper : Bool} {items inner later : List Item}
      {segments body elseBody : List Segment} {content : String} {line : Nat}
      {registered : Registered} (before : Document registry inHelper items segments)
      (call : IsCall registry content true line registered) (indent : String)
      (inside : Document registry true inner body) (elseLine : Nat) (elseIndent : String)
      (behind : Document registry true later elseBody) (closeLine : Nat) (closeIndent : String) :
    Document registry inHelper
      (items ++ ⟨.tag .opening content line, indent⟩ :: inner ++
        ⟨.tag .escaped "else" elseLine, elseIndent⟩ :: later ++
        [⟨.tag .closing registered.name closeLine, closeIndent⟩])
      (segments ++ [.invocation registered (.ofContent content true line) body (some elseBody)])

variable {registry : Registry} {template : String}

namespace Tree

theorem update_update (tree : Tree) (f g : List Segment → List Segment) :
    (tree.update f).update g = tree.update (g ∘ f) := by
  obtain ⟨root, _ | ⟨⟨opener, name, line, body, _ | elseBody⟩, outer⟩⟩ := tree <;> rfl

theorem update_id (tree : Tree) : tree.update id = tree := by
  obtain ⟨root, _ | ⟨⟨opener, name, line, body, _ | elseBody⟩, outer⟩⟩ := tree <;> rfl

theorem inHelper_update (tree : Tree) (f : List Segment → List Segment) :
    (tree.update f).inHelper = tree.inHelper := by
  obtain ⟨root, _ | ⟨⟨opener, name, line, body, _ | elseBody⟩, outer⟩⟩ := tree <;> rfl

theorem add_update (tree : Tree) (segments : List Segment) (segment : Segment) :
    (tree.update fun _ => segments).add segment = tree.update fun _ => segments ++ [segment] :=
  tree.update_update _ _

end Tree

/-- A document is accepted where nothing has been read before, and gives its segments. -/
theorem Document.steps (hnames : registry.Unquoted) {inHelper : Bool} {items : List Item}
    {segments : List Segment} (h : Document registry inHelper items segments) (tree : Tree)
    (hin : tree.inHelper = inHelper) :
    Tree.Steps registry (tree.update fun _ => []) items (tree.update fun _ => segments) := by
  induction h generalizing tree with
  | nil => exact .refl _
  | text before text line indent ih =>
    have hlast := (ih tree hin).snoc (.text _ text line indent)
    rwa [Tree.addText, Tree.update_update] at hlast
  | delimiterChange before opening closing line indent ih =>
    exact (ih tree hin).snoc (.delimiterChange _ opening closing line indent)
  | @leaf inHelper items segments item segment before leaf ih =>
    have hplace : (tree.update fun _ => segments).inHelper = inHelper :=
      (tree.inHelper_update _).trans hin
    have hlast := (ih tree hin).snoc (.adds (hplace ▸ leaf))
    rwa [Tree.add_update] at hlast
  | @plainBlock inHelper items inner segments body item name inverted line before opens inside
      closeLine closeIndent ih ihInside =>
    have hopen := (ih tree hin).snoc (.opens _ opens)
    have hinside := ihInside
      ((tree.update fun _ => segments).openBlock (.plain inverted) name line) rfl
    have hclose := (hopen.append hinside).snoc (.closes _ ⟨.plain inverted, name, line, body, none⟩
      _ closeLine closeIndent)
    rw [List.append_cons items, ← Tree.add_update]
    exact hclose
  | @helperBlock inHelper items inner segments body content line registered before call indent
      inside closeLine closeIndent ih ihInside =>
    let opener : Opener := .helper registered (.ofContent content true line)
    have hopen := (ih tree hin).snoc (.opensHelper hnames _ call indent)
    have hinside := ihInside
      ((tree.update fun _ => segments).openBlock opener registered.name line) rfl
    have hclose := (hopen.append hinside).snoc (.closes _
      ⟨opener, registered.name, line, body, none⟩ _ closeLine closeIndent)
    rw [List.append_cons items, ← Tree.add_update]
    exact hclose
  | @dividedBlock inHelper items inner later segments body elseBody content line registered before
      call indent inside elseLine elseIndent behind closeLine closeIndent ih ihInside ihBehind =>
    let opener : Opener := .helper registered (.ofContent content true line)
    have hopen := (ih tree hin).snoc (.opensHelper hnames _ call indent)
    have hinside := ihInside
      ((tree.update fun _ => segments).openBlock opener registered.name line) rfl
    have hdivide := (hopen.append hinside).snoc (.divides _
      ⟨opener, registered.name, line, body, none⟩ _ rfl rfl elseLine elseIndent)
    have hbehind := ihBehind
      ⟨(tree.update fun _ => segments).root, ⟨opener, registered.name, line, body, some []⟩ ::
        (tree.update fun _ => segments).opened⟩ rfl
    have hclose := (hdivide.append hbehind).snoc (.closes _
      ⟨opener, registered.name, line, body, some elseBody⟩ _ closeLine closeIndent)
    rw [List.append_cons items, List.append_cons _ _ later, ← Tree.add_update]
    exact hclose

/-- What has been read of a document when some blocks are open: the items read so far are a document
for the segments outside of all blocks, and one for each part of each open block. -/
inductive Reading (registry : Registry) : List Item → Tree → Prop where
  | root {items : List Item} {segments : List Segment}
      (document : Document registry false items segments) :
    Reading registry items ⟨segments, []⟩
  | plainBlock {items inner : List Item} {tree : Tree} {body : List Segment} {item : Item}
      {name : String} {inverted : Bool} {line : Nat} (outer : Reading registry items tree)
      (opens : OpensPlain registry item name inverted line)
      (inside : Document registry false inner body) :
    Reading registry (items ++ item :: inner)
      ⟨tree.root, ⟨.plain inverted, name, line, body, none⟩ :: tree.opened⟩
  | helperBlock {items inner : List Item} {tree : Tree} {body : List Segment} {content : String}
      {line : Nat} {registered : Registered} (outer : Reading registry items tree)
      (call : IsCall registry content true line registered) (indent : String)
      (inside : Document registry true inner body) :
    Reading registry (items ++ ⟨.tag .opening content line, indent⟩ :: inner)
      ⟨tree.root, ⟨.helper registered (.ofContent content true line), registered.name, line, body,
        none⟩ :: tree.opened⟩
  | dividedBlock {items inner later : List Item} {tree : Tree} {body elseBody : List Segment}
      {content : String} {line : Nat} {registered : Registered}
      (outer : Reading registry items tree)
      (call : IsCall registry content true line registered) (indent : String)
      (inside : Document registry true inner body) (elseLine : Nat) (elseIndent : String)
      (behind : Document registry true later elseBody) :
    Reading registry
      (items ++ ⟨.tag .opening content line, indent⟩ :: inner ++
        ⟨.tag .escaped "else" elseLine, elseIndent⟩ :: later)
      ⟨tree.root, ⟨.helper registered (.ofContent content true line), registered.name, line, body,
        some elseBody⟩ :: tree.opened⟩

/-- Items that continue any document at a place continue what has been read there. -/
theorem Reading.extend {items more : List Item} {tree : Tree} {f : List Segment → List Segment}
    (h : Reading registry items tree)
    (hmore : ∀ inner segments, Document registry tree.inHelper inner segments →
      Document registry tree.inHelper (inner ++ more) (f segments)) :
    Reading registry (items ++ more) (tree.update f) := by
  cases h with
  | root document => exact .root (hmore _ _ document)
  | plainBlock outer opens inside =>
    rw [List.append_assoc, List.cons_append]
    exact .plainBlock outer opens (hmore _ _ inside)
  | helperBlock outer call indent inside =>
    rw [List.append_assoc, List.cons_append]
    exact .helperBlock outer call indent (hmore _ _ inside)
  | dividedBlock outer call indent inside elseLine elseIndent behind =>
    rw [List.append_assoc _ _ more, List.cons_append]
    exact .dividedBlock outer call indent inside elseLine elseIndent (hmore _ _ behind)

/-- The end of the innermost block ends a document, which stands in the part around the block. -/
theorem Reading.close {items : List Item} {root : List Segment} {block : OpenBlock}
    {outer : List OpenBlock} (h : Reading registry items ⟨root, block :: outer⟩) (line : Nat)
    (indent : String) :
    Reading registry (items ++ [⟨.tag .closing block.name line, indent⟩])
      (Tree.add ⟨root, outer⟩ block.toSegment) := by
  cases h with
  | plainBlock before opens inside =>
    rw [List.append_assoc]
    refine before.extend fun inner segments document => ?_
    rw [← List.append_assoc]
    exact .plainBlock document opens inside line indent
  | helperBlock before call openIndent inside =>
    rw [List.append_assoc]
    refine before.extend fun inner segments document => ?_
    rw [← List.append_assoc]
    exact .helperBlock document call openIndent inside line indent
  | dividedBlock before call openIndent inside elseLine elseIndent behind =>
    rw [List.append_assoc, List.append_assoc]
    refine before.extend fun inner segments document => ?_
    rw [← List.append_assoc, ← List.append_assoc]
    exact .dividedBlock document call openIndent inside elseLine elseIndent behind line indent

/-- Reading one item more keeps to documents. -/
theorem Reading.step (hnames : registry.Unquoted) {items : List Item} {tree next : Tree}
    {item : Item} (h : Reading registry items tree) (hstep : Tree.Step registry tree item next) :
    Reading registry (items ++ [item]) next := by
  cases hstep with
  | text tree text line indent =>
    exact h.extend fun inner segments document => .text document text line indent
  | delimiterChange tree opening closing line indent =>
    have hlast := h.extend (f := id) fun inner segments document =>
      .delimiterChange document opening closing line indent
    rwa [Tree.update_id] at hlast
  | adds leaf => exact h.extend fun inner segments document => .leaf document leaf
  | opens tree opens =>
    cases opens with
    | plain hplain indent => exact .plainBlock h (.plain hplain indent) .nil
    | inverted _ _ indent => exact .plainBlock h (.inverted _ _ indent) .nil
    | helper hcall indent =>
      obtain ⟨call, rfl⟩ := hcall
      rw [Tree.name_ofContent hnames call]
      exact .helperBlock h call indent .nil
  | divides root block outer hhelper hnone line indent =>
    cases h with
    | plainBlock before opens inside => contradiction
    | helperBlock before call openIndent inside =>
      exact .dividedBlock before call openIndent inside line indent .nil
    | dividedBlock before call openIndent inside elseLine elseIndent behind => contradiction
  | closes root block outer line indent => exact h.close line indent

theorem Reading.steps (hnames : registry.Unquoted) {items later : List Item} {tree last : Tree}
    (h : Reading registry items tree) (hsteps : Tree.Steps registry tree later last) :
    Reading registry (items ++ later) last := by
  induction hsteps generalizing items with
  | refl tree => rwa [List.append_nil]
  | cons step steps ih =>
    rw [List.append_cons]
    exact ih (h.step hnames step)

/-- Trees are built from the well-nested documents exactly, and are theirs. -/
theorem ofItems_eq_ok_iff (hnames : registry.Unquoted) {items : List Item}
    {segments : List Segment} :
    Tree.ofItems registry template items = .ok segments ↔
      Document registry false items segments := by
  constructor
  · intro h
    cases hread : items.foldlM (Tree.addItem registry template) {} with
    | error error => simp [Tree.ofItems, hread, bind, Except.bind] at h
    | ok tree =>
      have hreading := (Reading.root .nil).steps hnames ((Tree.foldlM_addItem_iff hnames).mp hread)
      rw [List.nil_append] at hreading
      simp only [Tree.ofItems, hread, bind, Except.bind] at h
      cases hreading with
      | root document =>
        obtain rfl := Except.ok.inj h
        exact document
      | _ => contradiction
  · intro h
    have hread : items.foldlM (Tree.addItem registry template) {} = .ok ⟨segments, []⟩ :=
      (Tree.foldlM_addItem_iff hnames).mpr (h.steps hnames {} rfl)
    rw [Tree.ofItems, hread]
    rfl

end Stencil
