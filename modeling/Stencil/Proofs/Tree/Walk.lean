import Stencil.Helper.Builtin
import Stencil.Proofs.Tree.Rejection

/-! Walking a tree in the order of its document gives back what was read: every tag in its place,
and texts that stand next to each other as one. -/

namespace Stencil

/-- What is met on a walk through a tree, or in a sequence of items. -/
inductive Event where
  | text (text : String)
  | output (name : String) (escaped : Bool) (line : Nat)
  | inclusion (name indent : String) (line : Nat)
  | comment
  | call (registered : Registered) (tag : HelperTag)
  | opens (opener : Opener) (name : String) (line : Nat)
  | divides
  | closes (name : String)

def Event.isText : Event → Bool
  | .text _ => true
  | _ => false

/-- Events with another one behind them; a text joins the text in front of it. -/
def Event.push : List Event → Event → List Event
  | [], event => [event]
  | [.text s], .text t => [.text (s ++ t)]
  | first :: later, event => first :: push later event

def Event.joined (events : List Event) : List Event := events.foldl push []

namespace Segment

mutual

/-- A block is met at its opening tag, where `else` divides it, and at its closing tag. -/
def walk : Segment → List Event
  | .text s => [.text s]
  | .output name escaped line => [.output name escaped line]
  | .block name inverted body line =>
    .opens (.plain inverted) name line :: (walkAll body ++ [.closes name])
  | .inclusion name indent line => [.inclusion name indent line]
  | .invocation registered tag body none =>
    if tag.block then
      .opens (.helper registered tag) registered.name tag.line ::
        (walkAll body ++ [.closes registered.name])
    else [.call registered tag]
  | .invocation registered tag body (some elseBody) =>
    .opens (.helper registered tag) registered.name tag.line ::
      (walkAll body ++ .divides :: (walkAll elseBody ++ [.closes registered.name]))
  | .comment => [.comment]

def walkAll : List Segment → List Event
  | [] => []
  | segment :: later => walk segment ++ walkAll later

end

end Segment

namespace Item

/-- The event of an item, directly in a helper block or not; there is none for new delimiters. -/
def events (registry : Registry) (inHelper : Bool) (item : Item) : List Event :=
  match item.token with
  | .literal text _ => [.text text]
  | .delimiterChange .. => []
  | .tag kind content line =>
    match kind with
    | .comment => [.comment]
    | .inclusion => [.inclusion content item.indent line]
    | .closing => [.closes content]
    | .inverted => [.opens (.plain true) content line]
    | .opening =>
      match registry.called? content with
      | some registered =>
        [.opens (.helper registered (.ofContent content true line)) registered.name line]
      | none => [.opens (.plain false) content line]
    | .escaped | .unescaped =>
      if isElse kind content inHelper then [.divides]
      else
        match registry.called? content with
        | some registered => [.call registered (.ofContent content false line)]
        | none => [.output content (kind == .escaped) line]

def kindsBehind (registry : Registry) (kinds : OpenKinds) (item : Item) : OpenKinds :=
  match item.token with
  | .tag .opening content _ => (registry.called? content).isSome :: kinds
  | .tag .inverted _ _ => false :: kinds
  | .tag .closing _ _ => kinds.tail
  | _ => kinds

end Item

def itemEvents (registry : Registry) : OpenKinds → List Item → List Event
  | _, [] => []
  | kinds, item :: later =>
    item.events registry (kinds.head?.getD false) ++
      itemEvents registry (item.kindsBehind registry kinds) later

namespace Event

theorem push_append {front back : List Event} (hback : back ≠ []) (event : Event) :
    push (front ++ back) event = front ++ push back event := by
  induction front with
  | nil => rfl
  | cons first front ih =>
    obtain ⟨next, later, hcons⟩ := List.exists_cons_of_ne_nil
      (List.append_ne_nil_of_right_ne_nil front hback)
    rw [List.cons_append, List.cons_append, ← ih, hcons]
    simp [push]

theorem push_of_not_text {event : Event} (h : event.isText = false) (events : List Event) :
    push events event = events ++ [event] := by
  induction events with
  | nil => simp [push]
  | cons first later ih =>
    rw [List.cons_append, ← ih, push]
    intro s t hevent
    simp [hevent, isText] at h

theorem push_singleton {mark : Event} (h : mark.isText = false) (event : Event) :
    push [mark] event = [mark, event] := by
  have hlater : push [] event = [event] := by simp [push]
  rw [push, hlater]
  intro s t _ hmark
  simp [hmark, isText] at h

/-- A mark keeps the texts on both of its sides apart. -/
theorem push_behind {mark : Event} (h : mark.isText = false) (front back : List Event)
    (event : Event) : push (front ++ mark :: back) event = front ++ mark :: push back event := by
  rw [push_append (List.cons_ne_nil mark back)]
  rcases back with _ | ⟨next, later⟩
  · rw [push_singleton h]
    simp [push]
  · simp [push]

theorem joined_append_mark {mark : Event} (h : mark.isText = false) (front back : List Event) :
    joined (front ++ mark :: back) = joined front ++ mark :: joined back := by
  have hbehind : ∀ events, back.foldl push (joined front ++ mark :: events) =
      joined front ++ mark :: back.foldl push events := by
    intro events
    induction back generalizing events with
    | nil => rfl
    | cons event back ih =>
      rw [List.foldl_cons, List.foldl_cons, push_behind h]
      exact ih _
  rw [joined, List.foldl_append, List.foldl_cons, push_of_not_text h]
  exact hbehind []

theorem joined_snoc (events : List Event) (event : Event) :
    joined (events ++ [event]) = push (joined events) event := by
  rw [joined, List.foldl_append]
  rfl

theorem joined_snoc_mark {mark : Event} (h : mark.isText = false) (events : List Event) :
    joined (events ++ [mark]) = joined events ++ [mark] := by
  rw [joined_snoc, push_of_not_text h]

end Event

namespace Segment

theorem walkAll_append (segments later : List Segment) :
    walkAll (segments ++ later) = walkAll segments ++ walkAll later := by
  induction segments with
  | nil => rfl
  | cons segment segments ih => rw [List.cons_append, walkAll, walkAll, ih, List.append_assoc]

theorem walkAll_singleton (segment : Segment) : walkAll [segment] = walk segment := by
  simp [walkAll]

/-- The walk through a segment that is no text ends with a mark. -/
theorem walk_eq_snoc {segment : Segment} (h : ∀ s, segment ≠ .text s) :
    ∃ front mark, Event.isText mark = false ∧ walk segment = front ++ [mark] := by
  cases segment with
  | text s => exact absurd rfl (h s)
  | output name escaped line => exact ⟨[], _, rfl, rfl⟩
  | block name inverted body line =>
    exact ⟨.opens (.plain inverted) name line :: walkAll body, .closes name, rfl, rfl⟩
  | inclusion name indent line => exact ⟨[], _, rfl, rfl⟩
  | comment => exact ⟨[], _, rfl, rfl⟩
  | invocation registered tag body elseBody =>
    cases elseBody with
    | some elseBody =>
      refine ⟨.opens (.helper registered tag) registered.name tag.line ::
        (walkAll body ++ .divides :: walkAll elseBody), .closes registered.name, rfl, ?_⟩
      simp [walk]
    | none =>
      by_cases hblock : tag.block = true
      · refine ⟨.opens (.helper registered tag) registered.name tag.line :: walkAll body,
          .closes registered.name, rfl, ?_⟩
        simp [walk, hblock]
      · exact ⟨[], .call registered tag, rfl, by simp [walk, hblock]⟩

theorem walk_ne_nil (segment : Segment) : walk segment ≠ [] := by
  by_cases h : ∃ s, segment = .text s
  · obtain ⟨s, rfl⟩ := h
    exact List.cons_ne_nil _ _
  · obtain ⟨front, mark, -, hwalk⟩ := walk_eq_snoc (not_exists.mp h)
    simp [hwalk]

/-- A text joins a text at the end of the segments in the same way as on the walk. -/
theorem walkAll_appendText (t : String) (segments : List Segment) :
    walkAll (Tree.appendText t segments) = Event.push (walkAll segments) (.text t) := by
  fun_induction Tree.appendText t segments with
  | case1 => simp [walkAll, walk, Event.push]
  | case2 last => simp [walkAll, walk, Event.push]
  | case3 segment later hnone ih =>
    rw [walkAll, walkAll, ih]
    rcases later with _ | ⟨next, later⟩
    · have htext : ∀ s, segment ≠ .text s := fun s hs => hnone s hs rfl
      obtain ⟨front, mark, hmark, hwalk⟩ := walk_eq_snoc htext
      rw [hwalk, walkAll, List.append_nil, Event.push_behind hmark, List.append_assoc]
      rfl
    · refine (Event.push_append ?_ _).symm
      rw [walkAll]
      exact List.append_ne_nil_of_left_ne_nil (walk_ne_nil next) _

end Segment

variable {registry : Registry} {template : String}

/-- Some events are met in items, and `last` are the open blocks behind them. -/
structure Meets (registry : Registry) (kinds : OpenKinds) (items : List Item) (last : OpenKinds)
    (events : List Event) : Prop where
  behind : items.foldl (Item.kindsBehind registry) kinds = last
  met : itemEvents registry kinds items = events

theorem Meets.append {kinds middle last : OpenKinds} {items later : List Item}
    {events further : List Event} (h : Meets registry kinds items middle events)
    (hlater : Meets registry middle later last further) :
    Meets registry kinds (items ++ later) last (events ++ further) := by
  obtain ⟨rfl, rfl⟩ := h
  obtain ⟨rfl, rfl⟩ := hlater
  refine ⟨List.foldl_append, ?_⟩
  induction items generalizing kinds with
  | nil => rfl
  | cons item items ih => rw [List.cons_append, itemEvents, itemEvents, ih, List.append_assoc]; rfl

theorem Meets.item {kinds last : OpenKinds} {item : Item} {events : List Event}
    (hbehind : item.kindsBehind registry kinds = last)
    (hmet : item.events registry (kinds.head?.getD false) = events) :
    Meets registry kinds [item] last events :=
  ⟨hbehind, by rw [itemEvents, hmet, itemEvents, List.append_nil]⟩

/-- A leaf is met as the same mark in the items and in the tree, and opens nothing. -/
theorem Leaf.meets {kinds : OpenKinds} {item : Item} {segment : Segment}
    (h : Leaf registry (kinds.head?.getD false) item segment) :
    ∃ mark, Event.isText mark = false ∧ segment.walk = [mark] ∧
      Meets registry kinds [item] kinds [mark] := by
  cases h with
  | comment content line indent => exact ⟨.comment, rfl, rfl, .item rfl rfl⟩
  | inclusion content line indent =>
    exact ⟨.inclusion content indent line, rfl, rfl, .item rfl rfl⟩
  | @output kind content line hkind helse hplain indent =>
    have hnone : registry.called? content = none := hplain
    refine ⟨.output content (kind == .escaped) line, rfl, rfl, ?_⟩
    rcases hkind with rfl | rfl <;> exact .item rfl (by simp [Item.events, helse, hnone])
  | @call kind content line registered tag hkind helse hcall indent =>
    obtain ⟨hcall, rfl⟩ := hcall
    refine ⟨.call registered (.ofContent content false line), rfl, ?_, ?_⟩
    · simp [Segment.walk, HelperTag.ofContent]
    · rcases hkind with rfl | rfl <;>
        exact .item rfl (by simp [Item.events, helse, hcall.called])

theorem OpensPlain.meets {item : Item} {name : String} {inverted : Bool} {line : Nat}
    (h : OpensPlain registry item name inverted line) (kinds : OpenKinds) :
    Meets registry kinds [item] (false :: kinds) [.opens (.plain inverted) name line] := by
  cases h with
  | plain hplain indent =>
    have hnone : registry.called? name = none := hplain
    exact .item (by simp [Item.kindsBehind, hnone]) (by simp [Item.events, hnone])
  | inverted _ _ indent => exact .item rfl rfl

theorem IsCall.meets {content : String} {line : Nat} {registered : Registered}
    (h : IsCall registry content true line registered) (indent : String) (kinds : OpenKinds) :
    Meets registry kinds [⟨.tag .opening content line, indent⟩] (true :: kinds)
      [.opens (.helper registered (.ofContent content true line)) registered.name line] :=
  .item (by simp [Item.kindsBehind, h.called]) (by simp [Item.events, h.called])

theorem Meets.closing (inHelper : Bool) (kinds : OpenKinds) (name : String) (line : Nat)
    (indent : String) :
    Meets registry (inHelper :: kinds) [⟨.tag .closing name line, indent⟩] kinds [.closes name] :=
  .item rfl rfl

theorem Meets.dividing (kinds : OpenKinds) (line : Nat) (indent : String) :
    Meets registry (true :: kinds) [⟨.tag .escaped "else" line, indent⟩] (true :: kinds)
      [.divides] :=
  .item rfl (by simp [Item.events, isElse])

/-- A document leaves the open blocks as they were, and what is met in it is what is met on a walk
through its segments. -/
theorem Document.meets {inHelper : Bool} {items : List Item} {segments : List Segment}
    (h : Document registry inHelper items segments) (kinds : OpenKinds)
    (hkinds : kinds.head?.getD false = inHelper) :
    ∃ events, Meets registry kinds items kinds events ∧
      Segment.walkAll segments = Event.joined events := by
  induction h generalizing kinds with
  | nil => exact ⟨[], ⟨rfl, rfl⟩, rfl⟩
  | text before t line indent ih =>
    obtain ⟨events, hmeets, hwalk⟩ := ih kinds hkinds
    have htext : Meets registry kinds [⟨.literal t line, indent⟩] kinds [.text t] := .item rfl rfl
    refine ⟨_, hmeets.append htext, ?_⟩
    rw [Segment.walkAll_appendText, hwalk, ← Event.joined_snoc]
  | delimiterChange before opening closing line indent ih =>
    obtain ⟨events, hmeets, hwalk⟩ := ih kinds hkinds
    have hchange : Meets registry kinds [⟨.delimiterChange opening closing line, indent⟩] kinds
      [] := .item rfl rfl
    refine ⟨_, hmeets.append hchange, ?_⟩
    rw [hwalk, List.append_nil]
  | leaf before leaf ih =>
    obtain ⟨events, hmeets, hwalk⟩ := ih kinds hkinds
    subst hkinds
    obtain ⟨mark, hmark, hleaf, hmark_meets⟩ := leaf.meets
    refine ⟨_, hmeets.append hmark_meets, ?_⟩
    rw [Segment.walkAll_append, Segment.walkAll_singleton, hleaf, hwalk,
      Event.joined_snoc_mark hmark]
  | plainBlock before opens inside closeLine closeIndent ih ihInside =>
    obtain ⟨events, hmeets, hwalk⟩ := ih kinds hkinds
    obtain ⟨inner, hinside, hbody⟩ := ihInside (false :: kinds) rfl
    refine ⟨_, (hmeets.append ((opens.meets kinds).append hinside)).append
      (.closing false kinds _ closeLine closeIndent), ?_⟩
    rw [Segment.walkAll_append, Segment.walkAll_singleton, Segment.walk, hwalk, hbody,
      List.append_assoc, List.append_assoc, List.singleton_append, Event.joined_append_mark rfl,
      Event.joined_snoc_mark rfl]
  | helperBlock before call indent inside closeLine closeIndent ih ihInside =>
    obtain ⟨events, hmeets, hwalk⟩ := ih kinds hkinds
    obtain ⟨inner, hinside, hbody⟩ := ihInside (true :: kinds) rfl
    refine ⟨_, (hmeets.append ((call.meets indent kinds).append hinside)).append
      (.closing true kinds _ closeLine closeIndent), ?_⟩
    rw [Segment.walkAll_append, Segment.walkAll_singleton, Segment.walk, hwalk, hbody,
      List.append_assoc, List.append_assoc, List.singleton_append, Event.joined_append_mark rfl,
      Event.joined_snoc_mark rfl]
    rfl
  | dividedBlock before call indent inside elseLine elseIndent behind closeLine closeIndent ih
      ihInside ihBehind =>
    obtain ⟨events, hmeets, hwalk⟩ := ih kinds hkinds
    obtain ⟨inner, hinside, hbody⟩ := ihInside (true :: kinds) rfl
    obtain ⟨later, hbehind, helseBody⟩ := ihBehind (true :: kinds) rfl
    refine ⟨_, ((hmeets.append ((call.meets indent kinds).append hinside)).append
      ((Meets.dividing kinds elseLine elseIndent).append hbehind)).append
      (.closing true kinds _ closeLine closeIndent), ?_⟩
    rw [Segment.walkAll_append, Segment.walkAll_singleton, Segment.walk, hwalk, hbody, helseBody]
    simp only [List.append_assoc, List.cons_append, List.nil_append]
    rw [Event.joined_append_mark rfl, Event.joined_append_mark rfl, Event.joined_snoc_mark rfl]
    rfl

/-- Trees are built from the well-nested documents and from nothing else. Items are accepted exactly
if they are a document, with the segments of that document. Walking these meets what stands in the
items, in its order, where texts next to each other are one. Without a tree, there is a first item
that cannot stand behind those before it, or a block is open at the end. -/
theorem ofItems_documents {registry : Registry} (hnames : registry.Unquoted) (template : String)
    (items : List Item) :
    (∀ segments, Tree.ofItems registry template items = .ok segments ↔
      Document registry false items segments) ∧
    (∀ segments, Tree.ofItems registry template items = .ok segments →
      Segment.walkAll segments = Event.joined (itemEvents registry [] items)) ∧
    ∀ error, Tree.ofItems registry template items = .error error →
      (∃ before item later tree, items = before ++ item :: later ∧ Reading registry before tree ∧
          Tree.Rejects registry template tree item error) ∨
        ∃ root block outer, Reading registry items ⟨root, block :: outer⟩ ∧
          error = .unclosedTag template block.name block.line := by
  refine ⟨fun segments => ofItems_eq_ok_iff hnames, ?_, fun error => ofItems_eq_error hnames⟩
  intro segments h
  obtain ⟨events, hmeets, hwalk⟩ := ((ofItems_eq_ok_iff hnames).mp h).meets [] rfl
  rw [hwalk, ← hmeets.met]

def rowItems : List Item :=
  [⟨.literal "Rows:\n" 1, ""⟩, ⟨.tag .opening "each rows" 2, ""⟩, ⟨.literal "- " 3, ""⟩,
    ⟨.tag .escaped "." 3, ""⟩, ⟨.literal "\n" 3, ""⟩, ⟨.tag .escaped "else" 4, ""⟩,
    ⟨.tag .inverted "quiet" 5, ""⟩, ⟨.tag .escaped "else" 6, ""⟩, ⟨.literal "No " 6, ""⟩,
    ⟨.delimiterChange "<" ">" 6, ""⟩, ⟨.literal "rows.\n" 6, ""⟩, ⟨.tag .closing "quiet" 7, ""⟩,
    ⟨.tag .closing "each" 8, ""⟩, ⟨.tag .inclusion "footer" 9, "  "⟩]

def rowSegments : List Segment :=
  [.text "Rows:\n",
    .invocation ⟨0, "each", eachHelper⟩ ⟨"each", [.name "rows"], [], true, 2⟩
      [.text "- ", .output "." true 3, .text "\n"]
      (some [.block "quiet" true [.output "else" true 6, .text "No rows.\n"] 5]),
    .inclusion "footer" "  " 9]

theorem ofItems_documents_rows :
    Registry.builtin.Unquoted ∧ Document .builtin false rowItems rowSegments ∧
      Segment.walkAll rowSegments = Event.joined (itemEvents .builtin [] rowItems) := by
  have hnames : Registry.builtin.Unquoted := by decide
  have hread : Tree.ofItems .builtin "rows" rowItems = .ok rowSegments := rfl
  obtain ⟨hdocument, hwalk, -⟩ := ofItems_documents hnames "rows" rowItems
  exact ⟨hnames, (hdocument rowSegments).mp hread, hwalk rowSegments hread⟩

end Stencil
