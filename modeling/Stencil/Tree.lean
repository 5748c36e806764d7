import Stencil.Segment
import Stencil.Standalone

/-! From tokens to a tree: blocks are matched with their closing tags, and tags whose first word
names a helper become calls of it. -/

namespace Stencil

inductive Opener where
  | plain (inverted : Bool)
  | helper (registered : Registered) (tag : HelperTag)

/-- A block whose closing tag has not been met. -/
structure OpenBlock where
  opener : Opener
  name : String
  line : Nat
  body : List Segment := []
  elseBody : Option (List Segment) := none

namespace OpenBlock

def isHelper (block : OpenBlock) : Bool :=
  match block.opener with
  | .plain _ => false
  | .helper .. => true

/-- Changes the part of the block that is being read. -/
def update (block : OpenBlock) (f : List Segment → List Segment) : OpenBlock :=
  match block.elseBody with
  | none => { block with body := f block.body }
  | some body => { block with elseBody := some (f body) }

def toSegment (block : OpenBlock) : Segment :=
  match block.opener with
  | .plain inverted => .block block.name inverted block.body block.line
  | .helper registered tag => .invocation registered tag block.body block.elseBody

end OpenBlock

/-- A tree in the making: the segments outside of all open blocks, and these blocks, innermost
first. -/
structure Tree where
  root : List Segment := []
  opened : List OpenBlock := []

namespace Tree

def update (tree : Tree) (f : List Segment → List Segment) : Tree :=
  match tree.opened with
  | [] => { tree with root := f tree.root }
  | block :: outer => { tree with opened := block.update f :: outer }

def add (tree : Tree) (segment : Segment) : Tree :=
  tree.update fun segments => segments ++ [segment]

/-- Segments with a text behind them, which joins a text at their end. -/
def appendText (text : String) : List Segment → List Segment
  | [] => [.text text]
  | [.text last] => [.text (last ++ text)]
  | segment :: later => segment :: appendText text later

def addText (tree : Tree) (text : String) : Tree := tree.update (appendText text)

def openBlock (tree : Tree) (opener : Opener) (name : String) (line : Nat) : Tree :=
  { tree with opened := { opener, name, line } :: tree.opened }

def inHelper (tree : Tree) : Bool :=
  match tree.opened with
  | [] => false
  | block :: _ => block.isHelper

/-- The helper that the first word of a tag names, and the tag read and checked as its call. -/
def helperCall (registry : Registry) (template content : String) (block : Bool) (line : Nat) :
    Except Error (Option (Registered × HelperTag)) :=
  match registry.get? (String.ofList (Text.firstWord content.toList)) with
  | none => .ok none
  | some registered =>
    match HelperTag.read content block line with
    | .error fault => .error (.malformedTag template line fault)
    | .ok none => .ok none
    | .ok (some tag) =>
      match registered.helper.validate tag with
      | .error error => .error error
      | .ok () => .ok (some (registered, tag))

def divide (template : String) (tree : Tree) (line : Nat) : Except Error Tree :=
  match tree.opened with
  | [] => .error (.malformedTag template line .duplicateElse)
  | block :: outer =>
    match block.elseBody with
    | none => .ok { tree with opened := { block with elseBody := some [] } :: outer }
    | some _ => .error (.malformedTag template line .duplicateElse)

/-- Ends the innermost open block, which has to have the name of the closing tag. -/
def close (template : String) (tree : Tree) (name : String) (line : Nat) : Except Error Tree :=
  match tree.opened with
  | [] => .error (.unmatchedTag template line none name)
  | block :: outer =>
    if block.name = name then .ok (Tree.add { tree with opened := outer } block.toSegment)
    else .error (.unmatchedTag template line (some block.name) name)

def addTag (registry : Registry) (template : String) (tree : Tree) (indent : String)
    (kind : TagKind) (content : String) (line : Nat) : Except Error Tree :=
  match kind with
  | .comment => .ok (tree.add .comment)
  | .inclusion => .ok (tree.add (.inclusion content indent line))
  | .closing => tree.close template content line
  | .inverted => .ok (tree.openBlock (.plain true) content line)
  | .opening => do
    match ← helperCall registry template content true line with
    | some (registered, tag) => .ok (tree.openBlock (.helper registered tag) tag.name line)
    | none => .ok (tree.openBlock (.plain false) content line)
  | .escaped | .unescaped =>
    if isElse kind content tree.inHelper then tree.divide template line
    else do
      match ← helperCall registry template content false line with
      | some (registered, tag) => .ok (tree.add (.invocation registered tag [] none))
      | none => .ok (tree.add (.output content (kind == .escaped) line))

def addItem (registry : Registry) (template : String) (tree : Tree) (item : Item) :
    Except Error Tree :=
  match item.token with
  | .literal text _ => .ok (tree.addText text)
  | .delimiterChange .. => .ok tree
  | .tag kind content line => tree.addTag registry template item.indent kind content line

def finish (template : String) (tree : Tree) : Except Error (List Segment) :=
  match tree.opened with
  | [] => .ok tree.root
  | block :: _ => .error (.unclosedTag template block.name block.line)

def ofItems (registry : Registry) (template : String) (items : List Item) :
    Except Error (List Segment) := do
  (← items.foldlM (addItem registry template) {}).finish template

end Tree

end Stencil
