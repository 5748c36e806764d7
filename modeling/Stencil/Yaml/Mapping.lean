import Stencil.Yaml.Token.Lexer

/-! The documents that a configuration is read from: they hold nothing, or one mapping of scalars to
scalars. Anything else, nested collections among it, has no reading. -/

namespace Stencil.Yaml

/-- A key or a value: a scalar, or a reference to the node of an anchor, by number. -/
inductive Node where
  | scalar (scalar : Scalar)
  | reference (number : Nat)

/-- The anchors of a document. An anchor has the number of names known before it, and a number
stands for the last node that was anchored under it; the mapping itself is no scalar. -/
structure Anchors where
  numbers : List (List Char × Nat) := []
  nodes : List (Nat × Option Scalar) := []

def Anchors.add (anchors : Anchors) (name : Option (List Char)) (node : Option Scalar) : Anchors :=
  match name with
  | none => anchors
  | some name =>
    let number := anchors.numbers.length
    ⟨(name, number) :: anchors.numbers.filter (fun (other, _) => other != name),
      (number, node) :: anchors.nodes⟩

/-- The scalar that a node stands for. -/
def Anchors.scalar? (anchors : Anchors) : Node → Option Scalar
  | .scalar scalar => some scalar
  | .reference number => (anchors.nodes.lookup number).join

/-- The anchor and the tag in front of a node, in any order. -/
structure Properties where
  anchor : Option (List Char) := none
  tag : Option (List Char) := none

def Properties.isEmpty (properties : Properties) : Bool :=
  properties.anchor.isNone && properties.tag.isNone

def properties? (handles : Handles) : List Token → Option (Properties × List Token)
  | .anchor anchor :: .tag handle name :: rest => do
    some (⟨some anchor, some (← fullTag? handles handle name)⟩, rest)
  | .anchor anchor :: rest => some (⟨some anchor, none⟩, rest)
  | .tag handle name :: .anchor anchor :: rest => do
    some (⟨some anchor, some (← fullTag? handles handle name)⟩, rest)
  | .tag handle name :: rest => do some (⟨none, some (← fullTag? handles handle name)⟩, rest)
  | rest => some ({}, rest)

abbrev NodeRead := Option (Node × Anchors × List Token)

/-- Reads a node. Properties alone make an empty scalar. -/
def node? (handles : Handles) (anchors : Anchors) (tokens : List Token) : NodeRead :=
  match tokens with
  | .reference name :: rest =>
    (anchors.numbers.lookup name).map fun number => (.reference number, anchors, rest)
  | _ => do
    let (properties, rest) ← properties? handles tokens
    let (scalar, left) ←
      match rest with
      | .scalar style text :: left => some (⟨text, style, properties.tag⟩, left)
      | .blockStart :: _ => none
      | .flowStart :: _ => none
      | left =>
        if properties.isEmpty then none else some ((⟨[], .plain, properties.tag⟩ : Scalar), left)
    some (.scalar scalar, anchors.add properties.anchor (some scalar), left)

def nodeUpTo (ends : List Token) (handles : Handles) (anchors : Anchors) (tokens : List Token) :
    NodeRead :=
  match tokens with
  | [] => none
  | token :: _ =>
    if ends.contains token then some (.scalar ⟨[], .plain, none⟩, anchors, tokens)
    else node? handles anchors tokens

def valueUpTo (ends : List Token) (handles : Handles) (anchors : Anchors) : List Token → NodeRead
  | .value :: rest => nodeUpTo ends handles anchors rest
  | tokens => some (.scalar ⟨[], .plain, none⟩, anchors, tokens)

abbrev Entries := List (Node × Node)

abbrev EntriesRead := Option (Entries × Anchors × List Token)

/-- Reads the entries of a block mapping up to its end; `fuel` counts tokens. -/
def blockEntries? (handles : Handles) : Nat → Anchors → List Token → EntriesRead
  | 0, _, _ => none
  | fuel + 1, anchors, tokens =>
    match tokens with
    | .blockEnd :: rest => some ([], anchors, rest)
    | .key :: rest => do
      let ends := [.key, .value, .blockEnd]
      let (key, anchors, rest) ← nodeUpTo ends handles anchors rest
      let (value, anchors, rest) ← valueUpTo ends handles anchors rest
      let (entries, anchors, rest) ← blockEntries? handles fuel anchors rest
      some ((key, value) :: entries, anchors, rest)
    | _ => none

/-- Reads one entry of a flow mapping, where a key may stand alone. -/
def flowEntry? (handles : Handles) (anchors : Anchors) (tokens : List Token) :
    Option ((Node × Node) × Anchors × List Token) :=
  match tokens with
  | .key :: rest => do
    let (key, anchors, rest) ← nodeUpTo [.value, .comma, .flowEnd] handles anchors rest
    let (value, anchors, rest) ← valueUpTo [.comma, .flowEnd] handles anchors rest
    some ((key, value), anchors, rest)
  | _ => do
    let (key, anchors, rest) ← node? handles anchors tokens
    some ((key, .scalar ⟨[], .plain, none⟩), anchors, rest)

/-- Reads the entries of a flow mapping up to its end; `fuel` counts tokens. -/
def flowEntries? (handles : Handles) : Nat → Anchors → List Token → EntriesRead
  | 0, _, _ => none
  | fuel + 1, anchors, tokens =>
    match tokens with
    | .flowEnd :: rest => some ([], anchors, rest)
    | _ => do
      let (entry, anchors, rest) ← flowEntry? handles anchors tokens
      match rest with
      | .flowEnd :: left => some ([entry], anchors, left)
      | .comma :: left => do
        let (entries, anchors, left) ← flowEntries? handles fuel anchors left
        some (entry :: entries, anchors, left)
      | _ => none

def content? (handles : Handles) (tokens : List Token) : EntriesRead := do
  let (properties, rest) ← properties? handles tokens
  let anchors := Anchors.add {} properties.anchor none
  match rest with
  | .blockStart :: left => blockEntries? handles (left.length + 1) anchors left
  | .flowStart :: left => flowEntries? handles (left.length + 1) anchors left
  | .scalar .. :: _ => none
  | left => if properties.isEmpty then none else some ([], anchors, left)

def Token.isDirective : Token → Bool
  | .version .. => true
  | .handle .. => true
  | _ => false

/-- The handles that directives define, each once; a version is asked for once, and it is 1.1 or
1.2. -/
def handlesOf? : Bool → Handles → List Token → Option Handles
  | _, handles, [] => some handles
  | versioned, handles, .version major minor :: later =>
    if versioned || major ≠ 1 || (minor ≠ 1 && minor ≠ 2) then none
    else handlesOf? true handles later
  | versioned, handles, .handle handle text :: later =>
    if (handles.lookup handle).isSome then none
    else handlesOf? versioned ((handle, text) :: handles) later
  | _, _, _ => none

/-- Reads a document behind its start, where no content is needed. -/
def startedContent? (handles : Handles) (tokens : List Token) : EntriesRead :=
  match tokens with
  | [] => some ([], {}, [])
  | token :: _ =>
    if token.isDirective || token = .documentStart || token = .documentEnd then
      some ([], {}, tokens)
    else content? handles tokens

def document? (tokens : List Token) : EntriesRead := do
  let directives := tokens.takeWhile Token.isDirective
  let handles := (← handlesOf? false [] directives) ++ standardHandles
  match tokens.drop directives.length with
  | .documentStart :: rest => startedContent? handles rest
  | rest =>
    if !directives.isEmpty then none
    else if rest.isEmpty then some ([], {}, [])
    else content? handles rest

def readMapping? (source : String) : Option (List (Scalar × Scalar)) := do
  let (entries, anchors, rest) ← document? (← tokens? source)
  if rest.all fun token => token = .documentEnd then
    entries.mapM fun (key, value) => do some (← anchors.scalar? key, ← anchors.scalar? value)
  else none

end Stencil.Yaml
