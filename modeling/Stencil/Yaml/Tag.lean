import Stencil.Yaml.Source

/-! Tags, by which a scalar says that it is a text, a number, a truth value or null: a handle, which
a document may define, and a name under it. -/

namespace Stencil.Yaml

/-- The characters of a tag; some are allowed only between angle brackets or in a directive. -/
def isTagChar (full : Bool) (c : Char) : Bool :=
  isWordChar c || ";/?:@&=+$.%!~*'()".toList.contains c || (full && ",[]".toList.contains c)

/-- How many octets a character takes whose first octet this is. -/
def octetWidth? (octet : Nat) : Option Nat :=
  if octet < 0x80 then some 1
  else if octet < 0xC0 then none
  else if octet < 0xE0 then some 2
  else if octet < 0xF0 then some 3
  else if octet < 0xF8 then some 4
  else none

def tagText? (full : Bool) : Nat → Nat → List Cell → Option (List Char × List Cell)
  | 0, 0, [] => some ([], [])
  | _, _, [] => none
  | skip + 1, due, _ :: rest => tagText? full skip due rest
  | 0, due, cell :: rest =>
    if cell.char == '%' then
      match hexValue? 2 rest with
      | none => none
      | some octet =>
        match if due = 0 then octetWidth? octet else if octet / 64 = 2 then some due else none with
        | none => none
        | some width =>
          (tagText? full 2 (width - 1) rest).map fun (text, left) =>
            (Char.ofNat octet :: text, left)
    else if due ≠ 0 then none
    else if isTagChar full cell.char then
      (tagText? full 0 0 rest).map fun (text, left) => (cell.char :: text, left)
    else some ([], cell :: rest)

/-- A tag as it counts: a zero octet ends it. -/
def upToZero (text : List Char) : List Char := text.takeWhile fun c => c != '\x00'

def someTagText? (full : Bool) (cells : List Cell) : Option (List Char × List Cell) :=
  match tagText? full 0 0 cells with
  | some (c :: text, rest) => some (upToZero (c :: text), rest)
  | _ => none

/-- The handle and the name of a tag behind its exclamation mark, and what follows it. The handle of
a tag that is complete is empty. -/
def tagParts? (cells : List Cell) : Option (List Char × List Char × List Cell) :=
  let (word, behind) := leadingWord cells
  match cells.head?.map Cell.char, behind with
  | some '<', _ =>
    match someTagText? true (cells.drop 1) with
    | some (name, cell :: rest) => if cell.char == '>' then some ([], name, rest) else none
    | _ => none
  | _, [] => some (shorthand word [])
  | _, cell :: rest =>
    if cell.char == '!' then
      (someTagText? false rest).map fun (name, left) => ('!' :: word ++ ['!'], name, left)
    else
      (tagText? false 0 0 behind).map fun (text, left) => shorthand (upToZero (word ++ text)) left
where
  shorthand : List Char → List Cell → List Char × List Char × List Cell
    | [], left => ([], ['!'], left)
    | name, left => (['!'], name, left)

def tag? (flow : Bool) (cells : List Cell) : Option (List Char × List Char × List Cell) := do
  let (handle, name, rest) ← tagParts? cells
  let atComma := flow && rest.head?.map Cell.char == some ','
  if atComma || atGap rest then some (handle, name, rest) else none

abbrev Handles := List (List Char × List Char)

def standardHandles : Handles :=
  [("!".toList, "!".toList), ("!!".toList, "tag:yaml.org,2002:".toList)]

def fullTag? (handles : Handles) (handle name : List Char) : Option (List Char) :=
  if handle.isEmpty then some name else (handles.lookup handle).map (· ++ name)

def nullTag : List Char := "tag:yaml.org,2002:null".toList
def boolTag : List Char := "tag:yaml.org,2002:bool".toList
def intTag : List Char := "tag:yaml.org,2002:int".toList

end Stencil.Yaml
