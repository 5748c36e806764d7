import Stencil.Yaml.Block
import Stencil.Yaml.Tag

/-! The lexical units of a configuration, without those of sequences, and those that a few
characters settle: directives and names of anchors. -/

namespace Stencil.Yaml

inductive Token where
  | version (major minor : Nat)
  | handle (handle text : List Char)
  | documentStart
  | documentEnd
  | blockStart
  | blockEnd
  | flowStart
  | flowEnd
  | comma
  | key
  | value
  | anchor (name : List Char)
  | reference (name : List Char)
  | tag (handle name : List Char)
  | scalar (style : Style) (text : List Char)
deriving DecidableEq

/-- A number of a version, of nine digits at most. -/
def versionNumber? (cells : List Cell) : Option (Nat × List Cell) :=
  let digits := cells.takeWhile fun cell => cell.char.isDigit
  if digits.isEmpty || digits.length > 9 then none
  else
    some (digits.foldl (fun n cell => 10 * n + (cell.char.toNat - '0'.toNat)) 0,
      cells.drop digits.length)

def version? (cells : List Cell) : Option (Token × List Cell) := do
  let (major, rest) ← versionNumber? cells
  match rest with
  | [] => none
  | cell :: later =>
    if cell.char == '.' then
      let (minor, rest) ← versionNumber? later
      some (.version major minor, rest)
    else none

/-- The handle of a directive: an exclamation mark alone, or a word between two of them. -/
def handle? (cells : List Cell) : Option (List Char × List Cell) :=
  match cells with
  | [] => none
  | cell :: rest =>
    if cell.char == '!' then
      match leadingWord rest with
      | (word, next :: later) =>
        if next.char == '!' then some ('!' :: word ++ ['!'], later)
        else if word.isEmpty then some (['!'], next :: later)
        else none
      | (_, []) => none
    else none

def handleText? (cells : List Cell) : Option (Token × List Cell) := do
  let (name, rest) ← handle? cells
  match rest with
  | [] => none
  | cell :: _ =>
    if isSpace cell.char then
      let (text, left) ← someTagText? true (rest.dropWhile fun cell => isSpace cell.char)
      if atGap left then some (.handle name text, left) else none
    else none

def directive? (cells : List Cell) : Option (Token × List Cell) := do
  let (name, behind) := leadingWord cells
  if !atGap behind then none
  else
    let rest := behind.dropWhile fun cell => isSpace cell.char
    let (token, left) ←
      if name = "YAML".toList then version? rest
      else if name = "TAG".toList then handleText? rest
      else none
    some (token, ← restOfLine? left)

def anchorName? (cells : List Cell) : Option (List Char × List Cell) :=
  let (name, rest) := leadingWord cells
  let ends := atGap rest || rest.head?.any fun cell => "?:,]\x7d%@\x60".toList.contains cell.char
  if name.isEmpty || !ends then none else some (name, rest)

end Stencil.Yaml
