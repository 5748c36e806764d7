import Stencil.Yaml.Scalar

/-! Block scalars, for settings whose text has lines of its own, below a header that says how the
end is kept. -/

namespace Stencil.Yaml

inductive Chomp where
  | strip
  | clip
  | keep
deriving DecidableEq

def leadingChomp : List Cell → Chomp × List Cell
  | [] => (.clip, [])
  | cell :: rest =>
    if cell.char == '+' then (.keep, rest)
    else if cell.char == '-' then (.strip, rest)
    else (.clip, cell :: rest)

/-- The indent that a header gives, zero if it gives none; a written zero is none. -/
def leadingDepth? : List Cell → Option (Nat × List Cell)
  | [] => some (0, [])
  | cell :: rest =>
    if cell.char == '0' then none
    else if cell.char.isDigit then some (cell.char.toNat - '0'.toNat, rest)
    else some (0, cell :: rest)

/-- The header of a block, its two marks in any order, and what follows its line. -/
def blockHeader? (cells : List Cell) : Option (Chomp × Nat × List Cell) := do
  let (first, rest) := leadingChomp cells
  let (depth, rest) ← leadingDepth? rest
  let (chomp, rest) := if first = .clip then leadingChomp rest else (first, rest)
  some (chomp, depth, ← restOfLine? rest)

def cellLines : List Cell → List (List Cell)
  | [] => []
  | cell :: rest =>
    if isBreak cell.char then [cell] :: cellLines rest
    else
      match cellLines rest with
      | [] => [[cell]]
      | line :: later => (cell :: line) :: later

def leadingSpaces (line : List Cell) : Nat := (line.takeWhile fun cell => cell.char == ' ').length

/-- The indent of a block as its first lines show it: the most that an empty line has, or the first
other line. A tab cannot be part of it. -/
def shownDepth? : List (List Cell) → Option Nat
  | [] => some 0
  | line :: later =>
    let spaces := leadingSpaces line
    match line.drop spaces with
    | [] => some spaces
    | cell :: _ =>
      if cell.char == '\t' then none
      else if isBreak cell.char then (shownDepth? later).map (max spaces)
      else some spaces

inductive BlockLine where
  | empty (ending : Char)
  | content (text ending : List Char)
  /-- The block ends in front of the line. -/
  | outside

/-- What a line is to a block of some indent; a tab cannot be part of the indent. -/
def blockLine? (depth : Nat) (line : List Cell) : Option BlockLine :=
  let spaces := leadingSpaces line
  let behind := line.drop (min spaces depth)
  match behind with
  | [] => some .outside
  | cell :: _ =>
    if spaces < depth && cell.char == '\t' then none
    else if isBreak cell.char then some (.empty cell.char)
    else if spaces < depth then some .outside
    else
      let chars := behind.map Cell.char
      some (.content (chars.takeWhile fun c => !isBreak c) (chars.dropWhile fun c => !isBreak c))

/-- What stands between two lines of a block: a lone newline between lines that no blank starts is
folded. -/
def blockGap (fold : Bool) (ending empty : List Char) : List Char :=
  if fold && ending.head? == some '\n' then if empty.isEmpty then [' '] else empty
  else ending ++ empty

/-- The text of a block, and what follows it. Of the line before, `ending` is the break and `blank`
says that a blank starts it; `empty` holds the breaks of the empty lines in between. -/
def blockText (fold : Bool) (chomp : Chomp) (depth : Nat) :
    List Char → List Char → Bool → List (List Cell) → Read
  | ending, empty, _, [] => some (atEnd ending empty, [])
  | ending, empty, blank, line :: later =>
    match blockLine? depth line with
    | none => none
    | some .outside => some (atEnd ending empty, (line :: later).flatten)
    | some (.empty c) => blockText fold chomp depth ending (empty ++ [c]) blank later
    | some (.content text next) =>
      let startsBlank := (text.head?.map isSpace).getD false
      Read.after (blockText fold chomp depth next [] startsBlank later)
        (blockGap (fold && !blank && !startsBlank) ending empty ++ text)
where
  atEnd (ending empty : List Char) : List Char :=
    match chomp with
    | .strip => []
    | .clip => ending
    | .keep => ending ++ empty

/-- A block behind its first character, in a mapping of some indent. -/
def block? (fold : Bool) (indent : Option Nat) (cells : List Cell) : Read := do
  let (chomp, given, rest) ← blockHeader? cells
  let lines := cellLines rest
  let least := (indent.map (· + 1)).getD 1
  let depth ←
    if given = 0 then (shownDepth? lines).map (max least) else some (indent.getD 0 + given)
  blockText fold chomp depth [] [] false lines

end Stencil.Yaml
