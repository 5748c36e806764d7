/-! Configurations are written as YAML documents. Their settings are scalars, so of YAML there is
what one mapping of scalars can be written with, and nothing of nested collections.

A source is read by line and column; these are its characters and what ends a word. -/

namespace Stencil.Yaml

/-- A character and its place in a source; lines and columns are counted from zero. -/
structure Cell where
  char : Char
  line : Nat
  column : Nat

def isAllowed (c : Char) : Bool :=
  let n := c.toNat
  n == 9 || n == 10 || n == 13 || n == 0x85 || (0x20 ≤ n && n ≤ 0x7E) ||
    (0xA0 ≤ n && n ≤ 0xFFFD) || 0x10000 ≤ n

def isSpace (c : Char) : Bool := c == ' ' || c == '\t'

def isBreak (c : Char) : Bool := c == '\n' || c == '\u2028' || c == '\u2029'

/-- A text in which a newline stands for a carriage return, for a next-line mark, and for a carriage
return with its newline. -/
def unifyBreaks : List Char → List Char
  | [] => []
  | '\r' :: '\n' :: rest => '\n' :: unifyBreaks rest
  | c :: rest => (if c == '\r' || c == '\u0085' then '\n' else c) :: unifyBreaks rest

def placeFrom (line column : Nat) : List Char → List Cell
  | [] => []
  | c :: rest =>
    ⟨c, line, column⟩ ::
      if isBreak c then placeFrom (line + 1) 0 rest else placeFrom line (column + 1) rest

def cells? (source : String) : Option (List Cell) :=
  let text := source.toList
  if text.all isAllowed then some (placeFrom 0 0 (unifyBreaks text)) else none

/-- Nothing, a space or a line break comes next. -/
def atGap : List Cell → Bool
  | [] => true
  | cell :: _ => isSpace cell.char || isBreak cell.char

/-- A line starts here with three marks that stand for themselves. -/
def atMarker (mark : Char) : List Cell → Bool
  | a :: b :: c :: rest =>
    a.column == 0 && a.char == mark && b.char == mark && c.char == mark && atGap rest
  | _ => false

/-- A document starts or ends here. -/
def atBoundary (cells : List Cell) : Bool := atMarker '-' cells || atMarker '.' cells

/-- What follows the rest of a line that holds only spaces and perhaps a comment. -/
def restOfLine? (cells : List Cell) : Option (List Cell) :=
  let behind := cells.dropWhile fun cell : Cell => isSpace cell.char
  let ended :=
    match behind with
    | [] => []
    | cell :: _ =>
      if cell.char == '#' then behind.dropWhile fun cell : Cell => !isBreak cell.char else behind
  match ended with
  | [] => some []
  | cell :: later => if isBreak cell.char then some later else none

def isWordChar (c : Char) : Bool := c.isAlphanum || c == '_' || c == '-'

def leadingWord (cells : List Cell) : List Char × List Cell :=
  ((cells.takeWhile fun cell : Cell => isWordChar cell.char).map Cell.char,
    cells.dropWhile fun cell : Cell => isWordChar cell.char)

def hexDigit? (c : Char) : Option Nat :=
  if '0' ≤ c && c ≤ '9' then some (c.toNat - 48)
  else if 'a' ≤ c && c ≤ 'f' then some (c.toNat - 87)
  else if 'A' ≤ c && c ≤ 'F' then some (c.toNat - 55)
  else none

/-- The number that the first `width` cells write in base sixteen. -/
def hexValue? (width : Nat) (cells : List Cell) : Option Nat :=
  let digits := cells.take width
  if digits.length < width then none
  else digits.foldlM (fun n cell => (hexDigit? cell.char).map (16 * n + ·)) 0

end Stencil.Yaml
