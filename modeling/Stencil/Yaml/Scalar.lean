import Stencil.Yaml.Source

/-! Scalars that are written plainly or in quotes: the keys of a configuration, its delimiters and
names, and the texts of its numbers and truth values. -/

namespace Stencil.Yaml

inductive Style where
  | plain
  | quoted
  /-- As a block whose line breaks stay. -/
  | literal
  /-- As a block whose line breaks are folded. -/
  | folded
deriving DecidableEq

structure Scalar where
  text : List Char
  style : Style := .plain
  tag : Option (List Char) := none
deriving DecidableEq

/-- White space between two words of a scalar. -/
inductive Gap where
  /-- Spaces and tabs in one line. -/
  | inline (blanks : List Char)
  /-- Line breaks, and the blanks around them; the first break is missing if it is escaped. -/
  | broken (first : Option Char) (later : List Char)

namespace Gap

def empty : Gap := .inline []

/-- An escaped line break. -/
def joined : Gap := .broken none []

def isEmpty : Gap → Bool
  | .inline blanks => blanks.isEmpty
  | .broken .. => false

def isBroken : Gap → Bool
  | .inline _ => false
  | .broken .. => true

def blank (c : Char) : Gap → Gap
  | .inline blanks => .inline (blanks ++ [c])
  | gap => gap

def newline (c : Char) : Gap → Gap
  | .inline _ => .broken (some c) []
  | .broken first later => .broken first (later ++ [c])

/-- What a gap stands for: a lone newline is a space, and before other breaks it is left out. -/
def text : Gap → List Char
  | .inline blanks => blanks
  | .broken (some '\n') [] => [' ']
  | .broken (some '\n') later => later
  | .broken (some c) later => c :: later
  | .broken none later => later

end Gap

abbrev Read := Option (List Char × List Cell)

def Read.after (read : Read) (text : List Char) : Read :=
  read.map fun (later, rest) => (text ++ later, rest)

/-- The rest of a text in single quotes, where two quotes stand for one. -/
def singleQuoted : Gap → List Cell → Read
  | _, [] => none
  | gap, cell :: rest =>
    if isSpace cell.char then singleQuoted (gap.blank cell.char) rest
    else if isBreak cell.char then singleQuoted (gap.newline cell.char) rest
    else if atBoundary (cell :: rest) then none
    else if cell.char == '\'' then
      match rest with
      | [] => some (gap.text, [])
      | next :: later =>
        if next.char == '\'' then Read.after (singleQuoted .empty later) (gap.text ++ ['\''])
        else some (gap.text, next :: later)
    else Read.after (singleQuoted .empty rest) (gap.text ++ [cell.char])

def escaped? : Char → Option Char
  | '0' => some '\x00'
  | 'a' => some '\x07'
  | 'b' => some '\x08'
  | 't' => some '\t'
  | '\t' => some '\t'
  | 'n' => some '\n'
  | 'v' => some '\x0b'
  | 'f' => some '\x0c'
  | 'r' => some '\r'
  | 'e' => some '\x1b'
  | ' ' => some ' '
  | '"' => some '"'
  | '/' => some '/'
  | '\\' => some '\\'
  | 'N' => some '\u0085'
  | '_' => some '\u00a0'
  | 'L' => some '\u2028'
  | 'P' => some '\u2029'
  | _ => none

def escapeWidth : Char → Nat
  | 'x' => 2
  | 'u' => 4
  | 'U' => 8
  | _ => 0

def escape? (letter : Char) (later : List Cell) : Option (Char × Nat) :=
  match escapeWidth letter with
  | 0 => (escaped? letter).map fun c => (c, 0)
  | width =>
    match hexValue? width later with
    | some n => if n.isValidChar then some (Char.ofNat n, width) else none
    | none => none

/-- The rest of a text in double quotes; `skip` cells belong to an escape that has been read. -/
def doubleQuoted : Nat → Gap → List Cell → Read
  | _, _, [] => none
  | skip + 1, gap, _ :: rest => doubleQuoted skip gap rest
  | 0, gap, cell :: rest =>
    if isSpace cell.char then doubleQuoted 0 (gap.blank cell.char) rest
    else if isBreak cell.char then doubleQuoted 0 (gap.newline cell.char) rest
    else if atBoundary (cell :: rest) then none
    else if cell.char == '"' then some (gap.text, rest)
    else if cell.char == '\\' then
      match rest with
      | [] => none
      | letter :: later =>
        if isBreak letter.char then Read.after (doubleQuoted 1 .joined rest) gap.text
        else
          match escape? letter.char later with
          | some (c, digits) =>
            Read.after (doubleQuoted (digits + 1) .empty rest) (gap.text ++ [c])
          | none => none
    else Read.after (doubleQuoted 0 .empty rest) (gap.text ++ [cell.char])

def isFlowMark (c : Char) : Bool :=
  c == ',' || c == '[' || c == ']' || c == '\x7b' || c == '\x7d'

/-- The characters that cannot start a plain scalar. -/
def isIndicator (c : Char) : Bool := "-?:,[]\x7b\x7d#&*!|>'\"%@\x60".toList.contains c

def startsPlain (flow : Bool) : List Cell → Bool
  | [] => false
  | cell :: rest =>
    let c := cell.char
    if c == '-' then !atGap rest
    else if c == '?' || c == ':' then !flow && !atGap rest
    else !isIndicator c && !isSpace c && !isBreak c

/-- A plain scalar does not go on behind a gap: the line is not deep enough, a document starts or
ends, or a comment follows. -/
def endsBehindGap (flow : Bool) (depth : Nat) (gap : Gap) (cell : Cell) (rest : List Cell) : Bool :=
  !gap.isEmpty &&
    ((gap.isBroken && !flow && cell.column < depth) || atBoundary (cell :: rest) ||
      cell.char == '#')

/-- A plain scalar does not go on with a character. -/
def endsPlain (flow : Bool) (c : Char) (rest : List Cell) : Bool :=
  (c == ':' && atGap rest) || (flow && isFlowMark c)

/-- In a flow a colon is not followed by a mark. -/
def isMisplacedColon (flow : Bool) (c : Char) : List Cell → Bool
  | [] => false
  | next :: _ => flow && c == ':' && (isFlowMark next.char || next.char == '?')

/-- A plain scalar whose lines are `depth` deep, the gap behind it, and what is left. -/
def plain (flow : Bool) (depth : Nat) : Gap → List Cell → Option (List Char × Gap × List Cell)
  | gap, [] => some ([], gap, [])
  | gap, cell :: rest =>
    if isSpace cell.char then
      if gap.isBroken && cell.char == '\t' && cell.column < depth then none
      else plain flow depth (gap.blank cell.char) rest
    else if isBreak cell.char then plain flow depth (gap.newline cell.char) rest
    else if endsBehindGap flow depth gap cell rest then some ([], gap, cell :: rest)
    else if isMisplacedColon flow cell.char rest then none
    else if endsPlain flow cell.char rest then some ([], gap, cell :: rest)
    else
      (plain flow depth .empty rest).map fun (text, last, left) =>
        (gap.text ++ cell.char :: text, last, left)

end Stencil.Yaml
