import Stencil.Yaml.Token

/-! From the source of a configuration to its tokens. A colon makes a key of what stands before it
in its line, so the tokens from the last place on where a key may start are held back until it is
settled. -/

namespace Stencil.Yaml

structure KeyStart where
  line : Nat
  column : Nat
  /-- Nothing but a key can stand there. -/
  required : Bool

structure Scan where
  rest : List Cell
  indent : Option Nat := none
  flow : Bool := false
  keyAllowed : Bool := true
  keyStart : Option KeyStart := none
  /-- The tokens up to the place where a key may start, latest first. -/
  tokens : List Token := []
  /-- The tokens behind that place, latest first. -/
  held : List Token := []

namespace Scan

def emit (token : Token) (scan : Scan) : Scan :=
  match scan.keyStart with
  | none => { scan with tokens := token :: scan.tokens }
  | some _ => { scan with held := token :: scan.held }

/-- No key starts where one might have; an error where one has to. -/
def dropKey (scan : Scan) : Option Scan :=
  match scan.keyStart with
  | none => some scan
  | some start =>
    if start.required then none
    else some { scan with keyStart := none, tokens := scan.held ++ scan.tokens, held := [] }

/-- Keeps the place of a token that a key may start with. -/
def startKey (cell : Cell) (scan : Scan) : Option Scan :=
  if scan.keyAllowed then
    scan.dropKey.map fun scan =>
      let required := !scan.flow && scan.indent == some cell.column
      { scan with keyStart := some ⟨cell.line, cell.column, required⟩ }
  else some scan

/-- A key stands in one line and starts at most 1024 characters in front of its colon. -/
def dropStaleKey (cell : Cell) (scan : Scan) : Option Scan :=
  match scan.keyStart with
  | none => some scan
  | some start =>
    if start.line < cell.line || start.column + 1024 < cell.column then scan.dropKey else some scan

/-- Opens a block mapping for a key in some column, unless one is open there. A mapping inside of
another one has no reading. -/
def openBlock (column : Nat) (scan : Scan) : Option Scan :=
  if scan.flow then some scan
  else
    match scan.indent with
    | none => some { scan.emit .blockStart with indent := some column }
    | some depth => if depth < column then none else some scan

def closeBlock (scan : Scan) : Scan :=
  match scan.indent with
  | none => scan
  | some _ => if scan.flow then scan else { scan.emit .blockEnd with indent := none }

/-- Ends a block mapping in front of a token that is not as deep. -/
def closeBehind (column : Nat) (scan : Scan) : Scan :=
  match scan.indent with
  | none => scan
  | some depth => if column < depth then scan.closeBlock else scan

def acceptKey (start : KeyStart) (scan : Scan) : Option Scan :=
  let before := { scan with keyStart := none, held := [] }
  (before.openBlock start.column).map fun opened =>
    { opened with tokens := scan.held ++ .key :: opened.tokens, keyAllowed := false }

def keyMark (cell : Cell) (later : List Cell) (scan : Scan) : Option Scan :=
  if !scan.flow && !scan.keyAllowed then none
  else do
    let scan ← (← scan.openBlock cell.column).dropKey
    some { scan.emit .key with rest := later, keyAllowed := !scan.flow }

def valueMark (cell : Cell) (later : List Cell) (scan : Scan) : Option Scan := do
  let scan ←
    match scan.keyStart with
    | some start => scan.acceptKey start
    | none =>
      if scan.flow then some { scan with keyAllowed := false }
      else if scan.keyAllowed then scan.openBlock cell.column
      else none
  some { scan.emit .value with rest := later }

def outside (token : Token) (rest : List Cell) (scan : Scan) : Option Scan :=
  scan.closeBlock.dropKey.map fun scan => { scan.emit token with rest, keyAllowed := false }

def inside (cell : Cell) (token : Token) (rest : List Cell) (scan : Scan) : Option Scan :=
  (scan.startKey cell).map fun scan => { scan.emit token with rest, keyAllowed := false }

def plainScalar (cell : Cell) (later : List Cell) (scan : Scan) : Option Scan :=
  if startsPlain scan.flow (cell :: later) then do
    let (text, gap, rest) ←
      plain scan.flow ((scan.indent.map (· + 1)).getD 0) .empty (cell :: later)
    let scan ← scan.inside cell (.scalar .plain text) rest
    some { scan with keyAllowed := gap.isBroken }
  else none

def blockScalar (fold : Bool) (later : List Cell) (scan : Scan) : Option Scan := do
  let scan ← scan.dropKey
  let (text, rest) ← block? fold scan.indent later
  some { scan.emit (.scalar (if fold then .folded else .literal) text) with
    rest, keyAllowed := true }

/-- Opens the only flow mapping, which nothing encloses. -/
def openFlow (later : List Cell) (scan : Scan) : Option Scan :=
  if scan.flow || scan.indent.isSome then none
  else
    scan.dropKey.map fun scan =>
      { scan.emit .flowStart with rest := later, flow := true, keyAllowed := true }

def closeFlow (later : List Cell) (scan : Scan) : Option Scan :=
  if scan.flow then
    scan.dropKey.map fun scan =>
      { scan.emit .flowEnd with rest := later, flow := false, keyAllowed := false }
  else none

def token (cell : Cell) (later : List Cell) (scan : Scan) : Option Scan :=
  let cells := cell :: later
  let marks := scan.flow || atGap later
  if cell.column == 0 && cell.char == '%' then do
    let (token, rest) ← directive? later
    scan.outside token rest
  else if atMarker '-' cells then scan.outside .documentStart (later.drop 2)
  else if atMarker '.' cells then scan.outside .documentEnd (later.drop 2)
  else
    match cell.char with
    | '\x7b' => scan.openFlow later
    | '\x7d' => scan.closeFlow later
    | ',' =>
      scan.dropKey.map fun scan => { scan.emit .comma with rest := later, keyAllowed := true }
    | '*' => do
      let (name, rest) ← anchorName? later
      scan.inside cell (.reference name) rest
    | '&' => do
      let (name, rest) ← anchorName? later
      scan.inside cell (.anchor name) rest
    | '!' => do
      let (handle, name, rest) ← tag? scan.flow later
      scan.inside cell (.tag handle name) rest
    | '\'' => do
      let (text, rest) ← singleQuoted .empty later
      scan.inside cell (.scalar .quoted text) rest
    | '"' => do
      let (text, rest) ← doubleQuoted 0 .empty later
      scan.inside cell (.scalar .quoted text) rest
    | '|' => if scan.flow then none else scan.blockScalar false later
    | '>' => if scan.flow then none else scan.blockScalar true later
    | '?' => if marks then scan.keyMark cell later else scan.plainScalar cell later
    | ':' => if marks then scan.valueMark cell later else scan.plainScalar cell later
    | _ => scan.plainScalar cell later
/-- What follows spaces, comments and line breaks, and whether a key may start there. Behind a line
break one may, and then no tab is a space. -/
def behindGap (flow : Bool) : Bool → Bool → List Cell → Bool × List Cell
  | allowed, _, [] => (allowed, [])
  | allowed, comment, cell :: rest =>
    if isBreak cell.char then behindGap flow (allowed || !flow) false rest
    else if comment then behindGap flow allowed true rest
    else if cell.char == '#' then behindGap flow allowed true rest
    else if cell.char == ' ' || (cell.char == '\t' && (flow || !allowed)) ||
        (cell.char == '\ufeff' && cell.column == 0) then behindGap flow allowed false rest
    else (allowed, cell :: rest)

/-- Reads all tokens in order; every one of them takes a cell at least, which `fuel` counts. -/
def run : Nat → Scan → Option (List Token)
  | 0, _ => none
  | fuel + 1, scan =>
    match behindGap scan.flow scan.keyAllowed false scan.rest with
    | (_, []) => scan.closeBlock.dropKey.map fun scan => scan.tokens.reverse
    | (keyAllowed, cell :: later) => do
      let scan ← { scan with keyAllowed }.dropStaleKey cell
      run fuel (← (scan.closeBehind cell.column).token cell later)

end Scan

def tokens? (source : String) : Option (List Token) := do
  let cells ← cells? source
  Scan.run (cells.length + 1) { rest := cells }

end Stencil.Yaml
