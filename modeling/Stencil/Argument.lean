import Stencil.Decimal.Numeral
import Stencil.Text.Blank
import Stencil.Value

/-! Arguments as they stand in a helper tag, one word each. -/

namespace Stencil

inductive Argument where
  /-- A quoted text, a number, `true`, `false` or `null`. -/
  | literal (value : Value)
  | name (name : String)

namespace Argument

def isQuote (c : Char) : Bool := c == '"' || c == '\''

def unquote? : List Char → Option (List Char)
  | [] => none
  | first :: rest =>
    match rest.getLast? with
    | none => none
    | some last => if isQuote first && first == last then some rest.dropLast else none

/-- A word that starts with a digit, after a minus sign or not, may be a number. -/
def looksNumeric : List Char → Bool
  | '-' :: c :: _ => Decimal.isDigit c
  | c :: _ => Decimal.isDigit c
  | [] => false

def int64? (word : List Char) : Option Int64 :=
  match Decimal.readInt? word with
  | some n =>
    if Int64.minValue.toInt ≤ n && n ≤ Int64.maxValue.toInt then some (Int64.ofInt n) else none
  | none => none

/-- A number in a word: signed if it is an integer in range, else a double. -/
def number? (word : List Char) : Option Number :=
  if looksNumeric word then
    match int64? word with
    | some n => some (.signed n)
    | none => (Decimal.Numeral.read? word).map fun n => .float n.toFloat
  else none

def ofWord (word : List Char) : Argument :=
  match unquote? word with
  | some text => .literal (.string (String.ofList text))
  | none =>
    if word = "true".toList then .literal (.bool true)
    else if word = "false".toList then .literal (.bool false)
    else if word = "null".toList then .literal .null
    else
      match number? word with
      | some n => .literal (.number n)
      | none => .name (String.ofList word)

def same : Argument → Argument → Bool
  | .literal v, .literal w => v.same w
  | .name m, .name n => m == n
  | _, _ => false

/-- The run of characters at the start that no blank outside of quotes interrupts, and the words
after it; `quote` is the quote that is open. Nothing if a quote stays open. -/
def leadingWord : Option Char → List Char → Option (List Char × List (List Char))
  | none, [] => some ([], [])
  | some _, [] => none
  | some q, c :: rest =>
    (leadingWord (if c = q then none else some q) rest).map fun (run, later) => (c :: run, later)
  | none, c :: rest =>
    if isQuote c then (leadingWord (some c) rest).map fun (run, later) => (c :: run, later)
    else if Text.isBlank c then
      (leadingWord none rest).map fun (run, later) => ([], Text.consWord run later)
    else (leadingWord none rest).map fun (run, later) => (c :: run, later)

/-- The words of a tag, which blanks outside of quotes separate. -/
def words? (content : List Char) : Option (List (List Char)) :=
  (leadingWord none content).map fun (run, later) => Text.consWord run later

def splitEquals : List Char → Option (List Char × List Char)
  | [] => none
  | c :: rest =>
    if c = '=' then some ([], rest)
    else (splitEquals rest).map fun (key, value) => (c :: key, value)

/-- The key and the value of a named argument; a word that starts with a quote is not named. -/
def named? (word : List Char) : Option (List Char × List Char) :=
  if (word.head?.map isQuote).getD false then none
  else
    match splitEquals word with
    | some (key, value) => if key.isEmpty || key.any isQuote then none else some (key, value)
    | none => none

end Argument

end Stencil
