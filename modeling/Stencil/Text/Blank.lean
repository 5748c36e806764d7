/-! White space, trimming, and the words that white space separates. -/

namespace Stencil.Text

/-- The characters with the Unicode property White_Space. -/
def isBlank (c : Char) : Bool :=
  let n := c.toNat
  (9 ≤ n && n ≤ 13) || n == 0x20 || n == 0x85 || n == 0xA0 || n == 0x1680 ||
    (0x2000 ≤ n && n ≤ 0x200A) || n == 0x2028 || n == 0x2029 || n == 0x202F ||
    n == 0x205F || n == 0x3000

def allBlank (text : List Char) : Bool := text.all isBlank

def trimStart (text : List Char) : List Char := text.dropWhile isBlank

def trimEnd : List Char → List Char
  | [] => []
  | c :: rest =>
    match trimEnd rest with
    | [] => if isBlank c then [] else [c]
    | kept => c :: kept

def trim (text : List Char) : List Char := trimEnd (trimStart text)

/-- The first maximal run of characters other than blanks, empty if there is none. -/
def firstWord (text : List Char) : List Char :=
  (trimStart text).takeWhile fun c => !isBlank c

/-- Puts a run in front of the words after it; an empty run is no word. -/
def consWord (run : List Char) (later : List (List Char)) : List (List Char) :=
  if run.isEmpty then later else run :: later

/-- The run of characters other than blanks at the start, maybe empty, and the words after it. -/
def leadingRun : List Char → List Char × List (List Char)
  | [] => ([], [])
  | c :: rest =>
    let (run, later) := leadingRun rest
    if isBlank c then ([], consWord run later) else (c :: run, later)

/-- The maximal runs of characters other than blanks, in order. -/
def words (text : List Char) : List (List Char) :=
  let (run, later) := leadingRun text
  consWord run later

end Stencil.Text
