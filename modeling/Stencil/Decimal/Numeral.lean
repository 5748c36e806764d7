/-! Reading numbers: integers, and decimals with a point or an exponent. -/

namespace Stencil.Decimal

def isDigit (c : Char) : Bool := '0' ≤ c && c ≤ '9'

def digitsValue (digits : List Char) : Nat :=
  digits.foldl (fun n c => 10 * n + (c.toNat - '0'.toNat)) 0

def readDigits? (text : List Char) : Option Nat :=
  if !text.isEmpty && text.all isDigit then some (digitsValue text) else none

def readNat? : List Char → Option Nat
  | '+' :: digits => readDigits? digits
  | digits => readDigits? digits

def readInt? : List Char → Option Int
  | '-' :: digits => (readDigits? digits).map fun n => -(n : Int)
  | '+' :: digits => (readDigits? digits).map fun n => (n : Int)
  | digits => (readDigits? digits).map fun n => (n : Int)

/-- The number `significand * 10 ^ exponent`, with a sign that also zero may have. -/
structure Numeral where
  negative : Bool
  significand : Nat
  exponent : Int
deriving DecidableEq

def readExponent? : List Char → Option Int
  | [] => some 0
  | e :: text => if e = 'e' || e = 'E' then readInt? text else none

/-- Digits with at most one point among, before or after them, then perhaps an exponent. -/
def readUnsigned? (text : List Char) : Option (Nat × Int) :=
  let whole := text.takeWhile isDigit
  let afterWhole := text.dropWhile isDigit
  let (fraction, rest) :=
    match afterWhole with
    | '.' :: later => (later.takeWhile isDigit, later.dropWhile isDigit)
    | _ => ([], afterWhole)
  if whole.isEmpty && fraction.isEmpty then none
  else
    (readExponent? rest).map fun exponent =>
      (digitsValue (whole ++ fraction), exponent - fraction.length)

def Numeral.read? : List Char → Option Numeral
  | '-' :: text => (readUnsigned? text).map fun (n, e) => ⟨true, n, e⟩
  | '+' :: text => (readUnsigned? text).map fun (n, e) => ⟨false, n, e⟩
  | text => (readUnsigned? text).map fun (n, e) => ⟨false, n, e⟩

/-- The power of ten of a numeral's first digit; too large or small for a float decides early. -/
def Numeral.magnitude (n : Numeral) : Int :=
  n.exponent + (Nat.toDigits 10 n.significand).length

/-- The nearest double, an even mantissa on a tie. -/
def Numeral.toFloat (n : Numeral) : Float :=
  let size :=
    if n.significand = 0 || n.magnitude < -400 then 0.0
    else if n.magnitude > 400 then 1.0 / 0.0
    else Float.ofScientific n.significand (n.exponent < 0) n.exponent.natAbs
  if n.negative then -size else size

def Numeral.toFloat32 (n : Numeral) : Float32 :=
  let size :=
    if n.significand = 0 || n.magnitude < -400 then 0.0
    else if n.magnitude > 400 then 1.0 / 0.0
    else Float32.ofScientific n.significand (n.exponent < 0) n.exponent.natAbs
  if n.negative then -size else size

end Stencil.Decimal
