import Stencil.Decimal.Shortest

/-! Decimal texts of numbers: plain digits, and the two ways a double is written. -/

namespace Stencil.Decimal

def natText (n : Nat) : List Char := Nat.toDigits 10 n

def intText (n : Int) : List Char :=
  if n < 0 then '-' :: natText n.natAbs else natText n.natAbs

structure Layout where
  tie : Tie
  /-- Which powers of ten of the first digit are written without an exponent. -/
  positional : Int → Bool
  /-- Whole numbers end in a point and a zero. -/
  wholeMark : Bool

/-- A text for readers never has an exponent, and a whole number no point. -/
def Layout.reader : Layout := ⟨.up, fun _ => true, false⟩

/-- A text for machines has an exponent outside of `1e-5 ≤ x < 1e16`, and else a point. -/
def Layout.machine : Layout := ⟨.toEven, fun power => -5 ≤ power && power < 16, true⟩

/-- Digits without an exponent: filled up with zeros, or with a point in or before them. -/
def positionalText (wholeMark : Bool) (digits : List Char) (exponent : Int) : List Char :=
  if 0 ≤ exponent then
    digits ++ List.replicate exponent.toNat '0' ++ if wholeMark then ['.', '0'] else []
  else
    let places := exponent.natAbs
    if places < digits.length then
      digits.take (digits.length - places) ++ '.' :: digits.drop (digits.length - places)
    else '0' :: '.' :: (List.replicate (places - digits.length) '0' ++ digits)

/-- One digit, the others after a point, and the power of ten with its sign. -/
def exponentText (digits : List Char) (power : Int) : List Char :=
  let lead :=
    match digits with
    | [] => []
    | [d] => [d]
    | d :: later => d :: '.' :: later
  lead ++ 'e' :: (if power < 0 then '-' else '+') :: natText power.natAbs

def Layout.magnitudeText (layout : Layout) (b : Binary) : List Char :=
  let s := if b.mantissa = 0 then ⟨0, 0⟩ else b.shortest layout.tie
  let digits := natText s.significand
  let power := s.exponent + digits.length - 1
  if layout.positional power then positionalText layout.wholeMark digits s.exponent
  else exponentText digits power

def Layout.finiteText (layout : Layout) (x : Float) : List Char :=
  let bits := x.toBits
  let magnitude := layout.magnitudeText (Binary.ofBits bits)
  if bits >>> 63 = 0 then magnitude else '-' :: magnitude

def Layout.text (layout : Layout) (x : Float) : List Char :=
  if x.isNaN then "NaN".toList
  else if x.isInf then if x < 0 then "-inf".toList else "inf".toList
  else layout.finiteText x

end Stencil.Decimal
