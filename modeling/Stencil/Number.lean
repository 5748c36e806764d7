import Stencil.Json

/-! Numbers in templates: signed and unsigned words, and doubles. -/

namespace Stencil

/-- A number keeps the representation it came in. -/
inductive Number where
  | signed (n : Int64)
  | unsigned (n : UInt64)
  | float (x : Float)

namespace Number

def isZero : Number → Bool
  | .signed n => n == 0
  | .unsigned n => n == 0
  | .float x => x == 0.0

def natural? : Number → Option Nat
  | .signed n => if 0 ≤ n then some n.toInt.toNat else none
  | .unsigned n => some n.toNat
  | .float _ => none

def toFloat : Number → Float
  | .signed n => n.toFloat
  | .unsigned n => n.toFloat
  | .float x => x

def text : Number → List Char
  | .signed n => Decimal.intText n.toInt
  | .unsigned n => Decimal.natText n.toNat
  | .float x => Decimal.Layout.reader.text x

/-- Equality within one representation; floats are compared as floats. -/
def same : Number → Number → Bool
  | .signed m, .signed n => m == n
  | .unsigned m, .unsigned n => m == n
  | .float x, .float y => x == y
  | _, _ => false

/-- Integers are signed where they fit. -/
def ofJson : JsonNumber → Number
  | .natural n => if n ≤ Int64.maxValue.toUInt64 then .signed n.toInt64 else .unsigned n
  | .negative n => .signed n
  | .float x => .float x

/-- Plain data has no text for a float that is not finite. -/
def toJson : Number → Json
  | .signed n => if 0 ≤ n then .number (.natural n.toUInt64) else .number (.negative n)
  | .unsigned n => .number (.natural n)
  | .float x => if x.isFinite then .number (.float x) else .null

end Number

end Stencil
