/-! The shortest decimal that a binary floating-point number reads back from. -/

namespace Stencil.Decimal

/-- The number `mantissa * 2 ^ exponent`; `narrow` if the next smaller float is half as far away
as the next larger one. -/
structure Binary where
  mantissa : Nat
  exponent : Int
  narrow : Bool
deriving DecidableEq

def Binary.ofBits (bits : UInt64) : Binary :=
  let biased : Nat := bits.toNat / Nat.pow 2 52 % Nat.pow 2 11
  let fraction : Nat := bits.toNat % Nat.pow 2 52
  if biased = 0 then ⟨fraction, -1074, false⟩
  else ⟨fraction + Nat.pow 2 52, biased - 1075, fraction == 0 && biased > 1⟩

structure Shortest where
  significand : Nat
  exponent : Int
deriving DecidableEq

/-- What becomes of a number halfway between two decimals of one length. -/
inductive Tie where
  | up
  | toEven
deriving DecidableEq

structure Ratio where
  numerator : Nat
  denominator : Nat

def Ratio.scale (n : Nat) (base : Nat) (exponent : Int) : Ratio :=
  if exponent < 0 then ⟨n, Nat.pow base exponent.natAbs⟩ else ⟨n * Nat.pow base exponent.natAbs, 1⟩

def digitCount (n : Nat) : Nat := if n = 0 then 0 else (Nat.toDigits 10 n).length

/-- The decimal exponent that puts the point before the first digit. -/
def Binary.pointExponent (b : Binary) : Int :=
  let r := Ratio.scale (b.mantissa * Nat.pow 10 400) 2 b.exponent
  (digitCount (r.numerator / r.denominator) : Int) - 400

/-- Of the two multiples of `10 ^ exponent` around a number, the nearer that reads back as it. -/
def Binary.onGrid (tie : Tie) (b : Binary) (exponent : Int) : Option Nat :=
  -- quarters of the binary unit, counted in units of the grid: `q` of them make `q * unit`
  let unit := Ratio.scale 1 2 (b.exponent - 2)
  let step := Ratio.scale 1 10 exponent
  let num := unit.numerator * step.denominator
  let den := unit.denominator * step.numerator
  let value := 4 * b.mantissa * num
  let low := (4 * b.mantissa - if b.narrow then 1 else 2) * num
  let high := (4 * b.mantissa + 2) * num
  let readsBack (c : Nat) : Bool :=
    if b.mantissa % 2 = 0 then low ≤ c * den && c * den ≤ high
    else low < c * den && c * den < high
  let below := value / den
  let left := value - below * den
  let right := (below + 1) * den - value
  match readsBack below, readsBack (below + 1) with
  | false, false => none
  | true, false => some below
  | false, true => some (below + 1)
  | true, true =>
    if left < right then some below
    else if right < left then some (below + 1)
    else
      match tie with
      | .up => some (below + 1)
      | .toEven => if below % 2 = 0 then some below else some (below + 1)

/-- Moves trailing zeros of the significand into the exponent, `fuel` of them at most. -/
def Shortest.normalize : Nat → Shortest → Shortest
  | 0, s => s
  | fuel + 1, s =>
    if s.significand ≠ 0 && s.significand % 10 = 0 then
      Shortest.normalize fuel ⟨s.significand / 10, s.exponent + 1⟩
    else s

/-- The decimal with the fewest digits that reads back as `b`, the nearest of those. -/
def Binary.shortest (tie : Tie) (b : Binary) : Shortest :=
  let point := b.pointExponent
  let found := (List.range 17).findSome? fun n =>
    let exponent := point - (n + 1 : Nat)
    (b.onGrid tie exponent).map fun c => Shortest.normalize 17 ⟨c, exponent⟩
  found.getD ⟨b.mantissa, 0⟩

end Stencil.Decimal
