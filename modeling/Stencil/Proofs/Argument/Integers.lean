import Mathlib.Algebra.Ring.Int.Defs
import Stencil.Proofs.Argument.Printing

/-! Integers in a tag beside integers in data. Data keeps all of 64 bits, signed or not. A tag keeps
the signed ones, and has doubles in place of the others. -/

namespace Stencil

/-- An integer of 64 bits in plain data. -/
def JsonNumber.ofInt (z : Int) : JsonNumber :=
  if z < 0 then .negative (Int64.ofInt z) else .natural (UInt64.ofNat z.toNat)

theorem toInt_ofInt {z : Int} (hleast : -2 ^ 63 ≤ z) (hgreatest : z < 2 ^ 63) :
    (Int64.ofInt z).toInt = z :=
  Int64.toInt_ofInt_of_le hleast hgreatest

theorem toNat_ofNat {z : Int} (hleast : 0 ≤ z) (hgreatest : z < 2 ^ 64) :
    ((UInt64.ofNat z.toNat).toNat : Int) = z := by
  have hsize : z.toNat < 2 ^ 64 := by omega
  rw [UInt64.toNat_ofNat', Nat.mod_eq_of_lt hsize]
  omega

/-- Data keeps integers in signed words where they fit, and else in unsigned ones. -/
theorem Number.ofJson_ofInt {z : Int} (hgreatest : z < 2 ^ 64) :
    Number.ofJson (.ofInt z) =
      if z < 2 ^ 63 then .signed (Int64.ofInt z) else .unsigned (UInt64.ofNat z.toNat) := by
  unfold JsonNumber.ofInt
  by_cases hneg : z < 0
  · have hfits : z < 2 ^ 63 := by omega
    rw [if_pos hneg, if_pos hfits]
    rfl
  · have hexact := toNat_ofNat (Int.not_lt.mp hneg) hgreatest
    have hle : UInt64.ofNat z.toNat ≤ Int64.maxValue.toUInt64 ↔ z < 2 ^ 63 := by
      have hmax : Int64.maxValue.toUInt64.toNat = 2 ^ 63 - 1 := by decide
      rw [UInt64.le_iff_toNat_le, hmax]
      omega
    have hword : (UInt64.ofNat z.toNat).toInt64 = Int64.ofInt z := by
      have hint : (z.toNat : Int) = z := by omega
      rw [← hint]
      rfl
    rw [if_neg hneg, Number.ofJson]
    simp only [hle, hword]

namespace Argument

theorem int64?_intText_of_lt {z : Int} (hleast : -2 ^ 63 ≤ z) (hgreatest : z < 2 ^ 63) :
    int64? (Decimal.intText z) = some (Int64.ofInt z) := by
  refine int64?_of_denotes ?_
  rw [toInt_ofInt hleast hgreatest]
  exact Decimal.denotes_intText z

theorem int64?_intText_of_le {z : Int} (h : 2 ^ 63 ≤ z) : int64? (Decimal.intText z) = none := by
  have hmax : Int64.maxValue.toInt = 2 ^ 63 - 1 := by decide
  have hlarge : ¬ z ≤ Int64.maxValue.toInt := by omega
  simp [int64?, (Decimal.denotes_intText z).readInt?_eq, hlarge]

def nearestDouble (n : Nat) : Float := (Decimal.Numeral.mk false n 0).toFloat

theorem number?_intText {z : Int} (hleast : -2 ^ 63 ≤ z) :
    number? (Decimal.intText z) =
      if z < 2 ^ 63 then some (.signed (Int64.ofInt z))
      else some (.float (nearestDouble z.toNat)) := by
  rw [number?, if_pos (looksNumeric_of_denotes (Decimal.denotes_intText z))]
  by_cases hfits : z < 2 ^ 63
  · rw [int64?_intText_of_lt hleast hfits, if_pos hfits]
  · have hlarge : 2 ^ 63 ≤ z := Int.not_lt.mp hfits
    have htext : Decimal.intText z = Decimal.natText z.toNat := by
      have habs : z.natAbs = z.toNat := by omega
      rw [Decimal.intText, if_neg (by omega), habs]
    rw [int64?_intText_of_le hlarge, htext, Decimal.Numeral.read?_natText, if_neg hfits]
    rfl

/-- The literal that an integer in a tag is. -/
theorem ofWord_integer {z : Int} (hleast : -2 ^ 63 ≤ z) :
    ofWord (Decimal.intText z) =
      .literal (if z < 2 ^ 63 then .ofInt64 (Int64.ofInt z)
        else .ofFloat (nearestDouble z.toNat)) := by
  rw [ofWord_of_denotes (Decimal.denotes_intText z), number?_intText hleast]
  by_cases hfits : z < 2 ^ 63
  · rw [if_pos hfits, if_pos hfits]
    rfl
  · rw [if_neg hfits, if_neg hfits]
    rfl

def dataInteger (z : Int) : Value := .ofJson (.number (.ofInt z))

theorem dataInteger_eq {z : Int} (hgreatest : z < 2 ^ 64) :
    dataInteger z =
      if z < 2 ^ 63 then .ofInt64 (Int64.ofInt z) else .ofUInt64 (UInt64.ofNat z.toNat) := by
  rw [dataInteger, Value.ofJson, Number.ofJson_ofInt hgreatest]
  split <;> rfl

/-- An integer is the same value in a tag as in data exactly if it fits in a signed word, and then
the value is exact. The integers beyond, up to the largest unsigned one, are exact in data alone: in
a tag they are the nearest doubles, and no double is the same as an integer. -/
theorem integer_same_as_data_iff {z : Int} (hleast : -2 ^ 63 ≤ z) (hgreatest : z < 2 ^ 64) :
    (ofWord (Decimal.intText z) = .literal (dataInteger z) ↔ z < 2 ^ 63) ∧
    (z < 2 ^ 63 → dataInteger z = .ofInt64 (Int64.ofInt z) ∧ (Int64.ofInt z).toInt = z) ∧
    (2 ^ 63 ≤ z → dataInteger z = .ofUInt64 (UInt64.ofNat z.toNat) ∧
      ((UInt64.ofNat z.toNat).toNat : Int) = z ∧
      ofWord (Decimal.intText z) = .literal (.ofFloat (nearestDouble z.toNat)) ∧
      (Value.ofFloat (nearestDouble z.toNat)).same (dataInteger z) = false) := by
  have hdata := dataInteger_eq hgreatest
  have hword := ofWord_integer hleast
  by_cases hfits : z < 2 ^ 63
  · rw [if_pos hfits] at hdata hword
    refine ⟨iff_of_true (by rw [hword, hdata]) hfits, fun _ => ?_, fun hlarge => ?_⟩
    · exact ⟨hdata, toInt_ofInt hleast hfits⟩
    · exact absurd hfits (Int.not_lt.mpr hlarge)
  · rw [if_neg hfits] at hdata hword
    have hother : ofWord (Decimal.intText z) ≠ .literal (dataInteger z) := by
      rw [hword, hdata]
      simp [Value.ofFloat, Value.ofUInt64]
    refine ⟨iff_of_false hother hfits, fun h => absurd h hfits, fun hlarge => ?_⟩
    refine ⟨hdata, toNat_ofNat (by omega) hgreatest, hword, ?_⟩
    rw [hdata]
    rfl

/-- The least integer and the greatest one. -/
theorem integer_same_as_data_iff_extremes :
    (-2 ^ 63 ≤ (-2 ^ 63 : Int) ∧ (-2 ^ 63 : Int) < 2 ^ 64 ∧
      ofWord "-9223372036854775808".toList = .literal (dataInteger (-2 ^ 63))) ∧
    (-2 ^ 63 ≤ (2 ^ 64 - 1 : Int) ∧ (2 ^ 64 - 1 : Int) < 2 ^ 64 ∧
      ofWord "18446744073709551615".toList =
        .literal (.ofFloat (nearestDouble 18446744073709551615))) := by
  obtain ⟨hsame, -, -⟩ := integer_same_as_data_iff (z := -2 ^ 63) (by decide) (by decide)
  obtain ⟨-, -, hlarge⟩ := integer_same_as_data_iff (z := 2 ^ 64 - 1) (by decide) (by decide)
  obtain ⟨-, -, hword, -⟩ := hlarge (by decide)
  exact ⟨⟨by decide, by decide, hsame.mpr (by decide)⟩, by decide, by decide, hword⟩

/-- The first integer that is too large for a signed word is another value in a tag than in data. -/
theorem not_integer_same_as_data :
    ¬ ∀ z : Int, -2 ^ 63 ≤ z → z < 2 ^ 64 →
      ofWord (Decimal.intText z) = .literal (dataInteger z) := by
  intro h
  have hsame := h (2 ^ 63) (by decide) (by decide)
  rw [ofWord_integer (by decide), dataInteger_eq (by decide), if_neg (by decide),
    if_neg (by decide)] at hsame
  simp [Value.ofFloat, Value.ofUInt64] at hsame

end Argument

end Stencil
