import Mathlib.Data.List.TakeWhile
import Stencil.Decimal.Layout
import Stencil.Decimal.Numeral

/-! Integers written in decimal digits are read as themselves, as integers and as numerals. -/

namespace Stencil.Decimal

theorem isDigit_of_mem_natText {n : Nat} {c : Char} (h : c ∈ natText n) : isDigit c = true :=
  Nat.isDigit_of_mem_toDigits (b := 10) (by decide) (by decide) h

theorem natText_ne_nil (n : Nat) : natText n ≠ [] := Nat.toDigits_ne_nil

theorem digitsValue_natText (n : Nat) : digitsValue (natText n) = n := by
  have hread := Nat.ofDigitChars_ten_toDigits (n := n)
  rwa [Nat.ofDigitChars_eq_foldl] at hread

theorem readDigits?_of_digits {digits : List Char} (hne : digits ≠ [])
    (hdigits : ∀ c ∈ digits, isDigit c = true) :
    readDigits? digits = some (digitsValue digits) := by
  have hall : digits.all isDigit = true := List.all_eq_true.mpr hdigits
  simp [readDigits?, hne, hall]

/-- A text of digits, behind a minus sign or not, writes an integer. There may be zeros in front. -/
inductive Denotes : List Char → Int → Prop where
  | positive {digits : List Char} (hne : digits ≠ []) (hdigits : ∀ c ∈ digits, isDigit c = true) :
      Denotes digits (digitsValue digits)
  | negative {digits : List Char} (hne : digits ≠ []) (hdigits : ∀ c ∈ digits, isDigit c = true) :
      Denotes ('-' :: digits) (-digitsValue digits)

theorem denotes_intText (z : Int) : Denotes (intText z) z := by
  have hdigits : ∀ c ∈ natText z.natAbs, isDigit c = true := fun _ => isDigit_of_mem_natText
  unfold intText
  split
  · rename_i hneg
    have hwritten := Denotes.negative (natText_ne_nil z.natAbs) hdigits
    have hvalue : -(z.natAbs : Int) = z := by omega
    rwa [digitsValue_natText, hvalue] at hwritten
  · rename_i hnonneg
    have hwritten := Denotes.positive (natText_ne_nil z.natAbs) hdigits
    have hvalue : (z.natAbs : Int) = z := by omega
    rwa [digitsValue_natText, hvalue] at hwritten

/-- What follows the sign is a digit. -/
theorem Denotes.exists_digit {text : List Char} {z : Int} (h : Denotes text z) :
    ∃ sign d later, text = sign ++ d :: later ∧ (sign = [] ∨ sign = ['-']) ∧
      ∀ c ∈ d :: later, isDigit c = true := by
  cases h with
  | positive hne hdigits =>
    obtain ⟨d, later, rfl⟩ := List.exists_cons_of_ne_nil hne
    exact ⟨[], d, later, rfl, .inl rfl, hdigits⟩
  | negative hne hdigits =>
    obtain ⟨d, later, rfl⟩ := List.exists_cons_of_ne_nil hne
    exact ⟨['-'], d, later, rfl, .inr rfl, hdigits⟩

theorem isDigit_ne_sign {d : Char} (h : isDigit d = true) : d ≠ '-' ∧ d ≠ '+' := by
  constructor <;> rintro rfl <;> exact absurd h (by decide)

theorem Denotes.readInt?_eq {text : List Char} {z : Int} (h : Denotes text z) :
    readInt? text = some z := by
  cases h with
  | negative hne hdigits =>
    rw [readInt?, readDigits?_of_digits hne hdigits]
    rfl
  | positive hne hdigits =>
    have hread := readDigits?_of_digits hne hdigits
    obtain ⟨d, later, rfl⟩ := List.exists_cons_of_ne_nil hne
    obtain ⟨hminus, hplus⟩ := isDigit_ne_sign (hdigits d List.mem_cons_self)
    unfold readInt?
    split
    · rename_i heq
      exact absurd (List.cons.inj heq).1 hminus
    · rename_i heq
      exact absurd (List.cons.inj heq).1 hplus
    · rw [hread]
      rfl

/-- As a numeral, an integer has no fraction and no exponent. -/
theorem Numeral.read?_natText (n : Nat) : Numeral.read? (natText n) = some ⟨false, n, 0⟩ := by
  have hwhole : (natText n).takeWhile isDigit = natText n :=
    List.takeWhile_eq_self_iff.mpr fun _ => isDigit_of_mem_natText
  have hrest : (natText n).dropWhile isDigit = [] :=
    List.dropWhile_eq_nil_iff.mpr fun _ => isDigit_of_mem_natText
  have hunsigned : readUnsigned? (natText n) = some (n, 0) := by
    simp [readUnsigned?, hwhole, hrest, natText_ne_nil, readExponent?, digitsValue_natText]
  obtain ⟨d, later, htext⟩ := List.exists_cons_of_ne_nil (natText_ne_nil n)
  obtain ⟨hminus, hplus⟩ := isDigit_ne_sign (isDigit_of_mem_natText (htext ▸ List.mem_cons_self))
  rw [htext] at hunsigned ⊢
  unfold Numeral.read?
  split
  · rename_i heq
    exact absurd (List.cons.inj heq).1 hminus
  · rename_i heq
    exact absurd (List.cons.inj heq).1 hplus
  · rw [hunsigned]
    rfl

end Stencil.Decimal
