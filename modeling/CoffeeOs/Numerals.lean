import Mathlib.Data.Rat.Defs
import Mathlib.Algebra.Order.Ring.Rat

/-!
Numbers as text: decimal numerals, padded with zeros on the left, and decimal fractions.

A padded numeral can be read back, so that it says which number it was made of, however wide
the number is.
-/

namespace CoffeeOs.Numerals

/-- The decimal numeral of `n`, padded to at least `width` digits. -/
def padded (width n : ℕ) : List Char := (Nat.toDigits 10 n).leftpad width '0'

variable {w m n : ℕ}

lemma ofDigitChars_padded : Nat.ofDigitChars 10 (padded w n) 0 = n := by
  unfold padded List.leftpad
  rw [Nat.ofDigitChars_append, Nat.ofDigitChars_replicate_zero, Nat.mul_zero,
    Nat.ofDigitChars_toDigits (by omega) (by omega)]

lemma padded_injective (w : ℕ) : Function.Injective (padded w) := by
  intro m n h
  have hread := congrArg (fun cs => Nat.ofDigitChars 10 cs 0) h
  simpa only [ofDigitChars_padded] using hread

lemma isDigit_of_mem_padded {c : Char} (h : c ∈ padded w n) : c.isDigit := by
  rcases List.mem_append.mp h with h | h
  · rw [List.eq_of_mem_replicate h]; rfl
  · exact Nat.isDigit_of_mem_toDigits (by omega) (by omega) h

lemma le_length_padded : w ≤ (padded w n).length := by
  unfold padded
  rw [List.length_leftpad]
  exact Nat.le_max_left _ _

lemma length_padded (hw : 0 < w) (h : n < 10 ^ w) : (padded w n).length = w := by
  unfold padded
  rw [List.length_leftpad]
  exact Nat.max_eq_left ((Nat.length_toDigits_le_iff (by omega) hw).mpr h)

/-! ### Decimal fractions -/

/-- The decimal places of `r / d`, at most `n` of them. -/
def decimals : (n r d : ℕ) → List Char
  | 0, _, _ => []
  | n + 1, r, d => if r = 0 then [] else Nat.digitChar (10 * r / d) :: decimals n (10 * r % d) d

/-- A number in a message; up to twenty decimal places are written. -/
def numberText (q : ℚ) : String :=
  let sign := if q < 0 then "-" else ""
  let n := q.num.natAbs
  let point := if n % q.den = 0 then "" else "."
  sign ++ toString (n / q.den) ++ point ++ String.ofList (decimals 20 (n % q.den) q.den)

end CoffeeOs.Numerals
