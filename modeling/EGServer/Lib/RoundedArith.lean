import Mathlib.Algebra.Order.Field.Rat
import Mathlib.Tactic.Linarith
import Mathlib.Tactic.Positivity

/-!
# Ordered arithmetic that rounds

Floating-point code compares, adds and scales finite numbers. Every operation rounds, so
the ring laws fail, but rounding is *monotone*: what is ordered stays ordered, and the
operations are exact on `0` and `1`. `RoundedArith` collects the laws that survive;
results proved over it hold of `float`, of `double` and of exact rationals alike.
-/

/-- A linearly ordered type of finite numbers whose operations are monotone and exact at
`0` and `1`. Division and subtraction carry no law: nothing here depends on their value. -/
class RoundedArith (F : Type) extends LinearOrder F, Zero F, One F, Add F, Sub F, Mul F, Div F,
    IntCast F where
  /-- Conversion from integers keeps the order. -/
  intCast_mono : ∀ {m n : Int}, m ≤ n → (m : F) ≤ (n : F)
  intCast_zero : ((0 : Int) : F) = 0
  intCast_one : ((1 : Int) : F) = 1
  /-- Addition is monotone in its second argument. -/
  add_le_add_left : ∀ {a b : F}, a ≤ b → ∀ c : F, c + a ≤ c + b
  /-- Addition is monotone in its first argument. -/
  add_le_add_right : ∀ {a b : F}, a ≤ b → ∀ c : F, a + c ≤ b + c
  add_zero : ∀ a : F, a + 0 = a
  /-- Scaling a non-negative number is monotone in the factor. -/
  mul_le_mul_left : ∀ {a b c : F}, 0 ≤ c → a ≤ b → c * a ≤ c * b
  mul_zero : ∀ a : F, a * 0 = 0
  mul_one : ∀ a : F, a * 1 = a

namespace RoundedArith

/-- Exact arithmetic is rounded arithmetic that never rounds. -/
instance : RoundedArith ℚ where
  intCast_mono h := by exact_mod_cast h
  intCast_zero := by norm_num
  intCast_one := by norm_num
  add_le_add_left h c := by linarith
  add_le_add_right h c := by linarith
  add_zero a := AddZeroClass.add_zero a
  mul_le_mul_left hc h := by nlinarith
  mul_zero a := MulZeroClass.mul_zero a
  mul_one a := MulOneClass.mul_one a

variable {F : Type} [RoundedArith F] {a b c : F}

/-- Adding something non-negative does not decrease. -/
theorem le_add_of_nonneg (h : 0 ≤ b) : a ≤ a + b := by
  have hab := add_le_add_left h a
  rwa [RoundedArith.add_zero] at hab

/-- Adding something non-positive does not increase. -/
theorem add_le_of_nonpos (h : b ≤ 0) : a + b ≤ a := by
  have hab := add_le_add_left h a
  rwa [RoundedArith.add_zero] at hab

/-- A factor of at least one does not decrease a non-negative number. -/
theorem le_mul_of_one_le (ha : 0 ≤ a) (h : 1 ≤ b) : a ≤ a * b := by
  have hab := mul_le_mul_left ha h
  rwa [RoundedArith.mul_one] at hab

/-- A factor of at most one does not increase a non-negative number. -/
theorem mul_le_of_le_one (ha : 0 ≤ a) (h : b ≤ 1) : a * b ≤ a := by
  have hab := mul_le_mul_left ha h
  rwa [RoundedArith.mul_one] at hab

theorem mul_nonneg (ha : 0 ≤ a) (hb : 0 ≤ b) : 0 ≤ a * b := by
  have hab := mul_le_mul_left ha hb
  rwa [RoundedArith.mul_zero] at hab

end RoundedArith
