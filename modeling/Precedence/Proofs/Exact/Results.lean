import Mathlib.Algebra.Field.Rat
import Mathlib.Data.Rat.Lemmas
import Mathlib.Tactic.FieldSimp
import Mathlib.Tactic.Push
import Mathlib.Tactic.Ring
import Precedence.Exact.Arithmetic

/-!
# Exact results

An exact number stands for a rational number, `Exact.toRat`. What an operation is to give follows
from the rational number that is its mathematical result: `represented` gives the fraction of that
number in lowest terms, an overflow if a part of the fraction has more than 64 bits, and a division
by zero if there is no such number. How large the numbers are on the way does not matter.

* `reduce_eq`: a reduced fraction represents the quotient of the numbers that it was made of.
* `add_eq`, `subtract_eq`, `multiply_eq`, `divide_eq`, `reciprocal_eq`: so every operation
  represents its result. The shortcuts for two integers give the same as the way through fractions.
* `neg_integer_eq`, `neg_rational_eq`: so does the opposite. That of a fraction stays a fraction.
-/

namespace Precedence

open Precedence.Number

/-! ## Numbers and what represents them -/

namespace Rational

/-- The number that a fraction stands for. -/
def toRat (q : Rational) : ℚ :=
  q.numer / q.denom

/-- The fraction of a number in lowest terms. -/
def ofRat (p : ℚ) : Rational where
  numer := p.num
  denom := p.den

end Rational

namespace Exact

/-- The number that an exact number stands for. -/
def toRat : Exact → ℚ
  | integer n => n
  | rational q => q.toRat

/-- The exact number that stands for a number: an integer if that is whole. -/
def ofRat (p : ℚ) : Exact :=
  if p.den = 1 then integer p.num else rational ⟨p.num, p.den⟩

/-- A fraction has a positive denominator. -/
def Proper : Exact → Prop
  | integer _ => True
  | rational q => 0 < q.denom

end Exact

/-- A quotient of numbers. There is none by zero. -/
def quotient? (x y : ℚ) : Option ℚ :=
  if y = 0 then none else some (x / y)

/-- What an operation is to give whose mathematical result is the number, in the form `form`. -/
def represented {α : Type} (form : ℚ → α) : Option ℚ → Except ArithmeticError α
  | none => .error .divisionByZero
  | some p =>
    if Fits p.num ∧ (p.den : Int) ≤ greatestInteger then .ok (form p) else .error .overflow

section Represented

variable {α β : Type} {form : ℚ → α} {p? : Option ℚ} {z : α}

/-- Whatever is represented has a numerator and a denominator of 64 bits. -/
theorem represented_eq_ok (h : represented form p? = .ok z) :
    ∃ p, p? = some p ∧ Fits p.num ∧ (p.den : Int) ≤ greatestInteger ∧ z = form p := by
  cases p? with
  | none => cases h
  | some p =>
    rw [represented] at h
    split at h
    · rename_i hp
      cases h
      exact ⟨p, rfl, hp.1, hp.2, rfl⟩
    · cases h

theorem represented_map (f : α → β) :
    (represented form p?).map f = represented (f ∘ form) p? := by
  cases p? with
  | none => rfl
  | some p =>
    rw [represented, represented]
    split <;> rfl

end Represented

/-! ## Reduced fractions -/

theorem narrow_eq (n : Int) : narrow n = if Fits n then .ok n else .error .overflow := by
  unfold narrow narrow?
  by_cases h : Fits n
  · rw [if_pos h, if_pos h]
  · rw [if_neg h, if_neg h]

/-- A positive integer has 64 bits if it is not too great. -/
theorem fits_natCast_iff (n : Nat) : Fits n ↔ (n : Int) ≤ greatestInteger := by
  unfold Fits leastInteger
  omega

namespace Rational

variable {q : Rational} {x : Exact}

/-- The numerator of a quotient of integers. -/
theorem num_div_eq {a b : Int} (hb : b ≠ 0) :
    ((a : ℚ) / b).num = (if b < 0 then -1 else 1) * (a / Int.ofNat (Int.gcd a b)) := by
  have hg : (Int.gcd a b : Int) ∣ a := Int.gcd_dvd_left a b
  rw [← Rat.divInt_eq_div, Rat.num_divInt, Int.gcd_comm, Int.mul_ediv_assoc _ hg]
  by_cases hneg : b < 0
  · rw [if_pos hneg, Int.sign_eq_neg_one_of_neg hneg]
    rfl
  · rw [if_neg hneg, Int.sign_eq_one_of_pos (by omega)]
    rfl

/-- The denominator of a quotient of integers. -/
theorem den_div_eq {a b : Int} (hb : b ≠ 0) :
    (((a : ℚ) / b).den : Int) = (if b < 0 then -1 else 1) * (b / Int.ofNat (Int.gcd a b)) := by
  have hg : (Int.gcd a b : Int) ∣ b := Int.gcd_dvd_right a b
  rw [← Rat.divInt_eq_div, Rat.den_divInt, if_neg hb, Int.gcd_comm, Int.natCast_ediv]
  by_cases hneg : b < 0
  · rw [if_pos hneg, Int.ofNat_natAbs_of_nonpos (by omega), Int.neg_ediv_of_dvd hg,
      Int.neg_one_mul]
    rfl
  · rw [if_neg hneg, Int.natAbs_of_nonneg (by omega), Int.one_mul]
    rfl

/-- The parts of a number are narrowed one after the other. What is made of them counts only if both
of them have 64 bits. -/
theorem narrow_bind {α : Type} {form : ℚ → α} {p : ℚ} {k : Int → Int → Except ArithmeticError α}
    (hk : Fits p.num → Fits p.den → k p.num p.den = .ok (form p)) :
    (do
      let n ← narrow p.num
      let d ← narrow p.den
      k n d) = represented form (some p) := by
  rw [narrow_eq, narrow_eq, represented]
  by_cases hn : Fits p.num
  · by_cases hd : Fits p.den
    · rw [if_pos hn, if_pos hd, if_pos ⟨hn, (fits_natCast_iff _).mp hd⟩]
      exact hk hn hd
    · rw [if_pos hn, if_neg hd, if_neg fun h => hd ((fits_natCast_iff _).mpr h.2)]
      rfl
  · have hboth : ¬ (Fits p.num ∧ (p.den : Int) ≤ greatestInteger) := fun h => hn h.1
    rw [if_neg hn, if_neg hboth]
    rfl

/-- The parts of a number in lowest terms, if both of them have 64 bits. -/
theorem narrow_parts (p : ℚ) :
    (do
      let n ← narrow p.num
      let d ← narrow p.den
      return (⟨n, d⟩ : Rational)) = represented ofRat (some p) :=
  narrow_bind fun _ _ => rfl

/-- **A reduced fraction** represents the quotient of the numbers that it was made of. -/
theorem reduce_eq (a b : Int) : reduce a b = represented ofRat (quotient? a b) := by
  by_cases hb : b = 0
  · rw [reduce, if_pos hb, quotient?, if_pos (Int.cast_eq_zero.mpr hb)]
    rfl
  · have hparts := narrow_parts ((a : ℚ) / b)
    rw [num_div_eq hb, den_div_eq hb] at hparts
    rw [reduce, if_neg hb, quotient?, if_neg (Int.cast_ne_zero.mpr hb)]
    exact hparts

theorem collapse_ofRat (p : ℚ) : (ofRat p).collapse = Exact.ofRat p := by
  unfold collapse ofRat Exact.ofRat
  simp only [Nat.cast_eq_one]

/-- **A reduced fraction as an exact number.** -/
theorem make_eq (a b : Int) : make a b = represented Exact.ofRat (quotient? a b) := by
  rw [make, reduce_eq, represented_map]
  congr 1
  exact funext collapse_ofRat

/-- A fraction with a positive denominator has an opposite with the opposite numerator. -/
theorem neg_eq (hq : 0 < q.denom) : q.neg = represented ofRat (some (-q.toRat)) := by
  rw [neg, reduce_eq, quotient?, if_neg (Int.cast_ne_zero.mpr hq.ne'), toRat]
  push_cast
  rw [neg_div]

end Rational

/-! ## Operations -/

namespace Exact

variable {x y : Exact} {p : ℚ}

theorem Proper.denom_pos (hx : x.Proper) : 0 < x.denom := by
  cases x with
  | integer n => exact Int.one_pos
  | rational q => exact hx

theorem toRat_eq_div (x : Exact) : x.toRat = (x.numer : ℚ) / x.denom := by
  cases x with
  | integer n => simp [toRat, numer, denom]
  | rational q => rfl

theorem denom_ne_zero (hx : x.Proper) : (x.denom : ℚ) ≠ 0 :=
  Int.cast_ne_zero.mpr hx.denom_pos.ne'

/-- Only zero has the numerator zero. -/
theorem numer_eq_zero_iff (hx : x.Proper) : x.toRat = 0 ↔ x.numer = 0 := by
  rw [toRat_eq_div, div_eq_zero_iff, or_iff_left (denom_ne_zero hx), Int.cast_eq_zero]

/-- A fraction that is made with a denominator other than zero. -/
theorem make_eq_of_ne {a b : Int} (hb : b ≠ 0) (hp : p = (a : ℚ) / b) :
    Rational.make a b = represented ofRat (some p) := by
  rw [Rational.make_eq, quotient?, if_neg (Int.cast_ne_zero.mpr hb), hp]

/-- An integer that has 64 bits, or an overflow. -/
theorem narrow_map_eq {n : Int} (hp : p = n) :
    (narrow n).map integer = represented ofRat (some p) := by
  have hone : (1 : Int) ≤ greatestInteger := by decide
  rw [narrow_eq, represented, hp, Rat.num_intCast, Rat.den_intCast, Nat.cast_one]
  simp only [hone, and_true]
  split
  · simp [Except.map, ofRat]
  · rfl

/-- **A sum.** -/
theorem add_eq (hx : x.Proper) (hy : y.Proper) :
    x.add y = represented ofRat (some (x.toRat + y.toRat)) := by
  have hxd := denom_ne_zero hx
  have hyd := denom_ne_zero hy
  have hne : x.denom * y.denom ≠ 0 := (Int.mul_pos hx.denom_pos hy.denom_pos).ne'
  have hsum : x.toRat + y.toRat =
      ((x.numer * y.denom + y.numer * x.denom : Int) : ℚ) / ((x.denom * y.denom : Int) : ℚ) := by
    rw [toRat_eq_div, toRat_eq_div]
    push_cast
    field_simp
  cases x with
  | integer a =>
    cases y with
    | integer b => exact narrow_map_eq (by simp [toRat])
    | rational q =>
      -- The fraction goes first, and a sum does not depend on that.
      rw [Int.add_comm, Int.mul_comm (Exact.denom (integer a))] at hsum
      rw [Int.mul_comm] at hne
      exact make_eq_of_ne hne hsum
  | rational q => exact make_eq_of_ne hne hsum

/-- **A difference.** -/
theorem subtract_eq (hx : x.Proper) (hy : y.Proper) :
    x.subtract y = represented ofRat (some (x.toRat - y.toRat)) := by
  have hxd := denom_ne_zero hx
  have hyd := denom_ne_zero hy
  have hne : x.denom * y.denom ≠ 0 := (Int.mul_pos hx.denom_pos hy.denom_pos).ne'
  have hdifference : x.toRat - y.toRat =
      ((x.numer * y.denom - y.numer * x.denom : Int) : ℚ) / ((x.denom * y.denom : Int) : ℚ) := by
    rw [toRat_eq_div, toRat_eq_div]
    push_cast
    field_simp
  cases x with
  | integer a =>
    cases y with
    | integer b => exact narrow_map_eq (by simp [toRat])
    | rational q => exact make_eq_of_ne hne hdifference
  | rational q => exact make_eq_of_ne hne hdifference

/-- **A product.** -/
theorem multiply_eq (hx : x.Proper) (hy : y.Proper) :
    x.multiply y = represented ofRat (some (x.toRat * y.toRat)) := by
  have hne : x.denom * y.denom ≠ 0 := (Int.mul_pos hx.denom_pos hy.denom_pos).ne'
  have hproduct : x.toRat * y.toRat =
      ((x.numer * y.numer : Int) : ℚ) / ((x.denom * y.denom : Int) : ℚ) := by
    rw [toRat_eq_div, toRat_eq_div]
    push_cast
    rw [div_mul_div_comm]
  cases x with
  | integer a =>
    cases y with
    | integer b => exact narrow_map_eq (by simp [toRat])
    | rational q =>
      rw [Int.mul_comm (Exact.numer (integer a)), Int.mul_comm (Exact.denom (integer a))]
        at hproduct
      rw [Int.mul_comm] at hne
      exact make_eq_of_ne hne hproduct
  | rational q => exact make_eq_of_ne hne hproduct

/-- **A quotient.** -/
theorem divide_eq (hx : x.Proper) (hy : y.Proper) :
    x.divide y = represented ofRat (quotient? x.toRat y.toRat) := by
  have hmake : x.divide y = Rational.make (x.numer * y.denom) (x.denom * y.numer) := by
    cases x <;> rfl
  rw [hmake, Rational.make_eq]
  by_cases h0 : y.numer = 0
  · rw [quotient?, quotient?, if_pos ((numer_eq_zero_iff hy).mpr h0), if_pos]
    rw [h0, Int.mul_zero, Int.cast_zero]
  · have hne : x.denom * y.numer ≠ 0 := Int.mul_ne_zero hx.denom_pos.ne' h0
    rw [quotient?, quotient?, if_neg (Int.cast_ne_zero.mpr hne),
      if_neg fun h => h0 ((numer_eq_zero_iff hy).mp h), toRat_eq_div, toRat_eq_div]
    push_cast
    rw [div_div_div_eq]

/-- **The opposite of an integer.** -/
theorem neg_integer_eq (n : Int) :
    (integer n).neg = represented ofRat (some (-(integer n).toRat)) :=
  narrow_map_eq (by simp [toRat])

/-- **The opposite of a fraction,** a fraction also if it is whole. -/
theorem neg_rational_eq {q : Rational} (hq : 0 < q.denom) :
    (rational q).neg = represented (rational ∘ Rational.ofRat) (some (-(rational q).toRat)) := by
  rw [neg, Rational.neg_eq hq, represented_map, toRat]

/-- **One divided by a fraction.** -/
theorem reciprocal_eq {q : Rational} (hq : 0 < q.denom) :
    q.reciprocal = represented ofRat (quotient? 1 q.toRat) := by
  rw [Rational.reciprocal, Rational.make_eq]
  have hiff : q.toRat = 0 ↔ q.numer = 0 := numer_eq_zero_iff (x := rational q) hq
  by_cases h0 : q.numer = 0
  · rw [quotient?, quotient?, if_pos (Int.cast_eq_zero.mpr h0), if_pos (hiff.mpr h0)]
  · rw [quotient?, quotient?, if_neg (Int.cast_ne_zero.mpr h0), if_neg fun h => h0 (hiff.mp h),
      Rational.toRat, one_div_div]

end Exact

end Precedence
