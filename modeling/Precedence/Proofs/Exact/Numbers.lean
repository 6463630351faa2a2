import Precedence.Proofs.Except
import Precedence.Proofs.Exact.Results

/-!
# Exact arithmetic is right

Every operation on exact numbers that has a result has the right one: `Exact.Finds` says that the
result of an operation stands for a certain number and is `Proper`, that is, has a positive
denominator. For operations that represent their results this is what `represented` says; powers
take shortcuts.

* `add_finds`, `subtract_finds`, `multiply_finds`, `divide_finds`, `pow_finds`, `neg_finds`: one for
  each operation.
-/

namespace Precedence

open Precedence.Number

theorem narrow_eq_ok {n m : Int} (h : narrow n = .ok m) : m = n := by
  rw [narrow_eq] at h
  split at h
  · exact (Except.ok.inj h).symm
  · cases h

namespace Rational

/-- The fraction of a number stands for the number. -/
theorem toRat_ofRat (p : ℚ) : (ofRat p).toRat = p :=
  Rat.num_div_den p

theorem denom_ofRat_pos (p : ℚ) : 0 < (ofRat p).denom :=
  Int.natCast_pos.mpr p.den_pos

end Rational

namespace Exact

variable {x y : Exact} {r : Except ArithmeticError Exact} {p : ℚ}

/-- If an operation has a result, it is proper and stands for the number `p`. -/
def Finds (r : Except ArithmeticError Exact) (p : ℚ) : Prop :=
  ∀ z, r = .ok z → z.Proper ∧ z.toRat = p

theorem toRat_ofRat (p : ℚ) : (ofRat p).toRat = p := by
  unfold ofRat
  split
  · rename_i h
    exact (Rat.den_eq_one_iff p).mp h
  · exact Rational.toRat_ofRat p

theorem proper_ofRat (p : ℚ) : (ofRat p).Proper := by
  unfold ofRat
  split
  · exact trivial
  · exact Rational.denom_ofRat_pos p

/-- What represents a number stands for it. -/
theorem finds_of_eq (h : r = represented ofRat (some p)) : Finds r p := by
  intro z hz
  obtain ⟨p', hp, -, -, rfl⟩ := represented_eq_ok (h.symm.trans hz)
  cases hp
  exact ⟨proper_ofRat p, toRat_ofRat p⟩

/-- A reduced fraction, or an integer. -/
theorem make_finds {a b : Int} (hp : b ≠ 0 → p = (a : ℚ) / b) : Finds (Rational.make a b) p := by
  by_cases hb : b = 0
  · intro z hz
    rw [Rational.make, Rational.reduce, if_pos hb] at hz
    cases hz
  · exact finds_of_eq (make_eq_of_ne hb (hp hb))

/-- **A sum.** -/
theorem add_finds (hx : x.Proper) (hy : y.Proper) : Finds (x.add y) (x.toRat + y.toRat) :=
  finds_of_eq (add_eq hx hy)

/-- **A difference.** -/
theorem subtract_finds (hx : x.Proper) (hy : y.Proper) :
    Finds (x.subtract y) (x.toRat - y.toRat) :=
  finds_of_eq (subtract_eq hx hy)

/-- **A product.** -/
theorem multiply_finds (hx : x.Proper) (hy : y.Proper) :
    Finds (x.multiply y) (x.toRat * y.toRat) :=
  finds_of_eq (multiply_eq hx hy)

/-- **A quotient.** There is none by zero. -/
theorem divide_finds (hx : x.Proper) (hy : y.Proper) {z : Exact} (h : x.divide y = .ok z) :
    y.toRat ≠ 0 ∧ z.Proper ∧ z.toRat = x.toRat / y.toRat := by
  have heq := divide_eq hx hy
  by_cases h0 : y.toRat = 0
  · rw [h, quotient?, if_pos h0] at heq
    cases heq
  · rw [quotient?, if_neg h0] at heq
    exact ⟨h0, finds_of_eq heq z h⟩

/-- **An opposite.** -/
theorem neg_finds (hx : x.Proper) : Finds x.neg (-x.toRat) := by
  cases x with
  | integer a => exact finds_of_eq (neg_integer_eq a)
  | rational q =>
    intro z hz
    rw [neg_rational_eq hx] at hz
    obtain ⟨p, hp, -, -, rfl⟩ := represented_eq_ok hz
    cases hp
    exact ⟨Rational.denom_ofRat_pos _, Rational.toRat_ofRat _⟩

/-! ## Powers -/

theorem neg_one_pow_eq (n : Nat) : (-1 : Int) ^ n = if n % 2 = 0 then 1 else -1 := by
  rcases Nat.mod_two_eq_zero_or_one n with h | h
  · rw [if_pos h, (Nat.even_iff.mpr h).neg_one_pow]
  · rw [if_neg (by omega), (Nat.odd_iff.mpr h).neg_one_pow]

/-- A base other than 0, 1 and -1 at least doubles with every factor. -/
theorem not_fits_pow {base : Int} {n : Nat} (hb : 1 < base.natAbs) (hn : 63 < n) :
    ¬ Fits (base ^ n) := by
  have hgreat : 2 ^ 64 ≤ (base ^ n).natAbs := by
    rw [Int.natAbs_pow]
    calc 2 ^ 64 ≤ 2 ^ n := Nat.pow_le_pow_right (by decide) hn
      _ ≤ base.natAbs ^ n := Nat.pow_le_pow_left hb n
  unfold Fits leastInteger greatestInteger
  omega

/-- **A power of an integer** is the integer that it is, whatever shortcut was taken. -/
theorem narrowPow_eq (base : Int) (n : Nat) : Rational.narrowPow base n = narrow (base ^ n) := by
  have hpow : ∀ k, Int.pow base k = base ^ k := fun _ => rfl
  unfold Rational.narrowPow
  simp only [hpow]
  split
  · rename_i hb
    have hbase : base = 0 ∨ base = 1 ∨ base = -1 := by omega
    by_cases hn : n = 0
    · rw [if_pos hn, hn]
    · rw [if_neg hn]
      rcases hbase with rfl | rfl | rfl
      · rw [zero_pow hn, zero_pow (by omega)]
      · rw [one_pow, one_pow]
      · rw [neg_one_pow_eq, neg_one_pow_eq]
        rcases Nat.mod_two_eq_zero_or_one n with h2 | h2 <;> simp [h2]
  · rename_i hb
    split
    · rename_i hn
      rw [narrow_eq, if_neg (not_fits_pow (Nat.not_le.mp hb) hn)]
    · rfl

theorem narrowPow_eq_ok {base m : Int} {n : Nat} (h : Rational.narrowPow base n = .ok m) :
    m = base ^ n :=
  narrow_eq_ok (narrowPow_eq base n ▸ h)

/-- A power by an exponent that is not negative. -/
theorem powNat_finds {base : Rational} (n : Nat) :
    Finds (Rational.powNat base n) (base.toRat ^ n) := by
  intro z hz
  unfold Rational.powNat at hz
  split at hz
  · rename_i hbase
    obtain ⟨hd, hnumer, hn⟩ := hbase
    cases hz
    refine ⟨trivial, ?_⟩
    rcases hnumer with h0 | h1
    · simp [toRat, Rational.toRat, h0, zero_pow hn]
    · simp [toRat, Rational.toRat, h1, hd]
  · split at hz
    · rename_i hbase
      obtain ⟨hd, hnumer⟩ := hbase
      cases hz
      refine ⟨trivial, ?_⟩
      have hpow := congrArg (Int.cast : Int → ℚ) (neg_one_pow_eq n)
      rw [toRat, ← hpow, Rational.toRat, hd, hnumer]
      simp
    · split at hz
      · cases hz
      · obtain ⟨a, ha, hz⟩ := bind_eq_ok hz
        obtain ⟨b, hb, hz⟩ := bind_eq_ok hz
        refine make_finds (fun _ => ?_) z hz
        rw [narrowPow_eq_ok ha, narrowPow_eq_ok hb, Rational.toRat, div_pow]
        push_cast
        rfl

/-- **A power.** There is none of zero by a negative exponent. -/
theorem pow_finds (hx : x.Proper) {e : Int} {z : Exact} (h : x.pow e = .ok z) :
    (e < 0 → x.toRat ≠ 0) ∧ z.Proper ∧ z.toRat = x.toRat ^ e := by
  have hfraction : x.pow e = Rational.pow ⟨x.numer, x.denom⟩ e := by
    cases x <;> rfl
  have hrat : (⟨x.numer, x.denom⟩ : Rational).toRat = x.toRat := (toRat_eq_div x).symm
  rw [hfraction, Rational.pow] at h
  by_cases he : e < 0
  · rw [if_pos he] at h
    obtain ⟨inverse, hinverse, h⟩ := bind_eq_ok h
    have hne : x.numer ≠ 0 := by
      intro h0
      rw [Rational.reciprocal, Rational.make, Rational.reduce, if_pos h0] at hinverse
      cases hinverse
    obtain ⟨-, hinv⟩ := make_finds (p := x.toRat⁻¹) (fun _ => by
      rw [toRat_eq_div, inv_div]) inverse hinverse
    obtain ⟨hz, hpow⟩ := powNat_finds e.natAbs z h
    refine ⟨fun _ => ?_, hz, ?_⟩
    · rw [toRat_eq_div]
      exact div_ne_zero (Int.cast_ne_zero.mpr hne) (denom_ne_zero hx)
    · have hneg : e = -(e.natAbs : Int) := by omega
      rw [hpow, Rational.toRat, ← toRat_eq_div, hinv, inv_pow, ← zpow_natCast, ← zpow_neg, ← hneg]
  · rw [if_neg he] at h
    obtain ⟨hz, hpow⟩ := powNat_finds e.natAbs z h
    refine ⟨fun hlt => absurd hlt he, hz, ?_⟩
    have hnonneg : e = (e.natAbs : Int) := by omega
    rw [hpow, hrat, ← zpow_natCast, ← hnonneg]

end Exact

end Precedence
