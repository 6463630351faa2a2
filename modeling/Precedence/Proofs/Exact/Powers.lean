import Precedence.Proofs.Exact.Obtained

/-!
# Powers are right

A power of a reduced number represents its mathematical result like any other operation, although
it goes several ways to it: bases 0, 1 and -1 take any exponent, a negative exponent takes the
reciprocal first, and an exponent that no base but those could stand is refused at once.

* `powNat_eq`: numerator and denominator stay prime to each other, so that the power fits if both of
  their powers do.
* `represented_pow_eq`: a reciprocal that does not fit has no power that does.
* `pow_eq`, `pow_exact`: every power is exact or says why not.
-/

namespace Precedence

open Precedence.Number

/-- A power of a number. There is none of zero by a negative exponent; any number by the exponent
zero is one. -/
def power? (x : ℚ) (e : Int) : Option ℚ :=
  if x = 0 ∧ e < 0 then none else some (x ^ e)

/-- The numerator and the denominator of a number have 64 bits. -/
def FitsParts (p : ℚ) : Prop :=
  Fits p.num ∧ (p.den : Int) ≤ greatestInteger

theorem represented_of_fitsParts {α : Type} {form : ℚ → α} {p : ℚ} (h : FitsParts p) :
    represented form (some p) = .ok (form p) :=
  if_pos h

theorem represented_of_not_fitsParts {α : Type} {form : ℚ → α} {p : ℚ} (h : ¬ FitsParts p) :
    represented form (some p) = .error .overflow :=
  if_neg h

theorem fitsParts_intCast_iff {m : Int} : FitsParts (m : ℚ) ↔ Fits m := by
  have hone : (1 : Int) ≤ greatestInteger := by decide
  rw [FitsParts, Rat.num_intCast, Rat.den_intCast, Nat.cast_one]
  exact and_iff_left hone

theorem Exact.ofRat_intCast (m : Int) : Exact.ofRat (m : ℚ) = .integer m := by
  rw [ofRat, if_pos (Rat.den_intCast m), Rat.num_intCast]

/-- An integer of 64 bits represents itself. -/
theorem represented_intCast {m : Int} (hm : Fits m) :
    represented Exact.ofRat (some (m : ℚ)) = .ok (.integer m) := by
  rw [represented_of_fitsParts (fitsParts_intCast_iff.mpr hm), Exact.ofRat_intCast]

/-- An integer that does not fit has no power that does. -/
theorem fits_of_fits_pow {m : Int} {n : Nat} (hn : n ≠ 0) (h : Fits (m ^ n)) : Fits m := by
  unfold Fits leastInteger greatestInteger at h ⊢
  rcases Int.le_total 0 m with hm | hm
  · have hle : m ≤ m ^ n := by
      rcases Int.lt_or_le m 1 with h1 | h1
      · rw [show m = 0 by omega, zero_pow hn]
      · exact le_self_pow₀ h1 hn
    omega
  · have hle : m.natAbs ≤ (m ^ n).natAbs := by
      rw [Int.natAbs_pow]
      exact Nat.le_self_pow hn _
    omega

theorem fitsParts_of_pow {p : ℚ} {n : Nat} (hn : n ≠ 0) (h : FitsParts (p ^ n)) : FitsParts p := by
  obtain ⟨hnum, hden⟩ := h
  rw [Rat.num_pow] at hnum
  rw [Rat.den_pow] at hden
  have hle : (p.den : Int) ≤ ((p.den ^ n : Nat) : Int) := Int.ofNat_le.mpr (Nat.le_self_pow hn _)
  exact ⟨fits_of_fits_pow hn hnum, hle.trans hden⟩

namespace Rational

variable {q : Rational} {n : Nat}

/-- The narrowed parts of a number make the number again. -/
theorem narrow_make (p : ℚ) :
    (do
      let a ← narrow p.num
      let b ← narrow p.den
      make a b) = represented Exact.ofRat (some p) := by
  refine narrow_bind fun hnum hden => ?_
  rw [Exact.make_eq_of_ne (Int.natCast_ne_zero.mpr p.den_nz) (Rat.num_div_den p).symm,
    represented_of_fitsParts ⟨hnum, (fits_natCast_iff _).mp hden⟩]

namespace IsReduced

theorem num_toRat (hq : q.IsReduced) : q.toRat.num = q.numer :=
  congrArg numer hq.ofRat_toRat

theorem den_toRat (hq : q.IsReduced) : (q.toRat.den : Int) = q.denom :=
  congrArg denom hq.ofRat_toRat

theorem num_pow (hq : q.IsReduced) (n : Nat) : (q.toRat ^ n).num = q.numer ^ n := by
  rw [Rat.num_pow, hq.num_toRat]

theorem den_pow (hq : q.IsReduced) (n : Nat) : ((q.toRat ^ n).den : Int) = q.denom ^ n := by
  rw [Rat.den_pow, Nat.cast_pow, hq.den_toRat]

/-- A number other than 0, 1 and -1 has no power by a great exponent. -/
theorem not_fitsParts_pow (hq : q.IsReduced) (hn : 63 < n)
    (hne : q.denom ≠ 1 ∨ 1 < q.numer.natAbs) : ¬ FitsParts (q.toRat ^ n) := by
  rintro ⟨hnum, hden⟩
  rw [hq.num_pow] at hnum
  rcases hne with h | h
  · have hpos := hq.denom_pos
    have hfits : Fits (q.denom ^ n) := by
      rw [← hq.den_pow]
      exact (fits_natCast_iff _).mpr hden
    exact Exact.not_fits_pow (by omega) hn hfits
  · exact Exact.not_fits_pow h hn hnum

/-- **A power by an exponent that is not negative.** -/
theorem powNat_eq (hq : q.IsReduced) (n : Nat) :
    powNat q n = represented Exact.ofRat (some (q.toRat ^ n)) := by
  have hwhole : q.denom = 1 → q.toRat ^ n = ((q.numer ^ n : Int) : ℚ) := by
    intro h
    rw [toRat, h, Int.cast_one, div_one, Int.cast_pow]
  unfold powNat
  split
  · -- Zero and one are their own powers.
    rename_i h
    obtain ⟨hden, hnumer, hn⟩ := h
    have hpow : q.numer ^ n = q.numer := by
      rcases hnumer with h0 | h1
      · rw [h0, zero_pow hn]
      · rw [h1, one_pow]
    rw [hwhole hden, hpow, represented_intCast hq.numer_fits]
  rename_i hunit
  split
  · -- Minus one has the powers one and minus one.
    rename_i h
    obtain ⟨hden, hnumer⟩ := h
    have hfits : Fits (if n % 2 = 0 then 1 else -1) := by
      split <;> decide
    rw [hwhole hden, hnumer, Exact.neg_one_pow_eq, represented_intCast hfits]
  rename_i hsign
  split
  · -- The exponent is great, and none of the three bases is left.
    rename_i hgreat
    have hn : 63 < n := lt_trans (by decide) hgreat
    have hne : q.denom ≠ 1 ∨ 1 < q.numer.natAbs := by
      by_contra hcontra
      push Not at hcontra
      obtain ⟨hden, hnumer⟩ := hcontra
      have hbase : q.numer = 0 ∨ q.numer = 1 ∨ q.numer = -1 := by omega
      rcases hbase with h | h | h
      · exact hunit ⟨hden, .inl h, by omega⟩
      · exact hunit ⟨hden, .inr h, by omega⟩
      · exact hsign ⟨hden, h⟩
    rw [represented_of_not_fitsParts (hq.not_fitsParts_pow hn hne)]
  · rw [Exact.narrowPow_eq, Exact.narrowPow_eq, ← hq.num_pow, ← hq.den_pow]
    exact narrow_make _

end IsReduced

end Rational

namespace Exact

variable {x : Exact} {p : ℚ} {n : Nat}

theorem isReduced_parts (hx : x.IsReduced) : (⟨x.numer, x.denom⟩ : Rational).IsReduced := by
  cases x with
  | integer a =>
    have hone : (1 : Int) ≤ greatestInteger := by decide
    exact ⟨hx, Int.le_refl 1, hone, Int.gcd_one⟩
  | rational q => exact hx

/-- **A number that does not fit has no power that does.** So it does not matter that a reciprocal
has to fit before its power is taken. -/
theorem represented_pow_eq (hn : n ≠ 0) :
    (represented ofRat (some p) >>= fun z => Rational.powNat ⟨z.numer, z.denom⟩ n) =
      represented ofRat (some (p ^ n)) := by
  by_cases hp : FitsParts p
  · have hcanonical : (ofRat p).IsReduced :=
      (isCanonical_of_represented (represented_of_fitsParts hp)).isReduced
    have hrat : (⟨(ofRat p).numer, (ofRat p).denom⟩ : Rational).toRat = p :=
      (toRat_eq_div _).symm.trans (toRat_ofRat p)
    rw [represented_of_fitsParts hp]
    exact ((isReduced_parts hcanonical).powNat_eq n).trans (by rw [hrat])
  · rw [represented_of_not_fitsParts hp,
      represented_of_not_fitsParts fun h => hp (fitsParts_of_pow hn h)]
    rfl

/-- **A power represents its result.** -/
theorem pow_eq (hx : x.IsReduced) (e : Int) : x.pow e = represented ofRat (power? x.toRat e) := by
  have hfraction : x.pow e = Rational.pow ⟨x.numer, x.denom⟩ e := by
    cases x <;> rfl
  have hparts := isReduced_parts hx
  have hrat : (⟨x.numer, x.denom⟩ : Rational).toRat = x.toRat := (toRat_eq_div x).symm
  rw [hfraction, Rational.pow, power?]
  by_cases he : e < 0
  · obtain ⟨n, rfl⟩ : ∃ n : Nat, e = -(n : Int) := ⟨e.natAbs, by omega⟩
    rw [if_pos he, reciprocal_eq hparts.denom_pos, hrat, quotient?]
    by_cases h0 : x.toRat = 0
    · rw [if_pos h0, if_pos ⟨h0, he⟩]
      rfl
    · have hzpow : x.toRat ^ (-(n : Int)) = (1 / x.toRat) ^ n := by
        rw [zpow_neg, zpow_natCast, one_div, inv_pow]
      rw [if_neg h0, if_neg fun h => h0 h.1, hzpow, Int.natAbs_neg, Int.natAbs_natCast]
      exact represented_pow_eq (by omega)
  · obtain ⟨n, rfl⟩ : ∃ n : Nat, e = n := ⟨e.natAbs, by omega⟩
    rw [if_neg he, if_neg fun h => he h.2, hparts.powNat_eq, hrat, zpow_natCast,
      Int.natAbs_natCast]

/-- **Powers are exact or say why not.** A power of a reduced number divides by zero if the number is
zero and the exponent negative. Any other power is the exact one, in lowest terms and an integer if
that is whole, provided that numerator and denominator have 64 bits; and it overflows if and only if
they have not. -/
theorem pow_exact (hx : x.IsReduced) (e : Int) :
    (x.pow e = .error .divisionByZero ↔ x.toRat = 0 ∧ e < 0) ∧
      (¬ (x.toRat = 0 ∧ e < 0) →
        (FitsParts (x.toRat ^ e) → x.pow e = .ok (ofRat (x.toRat ^ e))) ∧
        (x.pow e = .error .overflow ↔ ¬ FitsParts (x.toRat ^ e))) := by
  rw [pow_eq hx, power?]
  by_cases hzero : x.toRat = 0 ∧ e < 0
  · rw [if_pos hzero]
    exact ⟨⟨fun _ => hzero, fun _ => rfl⟩, fun h => absurd hzero h⟩
  · rw [if_neg hzero]
    by_cases hfits : FitsParts (x.toRat ^ e)
    · rw [represented_of_fitsParts hfits]
      refine ⟨⟨fun h => ?_, fun h => absurd h hzero⟩, fun _ => ⟨fun _ => rfl, fun h => ?_,
        fun h => absurd hfits h⟩⟩
      · cases h
      · cases h
    · rw [represented_of_not_fitsParts hfits]
      refine ⟨⟨fun h => ?_, fun h => absurd h hzero⟩, fun _ => ⟨fun h => absurd h hfits,
        fun _ => hfits, fun _ => rfl⟩⟩
      cases h

/-- The least integer is a power; it has no reciprocal, and zero has none either. -/
theorem pow_exact_extremes :
    (integer (-2)).pow 63 = .ok (integer leastInteger) ∧
      (integer leastInteger).pow (-1) = .error .overflow ∧
      (integer 0).pow (-1) = .error .divisionByZero := by
  obtain ⟨-, hpower⟩ := pow_exact (x := integer (-2)) (by decide : Fits (-2)) 63
  obtain ⟨-, hinverse⟩ := pow_exact (x := integer leastInteger) (by decide : Fits leastInteger) (-1)
  obtain ⟨hzero, -⟩ := pow_exact (x := integer 0) (by decide : Fits 0) (-1)
  refine ⟨?_, (hinverse fun h => ?_).2.mpr fun h => ?_, hzero.mpr ⟨Int.cast_zero, by decide⟩⟩
  · have hvalue : (integer (-2)).toRat ^ (63 : Int) = (leastInteger : ℚ) := by
      norm_num [toRat, leastInteger]
    rw [hvalue, fitsParts_intCast_iff, ofRat_intCast] at hpower
    exact (hpower fun h => absurd h.2 (by decide)).1 (by decide)
  · exact absurd (Int.cast_eq_zero.mp h.1) (by decide)
  · -- The denominator of the reciprocal is greater than any integer.
    have hden : ((integer leastInteger).toRat ^ (-1 : Int)).den = 9223372036854775808 := by
      rw [zpow_neg_one, toRat, Rat.inv_intCast_den]
      decide
    have hle := h.2
    rw [hden] at hle
    exact absurd hle (by decide)

end Exact

end Precedence
