import Precedence.Json.Fraction
import Precedence.Proofs.Exact.Numbers

/-!
# Exact numbers that can be obtained

`Exact.Obtained` are the exact numbers that can be made at all: integers of 64 bits, fractions that
were reduced or read, and what any sequence of operations makes of them. All of them are reduced
(`Obtained.isReduced`), and operations give integers for whole numbers (`IsCanonical`). A fraction
that is whole can still be an operand, if one takes it as an exact number without collapsing it.

* `exact_arithmetic`: every operation on numbers that can be obtained gives what `represented`
  says: the result in lowest terms, or the reason why there is none.
* `neg_wholeFraction`: the opposite of a fraction that is whole is a fraction again.
-/

namespace Precedence

open Precedence.Number

/-! ## Lowest terms -/

namespace Rational

variable {q : Rational} {a b : Int} {p : ℚ}

/-- The fraction is in lowest terms with a positive denominator, and its parts have 64 bits. -/
structure IsReduced (q : Rational) : Prop where
  numer_fits : Fits q.numer
  denom_pos : 1 ≤ q.denom
  denom_le : q.denom ≤ greatestInteger
  gcd_eq : Int.gcd q.numer q.denom = 1

theorem IsReduced.denom_fits (h : q.IsReduced) : Fits q.denom := by
  have hpos := h.denom_pos
  exact ⟨by simp only [leastInteger]; omega, h.denom_le⟩

theorem IsReduced.denom_ne_zero (h : q.IsReduced) : q.denom ≠ 0 :=
  (Int.lt_iff_add_one_le.mpr h.denom_pos).ne'

theorem IsReduced.numer_ne_zero (h : q.IsReduced) (hdenom : q.denom ≠ 1) : q.numer ≠ 0 := by
  intro hzero
  have hgcd := h.gcd_eq
  have hpos := h.denom_pos
  rw [hzero, Int.gcd_zero_left] at hgcd
  omega

theorem isReduced_ofRat (hn : Fits p.num) (hd : (p.den : Int) ≤ greatestInteger) :
    (ofRat p).IsReduced where
  numer_fits := hn
  denom_pos := denom_ofRat_pos p
  denom_le := hd
  gcd_eq := p.reduced

theorem isReduced_of_represented {p? : Option ℚ} (h : represented ofRat p? = .ok q) :
    q.IsReduced := by
  obtain ⟨p, -, hn, hd, rfl⟩ := represented_eq_ok h
  exact isReduced_ofRat hn hd

/-- To reduce a fraction makes a reduced one. -/
theorem isReduced_of_reduce (h : reduce a b = .ok q) : q.IsReduced := by
  rw [reduce_eq] at h
  exact isReduced_of_represented h

/-- A reduced fraction is that of the number that it stands for. -/
theorem IsReduced.ofRat_toRat (h : q.IsReduced) : ofRat q.toRat = q := by
  have hd : 0 < q.denom := h.denom_pos
  have hnum : q.toRat.num = q.numer := Rat.num_div_eq_of_coprime hd h.gcd_eq
  have hden : (q.toRat.den : Int) = q.denom := Rat.den_div_eq_of_coprime hd h.gcd_eq
  rw [ofRat, hnum, hden]

/-- A reduced fraction is what its own parts make. -/
theorem IsReduced.reduce_eq_ok (h : q.IsReduced) : reduce q.numer q.denom = .ok q := by
  have hq := h.ofRat_toRat
  have hd : (q.denom : ℚ) ≠ 0 := Int.cast_ne_zero.mpr h.denom_ne_zero
  have hnum : q.toRat.num = q.numer := congrArg numer hq
  have hden : (q.toRat.den : Int) = q.denom := congrArg denom hq
  rw [reduce_eq, quotient?, if_neg hd]
  rw [show (q.numer : ℚ) / q.denom = q.toRat from rfl, represented, hq, hnum, hden,
    if_pos ⟨h.numer_fits, h.denom_le⟩]

end Rational

/-! ## Reading -/

namespace Json

open Rational (reduce)

variable {text rest : List Char} {q : Rational}

/-- The reading of a fraction succeeds exactly if each of its steps does. -/
theorem readFraction_eq_ok_iff : readFraction text = .ok (q, rest) ↔
    ∃ first behindTag second numer behindNumer third denom,
      nextElement true text = .ok (some first) ∧ wantString first = .ok (['/'], behindTag) ∧
      nextElement false behindTag = .ok (some second) ∧
      wantInteger second = .ok (numer, behindNumer) ∧
      nextElement false behindNumer = .ok (some third) ∧ wantInteger third = .ok (denom, rest) ∧
      nextElement false rest = .ok none ∧ reduce numer denom = .ok q := by
  constructor
  · intro h
    unfold readFraction at h
    obtain ⟨first?, hfirst, h⟩ := bind_eq_ok h
    obtain _ | first := first?
    · cases h
    obtain ⟨⟨tag, behindTag⟩, htag, h⟩ := bind_eq_ok h
    simp only at h
    split at h
    · cases h
    rename_i htagged
    obtain rfl := Decidable.not_not.mp htagged
    obtain ⟨second?, hsecond, h⟩ := bind_eq_ok h
    obtain _ | second := second?
    · cases h
    obtain ⟨⟨numer, behindNumer⟩, hnumer, h⟩ := bind_eq_ok h
    obtain ⟨third?, hthird, h⟩ := bind_eq_ok h
    obtain _ | third := third?
    · cases h
    obtain ⟨⟨denom, behindDenom⟩, hdenom, h⟩ := bind_eq_ok h
    obtain ⟨fourth?, hfourth, h⟩ := bind_eq_ok h
    obtain _ | fourth := fourth?
    · simp only at h
      split at h
      · rename_i hreduce
        cases h
        exact ⟨first, behindTag, second, numer, behindNumer, third, denom, hfirst, htag, hsecond,
          hnumer, hthird, hdenom, hfourth, hreduce⟩
      · cases h
    · simp only at h
      split at h <;> cases h
  · rintro ⟨first, behindTag, second, numer, behindNumer, third, denom, hfirst, htag, hsecond,
      hnumer, hthird, hdenom, hfourth, hreduce⟩
    unfold readFraction
    simp only [hfirst, htag, hsecond, hnumer, hthird, hdenom, hfourth, hreduce, bind, Except.bind]
    rfl

/-- A fraction is read exactly if its list is, with nothing but blanks around it. -/
theorem readWhole_eq_ok_iff : readWhole text = .ok q ↔ ∃ inner rest behind,
    skipBlanks text = '[' :: inner ∧ readFraction inner = .ok (q, rest) ∧
      skipBlanks rest = ']' :: behind ∧ skipBlanks behind = [] := by
  unfold readWhole
  split
  · rename_i htext
    simp [htext]
  · rename_i inner htext
    rw [htext]
    constructor
    · intro h
      split at h
      · cases h
      rename_i q' rest hfraction
      split at h
      · rename_i behind hrest
        split at h
        · rename_i hbehind
          cases h
          exact ⟨inner, rest, behind, rfl, hfraction, hrest, List.isEmpty_iff.mp hbehind⟩
        · cases h
      · cases h
    · rintro ⟨inner', rest, behind, hinner, hfraction, hrest, hbehind⟩
      cases hinner
      simp only [hfraction, hrest, hbehind, List.isEmpty_nil, if_true]
  · rename_i hlist
    simp only [reduceCtorEq, false_iff, not_exists, not_and]
    exact fun inner _ _ h => (hlist inner h).elim
end Json

/-! ## Exact numbers in lowest terms -/

namespace Exact

variable {x y z : Exact} {p? : Option ℚ}

/-- An integer of 64 bits or a reduced fraction. -/
def IsReduced : Exact → Prop
  | integer n => Fits n
  | rational q => q.IsReduced

/-- An integer of 64 bits or a reduced fraction that is not whole. -/
def IsCanonical : Exact → Prop
  | integer n => Fits n
  | rational q => q.IsReduced ∧ 1 < q.denom

theorem IsCanonical.isReduced (h : x.IsCanonical) : x.IsReduced := by
  cases x with
  | integer n => exact h
  | rational q => exact h.1

theorem IsReduced.proper (h : x.IsReduced) : x.Proper := by
  cases x with
  | integer n => trivial
  | rational q => exact h.denom_pos

/-- **What represents a number is canonical.** -/
theorem isCanonical_of_represented (h : represented ofRat p? = .ok z) : z.IsCanonical := by
  obtain ⟨p, -, hn, hd, rfl⟩ := represented_eq_ok h
  unfold ofRat
  split
  · exact hn
  · rename_i h1
    refine ⟨Rational.isReduced_ofRat hn hd, ?_⟩
    have hpos := p.den_pos
    simp only
    omega

theorem isCanonical_make {a b : Int} (h : Rational.make a b = .ok z) : z.IsCanonical := by
  rw [Rational.make_eq] at h
  exact isCanonical_of_represented h

theorem isCanonical_powNat {base : Rational} {n : Nat} (h : Rational.powNat base n = .ok z) :
    z.IsCanonical := by
  unfold Rational.powNat at h
  split at h
  · rename_i hbase
    cases h
    rcases hbase.2.1 with h0 | h1
    · rw [h0]
      exact (by decide : Fits 0)
    · rw [h1]
      exact (by decide : Fits 1)
  · split at h
    · cases h
      split
      · exact (by decide : Fits 1)
      · exact (by decide : Fits (-1))
    · split at h
      · cases h
      · obtain ⟨a, -, h⟩ := bind_eq_ok h
        obtain ⟨b, -, h⟩ := bind_eq_ok h
        exact isCanonical_make h

/-- **A power is canonical.** -/
theorem isCanonical_pow {e : Int} (h : x.pow e = .ok z) : z.IsCanonical := by
  have hfraction : ∀ q : Rational, q.pow e = .ok z → z.IsCanonical := by
    intro q h
    unfold Rational.pow at h
    split at h
    · obtain ⟨inverse, -, h⟩ := bind_eq_ok h
      exact isCanonical_powNat h
    · exact isCanonical_powNat h
  cases x with
  | integer a => exact hfraction _ h
  | rational q => exact hfraction _ h

/-- A fraction that is taken as an exact number though it is whole. -/
def IsWholeFraction : Exact → Prop
  | integer _ => False
  | rational q => q.denom = 1

theorem IsReduced.isCanonical (h : x.IsReduced) (hx : ¬ x.IsWholeFraction) : x.IsCanonical := by
  cases x with
  | integer n => exact h
  | rational q =>
    have hpos := h.denom_pos
    have hne : q.denom ≠ 1 := hx
    exact ⟨h, by omega⟩

theorem isReduced_collapse {q : Rational} (hq : q.IsReduced) : q.collapse.IsReduced := by
  unfold Rational.collapse
  split
  · exact hq.numer_fits
  · exact hq

/-- The opposite of a fraction is a fraction, whole or not. -/
theorem isReduced_neg (hx : x.IsReduced) (h : x.neg = .ok z) : z.IsReduced := by
  cases x with
  | integer a =>
    rw [neg_integer_eq] at h
    exact (isCanonical_of_represented h).isReduced
  | rational q =>
    rw [neg_rational_eq hx.denom_pos] at h
    obtain ⟨p, -, hn, hd, rfl⟩ := represented_eq_ok h
    exact Rational.isReduced_ofRat hn hd

/-- The opposite of a canonical number represents the opposite number. -/
theorem neg_eq (hx : x.IsCanonical) : x.neg = represented ofRat (some (-x.toRat)) := by
  cases x with
  | integer a => exact neg_integer_eq a
  | rational q =>
    have hden : (-q.toRat).den ≠ 1 := by
      have hd : (q.toRat.den : Int) = q.denom := congrArg Rational.denom hx.1.ofRat_toRat
      have hone := hx.2
      rw [Rat.neg_den]
      omega
    have hform : (rational ∘ Rational.ofRat) (-q.toRat) = ofRat (-q.toRat) := by
      rw [ofRat, if_neg hden]
      rfl
    rw [neg_rational_eq hx.1.denom_pos, represented, toRat, hform]
    rfl

/-- The opposite of a whole fraction is one again. -/
theorem neg_eq_of_isWholeFraction (hx : x.IsWholeFraction) :
    x.neg = represented (rational ∘ Rational.ofRat) (some (-x.toRat)) := by
  cases x with
  | integer n => exact hx.elim
  | rational q =>
    have hone : q.denom = 1 := hx
    exact neg_rational_eq (by omega)

/-! ## Obtained numbers -/

/-- The exact numbers that can be made: integers of 64 bits, fractions that were reduced or read,
and whatever operations make of these. -/
inductive Obtained : Exact → Prop
  | integer {n : Int} (hn : Fits n) : Obtained (integer n)
  | reduce {n d : Int} {q : Rational} (hn : Fits n) (hd : Fits d)
      (h : Rational.reduce n d = .ok q) : Obtained (rational q)
  | make {n d : Int} {z : Exact} (hn : Fits n) (hd : Fits d) (h : Rational.make n d = .ok z) :
      Obtained z
  | read {text : String} {q : Rational} (h : Rational.ofJson text = .ok q) : Obtained (rational q)
  | collapse {q : Rational} (hq : Obtained (rational q)) : Obtained q.collapse
  | reciprocal {q : Rational} {z : Exact} (hq : Obtained (rational q))
      (h : q.reciprocal = .ok z) : Obtained z
  | opposite {q r : Rational} (hq : Obtained (rational q)) (h : q.neg = .ok r) :
      Obtained (rational r)
  | add {x y z : Exact} (hx : Obtained x) (hy : Obtained y) (h : x.add y = .ok z) : Obtained z
  | subtract {x y z : Exact} (hx : Obtained x) (hy : Obtained y) (h : x.subtract y = .ok z) :
      Obtained z
  | multiply {x y z : Exact} (hx : Obtained x) (hy : Obtained y) (h : x.multiply y = .ok z) :
      Obtained z
  | divide {x y z : Exact} (hx : Obtained x) (hy : Obtained y) (h : x.divide y = .ok z) :
      Obtained z
  | pow {x z : Exact} {e : Int} (hx : Obtained x) (he : Fits e) (h : x.pow e = .ok z) : Obtained z
  | neg {x z : Exact} (hx : Obtained x) (h : x.neg = .ok z) : Obtained z

/-- **Whatever can be obtained is reduced.** -/
theorem Obtained.isReduced (h : x.Obtained) : x.IsReduced := by
  induction h with
  | integer hn => exact hn
  | reduce _ _ h => exact Rational.isReduced_of_reduce h
  | make _ _ h => exact (isCanonical_make h).isReduced
  | read h =>
    obtain ⟨inner, rest, behind, -, hfraction, -⟩ := Json.readWhole_eq_ok_iff.mp h
    obtain ⟨_, _, _, numer, _, _, denom, -, -, -, -, -, -, -, hreduce⟩ :=
      Json.readFraction_eq_ok_iff.mp hfraction
    exact Rational.isReduced_of_reduce hreduce
  | collapse _ hq => exact isReduced_collapse hq
  | reciprocal _ h _ => exact (isCanonical_make h).isReduced
  | opposite _ h _ => exact Rational.isReduced_of_reduce h
  | add _ _ h hx hy => exact (isCanonical_of_represented (add_eq hx.proper hy.proper ▸ h)).isReduced
  | subtract _ _ h hx hy =>
    exact (isCanonical_of_represented (subtract_eq hx.proper hy.proper ▸ h)).isReduced
  | multiply _ _ h hx hy =>
    exact (isCanonical_of_represented (multiply_eq hx.proper hy.proper ▸ h)).isReduced
  | divide _ _ h hx hy =>
    exact (isCanonical_of_represented (divide_eq hx.proper hy.proper ▸ h)).isReduced
  | pow _ _ h _ => exact (isCanonical_pow h).isReduced
  | neg _ h hx => exact isReduced_neg hx h

/-- Every reduced number can be obtained: a fraction from its own parts. -/
theorem obtained_iff_isReduced : x.Obtained ↔ x.IsReduced := by
  refine ⟨Obtained.isReduced, fun h => ?_⟩
  cases x with
  | integer n => exact .integer h
  | rational q => exact .reduce h.numer_fits h.denom_fits h.reduce_eq_ok

theorem Obtained.proper (h : x.Obtained) : x.Proper :=
  h.isReduced.proper

/-! ## Shortcuts for integers -/

theorem toRat_whole (n : Int) : (Rational.whole n).toRat = (integer n).toRat :=
  (toRat_eq_div (integer n)).symm

theorem proper_whole (n : Int) : (rational (Rational.whole n)).Proper :=
  Int.one_pos

/-- **The shortcuts agree with the way through fractions.** -/
theorem shortcuts_eq (a b : Int) :
    (integer a).add (integer b) = (Rational.whole a).add (integer b) ∧
      (integer a).subtract (integer b) = (Rational.whole a).subtract (integer b) ∧
      (integer a).multiply (integer b) = (Rational.whole a).multiply (integer b) ∧
      (integer a).neg = (Rational.whole a).neg.map Rational.collapse := by
  have ha : (integer a).Proper := trivial
  have hb : (integer b).Proper := trivial
  have hwhole := proper_whole a
  have hrat : (rational (Rational.whole a)).toRat = (integer a).toRat := toRat_whole a
  refine ⟨?_, ?_, ?_, ?_⟩
  · exact (add_eq ha hb).trans (hrat ▸ add_eq hwhole hb).symm
  · exact (subtract_eq ha hb).trans (hrat ▸ subtract_eq hwhole hb).symm
  · exact (multiply_eq ha hb).trans (hrat ▸ multiply_eq hwhole hb).symm
  · rw [neg_integer_eq, Rational.neg_eq hwhole, represented_map, toRat_whole]
    exact congrArg (represented · _) (funext Rational.collapse_ofRat).symm

/-! ## All operations -/

/-- **Exact arithmetic is exact or says why not.** On numbers that can be obtained, every operation
represents its mathematical result: it is that result in lowest terms, an integer if that is whole,
unless it divides by zero or a part of the result has more than 64 bits. The opposite of a fraction
remains a fraction. The shortcuts for integers give the same, and all fractions are in lowest terms
with a positive denominator. -/
theorem exact_arithmetic (n d : Int) {q : Rational} (hq : (rational q).Obtained) {x y : Exact}
    (hx : x.Obtained) (hy : y.Obtained) :
    (Rational.reduce n d = represented Rational.ofRat (quotient? n d) ∧
      Rational.make n d = represented ofRat (quotient? n d)) ∧
    (1 ≤ q.denom ∧ Int.gcd q.numer q.denom = 1 ∧
      q.reciprocal = represented ofRat (quotient? 1 q.toRat) ∧
      q.neg = represented Rational.ofRat (some (-q.toRat)) ∧
      q.add x = represented ofRat (some (q.toRat + x.toRat)) ∧
      q.subtract x = represented ofRat (some (q.toRat - x.toRat)) ∧
      q.multiply x = represented ofRat (some (q.toRat * x.toRat)) ∧
      q.divide x = represented ofRat (quotient? q.toRat x.toRat)) ∧
    (x.add y = represented ofRat (some (x.toRat + y.toRat)) ∧
      x.subtract y = represented ofRat (some (x.toRat - y.toRat)) ∧
      x.multiply y = represented ofRat (some (x.toRat * y.toRat)) ∧
      x.divide y = represented ofRat (quotient? x.toRat y.toRat)) ∧
    ((¬ x.IsWholeFraction → x.neg = represented ofRat (some (-x.toRat))) ∧
      (x.IsWholeFraction → x.neg = represented (rational ∘ Rational.ofRat) (some (-x.toRat)))) ∧
    ((integer n).add (integer d) = (Rational.whole n).add (integer d) ∧
      (integer n).subtract (integer d) = (Rational.whole n).subtract (integer d) ∧
      (integer n).multiply (integer d) = (Rational.whole n).multiply (integer d) ∧
      (integer n).neg = (Rational.whole n).neg.map Rational.collapse) := by
  have hqp : 0 < q.denom := hq.proper
  have hxp := hx.proper
  have hyp := hy.proper
  refine ⟨⟨?_, ?_⟩, ⟨hqp, hq.isReduced.gcd_eq, reciprocal_eq hqp, Rational.neg_eq hqp, ?_⟩,
    ⟨add_eq hxp hyp, subtract_eq hxp hyp, multiply_eq hxp hyp, divide_eq hxp hyp⟩,
    ⟨fun h => neg_eq (hx.isReduced.isCanonical h), neg_eq_of_isWholeFraction⟩, shortcuts_eq n d⟩
  · exact Rational.reduce_eq n d
  · exact Rational.make_eq n d
  · -- The operations on fractions are those on exact numbers whose first operand is a fraction.
    have hqp' : (rational q).Proper := hqp
    exact ⟨add_eq hqp' hxp, subtract_eq hqp' hxp, multiply_eq hqp' hxp, divide_eq hqp' hxp⟩

/-- The least integer has no opposite, and the greatest one can be cancelled. -/
theorem exact_arithmetic_extremes :
    (Rational.whole leastInteger).neg = .error .overflow ∧
      (rational ⟨9223372036854775807, 2⟩).multiply (rational ⟨2, 9223372036854775807⟩) =
        .ok (integer 1) := by
  have hq : (rational (Rational.whole leastInteger)).Obtained :=
    obtained_iff_isReduced.mpr ⟨by decide, by decide, by decide, by decide⟩
  have hx : (rational ⟨9223372036854775807, 2⟩).Obtained :=
    obtained_iff_isReduced.mpr ⟨by decide, by decide, by decide, by decide⟩
  have hy : (rational ⟨2, 9223372036854775807⟩).Obtained :=
    obtained_iff_isReduced.mpr ⟨by decide, by decide, by decide, by decide⟩
  obtain ⟨-, ⟨-, -, -, hneg, -⟩, ⟨-, -, hmultiply, -⟩, -⟩ := exact_arithmetic 0 0 hq hx hy
  constructor
  · have hvalue : -(Rational.whole leastInteger).toRat = (9223372036854775808 : Int) := by
      norm_num [Rational.toRat, Rational.whole, leastInteger]
    rw [hneg, hvalue, represented, Rat.num_intCast, if_neg (by decide)]
  · have hvalue : (rational ⟨9223372036854775807, 2⟩).toRat *
        (rational ⟨2, 9223372036854775807⟩).toRat = (1 : Int) := by
      norm_num [toRat, Rational.toRat]
    rw [hmultiply, hvalue, ← narrow_map_eq rfl]
    decide

/-- Two as a fraction has minus two as a fraction for its opposite, not as an integer. -/
theorem neg_wholeFraction :
    (rational ⟨2, 1⟩).Obtained ∧ (rational ⟨2, 1⟩).neg = .ok (rational ⟨-2, 1⟩) ∧
      represented ofRat (some (-(rational ⟨2, 1⟩).toRat)) = .ok (integer (-2)) := by
  refine ⟨.reduce (n := 2) (d := 1) (by decide) (by decide) (by decide), by decide, ?_⟩
  have hvalue : -(rational ⟨2, 1⟩).toRat = (-2 : Int) := by norm_num [toRat, Rational.toRat]
  rw [hvalue, ← narrow_map_eq rfl]
  decide

end Exact

end Precedence
