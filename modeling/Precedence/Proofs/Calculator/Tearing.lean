import Precedence.Proofs.Calculator.Fractions

/-!
# Fractions that are torn apart

A fraction as a divisor, and a fraction without a sign as the base of a power, is written without
parentheses. Its numerator alone is what a division in front of it divides by, and its denominator
alone is what a power behind it raises. So the text stands for another number.

* `isTorn_divide_rational`, `isTorn_divide_power`: what is divided by a fraction, or by a power of
  one, is divided by the denominator as well.
* `isTorn_power`: of a fraction the denominator alone is raised to a power.
* `rendering_tears_fraction`: the square of a fraction.
-/

namespace Precedence

open Precedence.Number Calculator

namespace Calculator

open Value

variable {v : Value} {ρ : String → ℚ} {a c : ℚ} {q : Rational} {name : String}

/-- A phrase and divisors are read as the quotient of their numbers. -/
theorem exists_isReadAs_dividedBy {t : Phrase .product} {bs : List (Phrase .signed)}
    (h : (t.dividedBy bs).Conveys v v.render) (ht : t.Means ρ a) (hbs : Phrase.DivideBy ρ bs c) :
    ∃ w, IsReadAs v.text w ∧ w.number? ρ = some (a / c) := by
  obtain ⟨w, hw, hnumber⟩ := hbs t a ht
  have hterm : (Phrase.term (t.dividedBy bs)).Conveys v v.render :=
    ⟨h.writes, h.isSome_value, h.isBare, h.means⟩
  exact ⟨w, hterm.isReadAs hw, hnumber⟩

theorem means_name (name : String) : (Phrase.name name).Means ρ (ρ name) :=
  ⟨var name, rfl, number?_var name⟩

/-- A name divided by what is divided itself. -/
theorem exists_isReadAs_quotient {u : Phrase .signed} {bs : List (Phrase .signed)} {b : Value}
    (hname : IsName name) (hb : u.ConveysQuotient bs b b.render)
    (hparens : b.needsParens Operation.divide.operator false = false) (hu : u.Means ρ a)
    (hne : a ≠ 0) (hbs : Phrase.DivideBy ρ bs c) :
    ∃ w, IsReadAs (node Operation.divide.operator [var name, b]).text w ∧
      w.number? ρ = some (ρ name / a / c) := by
  let t : Phrase .product := .factor (.plain (.name name))
  have ht : t.Conveys (var name) (var name).render :=
    (conveys_name hname).plain.conveysQuotient.conveys
  have hconveys := hb.divided ht
  have hrender : (node Operation.divide.operator [var name, b]).render =
      (var name).render ++ (' ' :: Operation.divide.sign.toList ++ [' ']) ++ b.render := by
    rw [render_pair, hparens]
    rfl
  rw [show Term.combine Operation.divide.operator (var name) b =
    node Operation.divide.operator [var name, b] from rfl, ← hrender] at hconveys
  exact exists_isReadAs_dividedBy hconveys
    (Phrase.means_applied .divide (a := t) (means_name name) hu (if_neg hne)) hbs

/-- The text of the value is read as a value that has another number. -/
def IsTorn (v : Value) : Prop :=
  ∃ w, IsReadAs v.text w ∧ ∃ ρ x y, v.number? ρ = some x ∧ w.number? ρ = some y ∧ x ≠ y

/-- A name divided by what is written as a fraction is torn apart. -/
theorem isTorn_divide {u : Phrase .signed} {bs : List (Phrase .signed)} {b : Value}
    (hq : q.IsReduced) (hdenom : q.denom ≠ 1) (hname : IsName name)
    (hb : u.ConveysQuotient bs b b.render)
    (hparens : b.needsParens Operation.divide.operator false = false)
    (hnumber : b.number? (fun _ => 1) = some q.toRat)
    (hu : u.Means (fun _ => 1) q.numer) (hbs : Phrase.DivideBy (fun _ => 1) bs q.denom) :
    IsTorn (node Operation.divide.operator [var name, b]) := by
  have hpos := hq.denom_pos
  have hn : (q.numer : ℚ) ≠ 0 := Int.cast_ne_zero.mpr (hq.numer_ne_zero hdenom)
  have hd : (q.denom : ℚ) ≠ 0 := Int.cast_ne_zero.mpr hq.denom_ne_zero
  have hrat : q.toRat ≠ 0 := div_ne_zero hn hd
  obtain ⟨w, hread, hw⟩ := exists_isReadAs_quotient hname hb hparens hu hn hbs
  refine ⟨w, hread, fun _ => 1, 1 / q.toRat, 1 / q.numer / q.denom, ?_, hw, fun heq => ?_⟩
  · exact (number?_combine .divide (number?_var name) hnumber).trans (if_neg hrat)
  · have hsquare : (q.denom : ℚ) ^ 2 = 1 := by
      rw [Rational.toRat] at heq
      field_simp at heq
      exact heq
    rw [sq] at hsquare
    have hproduct : q.denom * q.denom = 1 := by exact_mod_cast hsquare
    exact hdenom (Int.eq_one_of_mul_eq_one_right (by omega) hproduct)

/-- **A fraction as a divisor is torn apart.** -/
theorem isTorn_divide_rational (hq : q.IsReduced) (hdenom : q.denom ≠ 1) (hname : IsName name) :
    IsTorn (node Operation.divide.operator [var name, rational q]) := by
  have hdenominator : (Phrase.ofInt q.denom).Means (fun _ => 1) q.denom :=
    Phrase.means_ofInt hq.denom_fits
  have hne : (q.denom : ℚ) ≠ 0 := Int.cast_ne_zero.mpr hq.denom_ne_zero
  have hbs := Phrase.DivideBy.cons hdenominator hne Phrase.divideBy_nil
  rw [mul_one] at hbs
  exact isTorn_divide hq hdenom hname (conveysQuotient_rational hq) rfl
    (number?_rational hq.denom_ne_zero) (Phrase.means_ofInt hq.numer_fits) hbs

/-- A power of a fraction is its numerator, divided by a power of its denominator. -/
theorem conveysQuotient_power (hq : q.IsReduced) (hnumer : 0 ≤ q.numer) (hname : IsName name) :
    (Phrase.ofInt q.numer).ConveysQuotient
      [.raised (.number q.denom.natAbs.repr) (.plain (.name name))]
      (node Operation.power.operator [rational q, var name])
      (node Operation.power.operator [rational q, var name]).render := by
  have hexponent := (conveys_name hname).plain.isExponent
  have hparens : (rational q).needsParens Operation.power.operator true = false := by
    simp [needsParens, prefixPower?, Int.not_lt.mpr hnumer]
  rw [render_pair, hparens]
  exact hexponent.raised_fraction hq hnumer

/-- The divisor of such a power, with a number for the exponent. -/
theorem divideBy_power (hq : q.IsReduced) (name : String) (k : Nat) :
    Phrase.DivideBy (fun _ => k) [.raised (.number q.denom.natAbs.repr) (.plain (.name name))]
      ((q.denom : ℚ) ^ k) := by
  have hpos : ¬ q.denom < 0 := Int.not_lt.mpr (Int.le_trans Int.one_nonneg hq.denom_pos)
  have hne : (q.denom : ℚ) ≠ 0 := Int.cast_ne_zero.mpr hq.denom_ne_zero
  have hnumber : (Phrase.ofInt q.denom).Means (fun _ => k) q.denom :=
    Phrase.means_ofInt hq.denom_fits
  rw [Phrase.ofInt, if_neg hpos] at hnumber
  have hpower : Operation.power.onRationals? q.denom (k : ℚ) = some ((q.denom : ℚ) ^ k) := by
    simp [Operation.onRationals?, Operator.powerOf?]
  have hraised := Phrase.means_applied .power (a := .number _) (b := .plain (.name name))
    hnumber (means_name name) hpower
  have hdivide := Phrase.DivideBy.cons hraised (pow_ne_zero k hne) Phrase.divideBy_nil
  rwa [mul_one] at hdivide

theorem number?_power (hq : q.IsReduced) (name : String) (k : Nat) :
    (node Operation.power.operator [rational q, var name]).number? (fun _ => k) =
      some (q.toRat ^ k) := by
  refine (number?_combine .power (number?_rational hq.denom_ne_zero) (number?_var name)).trans ?_
  simp [Operation.onRationals?, Operator.powerOf?]

/-- **A power of a fraction without a sign is torn apart as a divisor**, also if it is none as it
stands alone. -/
theorem isTorn_divide_power {exponent : String} (hq : q.IsReduced) (hdenom : q.denom ≠ 1)
    (hnumer : 0 ≤ q.numer) (hname : IsName name) (hexponent : IsName exponent) :
    IsTorn (node Operation.divide.operator
      [var name, node Operation.power.operator [rational q, var exponent]]) := by
  have hbs := divideBy_power hq exponent 1
  rw [Nat.cast_one, pow_one] at hbs
  have hnumber := number?_power hq exponent 1
  rw [Nat.cast_one, pow_one] at hnumber
  exact isTorn_divide hq hdenom hname (conveysQuotient_power hq hnumer hexponent) rfl hnumber
    (Phrase.means_ofInt hq.numer_fits) hbs

/-- **A fraction without a sign is torn apart as a base**, unless its numerator is one. -/
theorem isTorn_power (hq : q.IsReduced) (hnumer : 0 ≤ q.numer) (hone : q.numer ≠ 1)
    (hname : IsName name) : IsTorn (node Operation.power.operator [rational q, var name]) := by
  let k : Nat := if q.numer = 0 then 0 else 2
  have hbs := divideBy_power hq name k
  have hconveys := (conveysQuotient_power hq hnumer hname).conveys
  obtain ⟨w, hread, hw⟩ := exists_isReadAs_dividedBy hconveys (Phrase.means_ofInt hq.numer_fits) hbs
  refine ⟨w, hread, fun _ => k, q.toRat ^ k, q.numer / q.denom ^ k, number?_power hq name k, hw,
    fun heq => ?_⟩
  by_cases hzero : q.numer = 0
  · simp [k, hzero] at heq
  · have hd : (q.denom : ℚ) ≠ 0 := Int.cast_ne_zero.mpr hq.denom_ne_zero
    have hn : (q.numer : ℚ) ≠ 0 := Int.cast_ne_zero.mpr hzero
    simp only [k, if_neg hzero, Rational.toRat] at heq
    field_simp at heq
    exact hone (by exact_mod_cast heq)

/-- The square of a fraction. -/
def fractionSquare : Value :=
  node Operation.power.operator [rational ⟨3, 2⟩, integer 2]

/-- What the text of the square of a fraction stands for. -/
def numeratorOverSquare : Value :=
  node Operation.divide.operator
    [integer 3, node Operation.power.operator [integer 2, integer 2]]

/-- The text of the square of three halves is read as three fourths. -/
theorem rendering_tears_fraction :
    IsAssembled fractionSquare ∧ fractionSquare.text = "3/2 ^ 2" ∧
      IsReadAs "3/2 ^ 2" numeratorOverSquare ∧ ∀ ρ, fractionSquare.number? ρ = some (9 / 4) ∧
        numeratorOverSquare.number? ρ = some (3 / 4) := by
  refine ⟨?_, by decide +kernel, ?_, fun ρ => ⟨?_, ?_⟩⟩
  · have htwo : Fits 2 := by decide
    exact .combine .power (.rational isReduced_fractions.1) (.integer htwo)
  · let e : Phrase .sum := .term (.divided (.factor (.plain (.number "3")))
      (.raised (.number "2") (.plain (.number "2"))))
    refine ⟨e.stats, 3, fun depth hdepth => ?_⟩
    refine (Grammar.parse_eq_ok_iff_phrase (calculates_algebra depth)).mpr ⟨e, ?_, rfl, ?_, rfl⟩
    · exact ⟨by decide +kernel, by decide +kernel⟩
    · rw [Grammar.maxDepth_setMaxDepth]
      exact hdepth
  · refine (number?_combine .power (number?_rational (by decide)) (number?_integer 2)).trans ?_
    norm_num [Operation.onRationals?, Operator.powerOf?, Rational.toRat]
  · have hpower : (node Operation.power.operator [integer 2, integer 2]).number? ρ = some 4 := by
      refine (number?_combine .power (number?_integer 2) (number?_integer 2)).trans ?_
      norm_num [Operation.onRationals?, Operator.powerOf?]
    refine (number?_combine .divide (number?_integer 3) hpower).trans ?_
    norm_num [Operation.onRationals?]

end Calculator

end Precedence
