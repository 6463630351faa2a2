import Precedence.Proofs.Calculator.Assemblies
import Precedence.Proofs.Calculator.Texts
import Precedence.Proofs.Calculator.Wordings

/-!
# Texts of values with fractions

A fraction is read as a division, and a power of it may be one. So the text of such a value is not
that of a phrase for it, but that of a phrase and of divisors behind it: what stands in front of the
text takes the phrase alone as its operand, and is then divided by the divisors. The number of the
value is a quotient, and a multiplication by it is one by the phrase with divisions behind it. A
division by it, and a power of it, are not.

* `Phrase.Conveys`: a text of a phrase that has the number of a value.
* `Phrase.ConveysQuotient`: a text of a phrase and of divisors for such a number.
* `Conveys.applied`, `Conveys.multiplied`, `Conveys.divided`, `IsExponent.raised`,
  `IsExponent.raised_fraction`: texts with operations, from those of the operands.
-/

namespace Precedence

open Precedence.Number Calculator

namespace Calculator

open Value

namespace Phrase

variable {M N : Level} {ρ : String → ℚ} {x y z : ℚ}

/-! ## Numbers of phrases -/

/-- The phrase has a value, and that has the number. -/
def Means (ρ : String → ℚ) (e : Phrase N) (x : ℚ) : Prop :=
  ∃ w, e.value kept = some w ∧ w.number? ρ = some x

theorem means_applied (op : Operation) {a : Phrase (.left op)} {b : Phrase (.right op)}
    (ha : a.Means ρ x) (hb : b.Means ρ y) (h : op.onRationals? x y = some z) :
    (applied op a b).Means ρ z := by
  obtain ⟨v, hv, hx⟩ := ha
  obtain ⟨w, hw, hy⟩ := hb
  refine ⟨Term.combine op.operator v w, ?_, (number?_combine op hx hy).trans h⟩
  rw [value_applied, hv, hw]
  rfl

theorem means_ofInt {n : Int} (h : Fits n) : (ofInt n).Means ρ n :=
  ⟨integer n, value_ofInt h, rfl⟩

/-! ## Divisors -/

/-- A phrase that is divided by others, one after the other. -/
def dividedBy (t : Phrase .product) : List (Phrase .signed) → Phrase .product
  | [] => t
  | b :: bs => (divided t b).dividedBy bs

/-- The terminals of divisors, with those of the divisions. -/
def behind (bs : List (Phrase .signed)) : List Terminal :=
  bs.flatMap fun b => .sign .divide :: b.terminals

theorem terminals_dividedBy (t : Phrase .product) (bs : List (Phrase .signed)) :
    (t.dividedBy bs).terminals = t.terminals ++ behind bs := by
  induction bs generalizing t with
  | nil => exact (List.append_nil _).symm
  | cons b bs ih =>
    rw [dividedBy, ih, terminals, behind, behind, List.flatMap_cons, List.append_assoc]

/-- To divide by the phrases is to divide by the number. -/
def DivideBy (ρ : String → ℚ) (bs : List (Phrase .signed)) (c : ℚ) : Prop :=
  ∀ (t : Phrase .product) (x : ℚ), t.Means ρ x → (t.dividedBy bs).Means ρ (x / c)

variable {t : Phrase .product} {u b : Phrase .signed} {bs : List (Phrase .signed)} {c d : ℚ}

theorem divideBy_nil : DivideBy ρ [] 1 := by
  intro t x ht
  rw [div_one]
  exact ht

theorem DivideBy.cons (hb : b.Means ρ c) (hc : c ≠ 0) (h : DivideBy ρ bs d) :
    DivideBy ρ (b :: bs) (c * d) := by
  intro t x ht
  have hquotient : Operation.divide.onRationals? x c = some (x / c) := if_neg hc
  rw [← div_div]
  exact h _ _ (means_applied .divide ht hb hquotient)

theorem isSome_applied (op : Operation) {a : Phrase (.left op)} {b : Phrase (.right op)}
    (ha : (a.value kept).isSome) (hb : (b.value kept).isSome) :
    ((applied op a b).value kept).isSome := by
  obtain ⟨v, hv⟩ := Option.isSome_iff_exists.mp ha
  obtain ⟨w, hw⟩ := Option.isSome_iff_exists.mp hb
  rw [value_applied, hv, hw]
  rfl

theorem isSome_dividedBy (ht : (t.value kept).isSome) (hbs : ∀ b ∈ bs, (b.value kept).isSome) :
    ((t.dividedBy bs).value kept).isSome := by
  induction bs generalizing t with
  | nil => exact ht
  | cons b bs ih =>
    exact ih (isSome_applied .divide ht (hbs b List.mem_cons_self))
      fun b' hb' => hbs b' (List.mem_cons_of_mem b hb')

/-- The value of the phrase, if it has one, is a name or a node. -/
def IsBare (e : Phrase N) : Prop :=
  ∀ w, e.value kept = some w → w.IsBare

theorem isBare_applied (op : Operation) (a : Phrase (.left op)) (b : Phrase (.right op)) :
    (applied op a b).IsBare := by
  intro u hu
  obtain ⟨v, w, -, -, ⟨⟩⟩ := value_applied_eq_some_iff.mp hu
  exact isBare_combine _ _ _

theorem IsBare.dividedBy (ht : t.IsBare) (bs : List (Phrase .signed)) :
    (t.dividedBy bs).IsBare := by
  induction bs generalizing t with
  | nil => exact ht
  | cons b bs ih => exact ih (isBare_applied .divide t b)

/-! ## Texts for values -/

/-- The text is one of the phrase. The phrase has a value, and in a value in which nothing is torn
apart this has the same number. -/
structure Conveys (e : Phrase N) (v : Value) (text : List Char) : Prop where
  writes : Writes text e.terminals
  isSome_value : (e.value kept).isSome
  isBare : v.IsBare → e.IsBare
  means : v.IsFirm → ∀ ρ x, v.number? ρ = some x → e.Means ρ x

/-- The text is one of the phrase with the divisors behind it. In a value in which nothing is torn
apart they have the number as a quotient, and nothing to divide by unless the value ends in a
divisor. -/
structure ConveysQuotient (u : Phrase .signed) (bs : List (Phrase .signed)) (v : Value)
    (text : List Char) : Prop where
  writes : Writes text (u.terminals ++ behind bs)
  isSome_value : (u.value kept).isSome
  isSome_divisor : ∀ b ∈ bs, (b.value kept).isSome
  isBare : v.IsBare → ((factor u).dividedBy bs).IsBare
  means : v.IsFirm → ∀ ρ x, v.number? ρ = some x →
    ∃ a c, u.Means ρ a ∧ DivideBy ρ bs c ∧ a / c = x ∧ (c = 1 ∨ v.EndsInDivisor)

/-- The text is one of the phrase with the divisors behind it. If the value is a whole number then
the phrase alone has it, and the divisors change nothing. -/
structure IsExponent (u : Phrase .signed) (bs : List (Phrase .signed)) (v : Value)
    (text : List Char) : Prop where
  writes : Writes text (u.terminals ++ behind bs)
  isSome_value : (u.value kept).isSome
  isSome_divisor : ∀ b ∈ bs, (b.value kept).isSome
  means : v.IsFirm → ∀ ρ x, v.number? ρ = some x → x.den = 1 → u.Means ρ x ∧ DivideBy ρ bs 1

variable {v w : Value} {text other : List Char}

namespace Conveys

/-- What a phrase of a tighter kind conveys one of a looser kind does. -/
theorem widen {e : Phrase M} (h : e.Conveys v text) (hN : N.bottom < M.floor) :
    ∃ e' : Phrase N, e'.Conveys v text := by
  obtain ⟨e', hterminals, -, hvalue⟩ := e.exists_widen hN
  have hkept := hvalue kept
  refine ⟨e', by rw [hterminals]; exact h.writes, by rw [hkept]; exact h.isSome_value, ?_, ?_⟩
  · unfold IsBare
    rw [hkept]
    exact h.isBare
  · unfold Means
    rw [hkept]
    exact h.means

theorem plain {a : Phrase .atom} (h : a.Conveys v text) : (Phrase.plain a).Conveys v text where
  writes := h.writes
  isSome_value := h.isSome_value
  isBare := h.isBare
  means := h.means

theorem group {e : Phrase .sum} (h : e.Conveys v text) :
    (Phrase.group e).Conveys v (parenthesized text) where
  writes := h.writes.group
  isSome_value := h.isSome_value
  isBare := h.isBare
  means := h.means

/-- A phrase without divisors. -/
theorem conveysQuotient {u : Phrase .signed} (h : u.Conveys v text) :
    u.ConveysQuotient [] v text where
  writes := by
    rw [show behind [] = [] from rfl, List.append_nil]
    exact h.writes
  isSome_value := h.isSome_value
  isSome_divisor := by simp
  isBare := h.isBare
  means hfirm ρ x hx := ⟨x, 1, h.means hfirm ρ x hx, divideBy_nil, div_one x, .inl rfl⟩

theorem isExponent {u : Phrase .signed} (h : u.Conveys v text) : u.IsExponent [] v text where
  writes := h.conveysQuotient.writes
  isSome_value := h.isSome_value
  isSome_divisor := by simp
  means hfirm ρ x hx _ := ⟨h.means hfirm ρ x hx, divideBy_nil⟩

/-- A minus sign in front of what is no number. -/
theorem negated {a : Phrase .atom} (h : a.Conveys v text) (hv : v.IsBare)
    (hliteral : a.literal? = none) :
    (Phrase.negated (.plain a)).Conveys (negation v) ('-' :: text) := by
  have hvalue : ∀ w, a.value kept = some w →
      (Phrase.negated (.plain a)).value kept = some (negation w) := by
    intro w hw
    simp only [Phrase.value, Phrase.literal?, hliteral, hw, Option.bind_eq_bind, Option.bind_some,
      negate_of_isBare (h.isBare hv w hw)]
    rfl
  refine ⟨h.writes.negated, ?_, fun hbare => hbare.elim, fun hfirm ρ x hx => ?_⟩
  · obtain ⟨w, hw⟩ := Option.isSome_iff_exists.mp h.isSome_value
    rw [hvalue w hw]
    rfl
  · rw [number?_negation] at hx
    obtain ⟨y, hy, rfl⟩ := Option.map_eq_some_iff.mp hx
    obtain ⟨w, hw, hwy⟩ := h.means hfirm.of_negation ρ y hy
    exact ⟨negation w, hvalue w hw, by rw [number?_negation, hwy]; rfl⟩

/-- An operation between two phrases. -/
theorem applied (op : Operation) {a : Phrase (.left op)} {b : Phrase (.right op)}
    (ha : a.Conveys v text) (hb : b.Conveys w other) :
    (Phrase.applied op a b).Conveys (Term.combine op.operator v w)
      (text ++ (' ' :: op.sign.toList ++ [' ']) ++ other) where
  writes := by
    rw [terminals_applied]
    exact ha.writes.between op hb.writes
  isSome_value := isSome_applied op ha.isSome_value hb.isSome_value
  isBare _ := isBare_applied op a b
  means hfirm ρ z hz := by
    obtain ⟨hv, hw⟩ := hfirm.of_combine
    obtain ⟨x, y, hx, hy, h⟩ := exists_of_number?_combine op hz
    exact means_applied op (ha.means hv ρ x hx) (hb.means hw ρ y hy) h

end Conveys

/-- A phrase that is divided conveys a value if it has the number as a quotient. -/
theorem conveys_dividedBy (hwrites : Writes text (t.terminals ++ behind bs))
    (ht : (t.value kept).isSome) (hbs : ∀ b ∈ bs, (b.value kept).isSome)
    (hbare : v.IsBare → (t.dividedBy bs).IsBare)
    (hmeans : v.IsFirm → ∀ ρ x, v.number? ρ = some x →
      ∃ a c, t.Means ρ a ∧ DivideBy ρ bs c ∧ a / c = x) : (t.dividedBy bs).Conveys v text where
  writes := by
    rw [terminals_dividedBy]
    exact hwrites
  isSome_value := isSome_dividedBy ht hbs
  isBare := hbare
  means hfirm ρ x hx := by
    obtain ⟨a, c, ha, hc, rfl⟩ := hmeans hfirm ρ x hx
    exact hc t a ha

namespace ConveysQuotient

/-- A phrase and its divisors are a product. -/
theorem conveys (h : u.ConveysQuotient bs v text) : ((factor u).dividedBy bs).Conveys v text := by
  refine conveys_dividedBy h.writes h.isSome_value h.isSome_divisor h.isBare fun hfirm ρ x hx => ?_
  obtain ⟨a, c, ha, hc, hx, -⟩ := h.means hfirm ρ x hx
  exact ⟨a, c, ha, hc, hx⟩

/-- **A product with a value that ends in a divisor** is divided by it. -/
theorem multiplied (ht : t.Conveys v text) (h : u.ConveysQuotient bs w other) :
    ((Phrase.multiplied t u).dividedBy bs).Conveys (Term.combine Operation.multiply.operator v w)
      (text ++ (' ' :: Operation.multiply.sign.toList ++ [' ']) ++ other) := by
  have hwrites := ht.writes.between .multiply h.writes
  rw [← List.cons_append, ← List.append_assoc t.terminals] at hwrites
  refine conveys_dividedBy hwrites (isSome_applied .multiply ht.isSome_value h.isSome_value)
    h.isSome_divisor (fun _ => (isBare_applied .multiply t u).dividedBy bs) fun hfirm ρ z hz => ?_
  obtain ⟨hv, hw⟩ := hfirm.of_combine
  obtain ⟨x, y, hx, hy, hz⟩ := exists_of_number?_combine .multiply hz
  obtain ⟨a, c, ha, hc, rfl, -⟩ := h.means hw ρ y hy
  cases hz
  exact ⟨x * a, c, means_applied .multiply (ht.means hv ρ x hx) ha rfl, hc,
    mul_div_assoc x a c⟩

/-- **A quotient by a value that does not end in a divisor.** -/
theorem divided (ht : t.Conveys v text) (h : u.ConveysQuotient bs w other) :
    ((Phrase.divided t u).dividedBy bs).Conveys (Term.combine Operation.divide.operator v w)
      (text ++ (' ' :: Operation.divide.sign.toList ++ [' ']) ++ other) := by
  have hwrites := ht.writes.between .divide h.writes
  rw [← List.cons_append, ← List.append_assoc t.terminals] at hwrites
  refine conveys_dividedBy hwrites (isSome_applied .divide ht.isSome_value h.isSome_value)
    h.isSome_divisor (fun _ => (isBare_applied .divide t u).dividedBy bs) fun hfirm ρ z hz => ?_
  obtain ⟨hv, hw⟩ := hfirm.of_combine
  obtain ⟨x, y, hx, hy, hz⟩ := exists_of_number?_combine .divide hz
  obtain ⟨a, c, ha, hc, rfl, hend⟩ := h.means hw ρ y hy
  obtain rfl : c = 1 := hend.resolve_right (hfirm.divisor v w .here)
  rw [div_one] at hz
  exact ⟨z, 1, means_applied .divide (ht.means hv ρ x hx) ha hz, hc, div_one z⟩

end ConveysQuotient

/-! ## Powers -/

/-- A power with an integer as exponent. -/
theorem powerOf?_eq_some (h : Operator.powerOf? x y = some z) :
    y.den = 1 ∧ (y < 0 → x ≠ 0) ∧ x ^ y.num = z := by
  unfold Operator.powerOf? at h
  split at h
  · rename_i hxy
    exact ⟨hxy.1, hxy.2, Option.some.inj h⟩
  · cases h

namespace IsExponent

/-- A power of what stands in parentheses, or needs none. -/
theorem raised {a : Phrase .atom} (ha : a.Conveys v text) (h : u.IsExponent bs w other) :
    (Phrase.raised a u).ConveysQuotient bs (Term.combine Operation.power.operator v w)
      (text ++ (' ' :: Operation.power.sign.toList ++ [' ']) ++ other) where
  writes := by
    rw [terminals, List.append_assoc a.terminals]
    exact ha.writes.between .power h.writes
  isSome_value := isSome_applied .power ha.isSome_value h.isSome_value
  isSome_divisor := h.isSome_divisor
  isBare _ := IsBare.dividedBy (t := .factor (.raised a u)) (isBare_applied .power a u) bs
  means hfirm ρ z hz := by
    obtain ⟨hv, hw⟩ := hfirm.of_combine
    obtain ⟨x, y, hx, hy, hz⟩ := exists_of_number?_combine .power hz
    obtain ⟨hden, -, -⟩ := powerOf?_eq_some hz
    obtain ⟨hu, hbs⟩ := h.means hw ρ y hy hden
    have hpower := means_applied .power (ha.means hv ρ x hx) hu hz
    exact ⟨z, 1, hpower, hbs, div_one z, .inl rfl⟩

/-- **A power of a fraction without a sign**: its denominator is raised alone. -/
theorem raised_fraction {q : Rational} (hq : q.IsReduced) (hnumer : 0 ≤ q.numer)
    (h : u.IsExponent bs w other) :
    (ofInt q.numer).ConveysQuotient (.raised (.number q.denom.natAbs.repr) u :: bs)
      (Term.combine Operation.power.operator (rational q) w)
      (q.text.toList ++ (' ' :: Operation.power.sign.toList ++ [' ']) ++ other) := by
  have hpos : ¬ q.denom < 0 := Int.not_lt.mpr (Int.le_trans Int.one_nonneg hq.denom_pos)
  have hdenom : ofInt q.denom = .plain (.number q.denom.natAbs.repr) := if_neg hpos
  have hvalue : (ofInt q.denom).value kept = _ := value_ofInt hq.denom_fits
  rw [hdenom] at hvalue
  refine ⟨?_, ?_, ?_, fun _ => ?_, fun hfirm ρ z hz => ?_⟩
  · have hfraction := (tight_ofRational q).writes
    rw [closed_ofRational, terminals_ofRational, hdenom] at hfraction
    simpa [behind, terminals] using hfraction.between .power h.writes
  · rw [value_ofInt hq.numer_fits]
    rfl
  · intro b hb
    rcases List.mem_cons.mp hb with rfl | hb
    · have hsome : ((Phrase.number q.denom.natAbs.repr).value kept).isSome := by
        rw [show (Phrase.number q.denom.natAbs.repr).value kept = _ from hvalue]
        rfl
      exact isSome_applied .power hsome h.isSome_value
    · exact h.isSome_divisor b hb
  · exact (isBare_applied .divide (.factor (ofInt q.numer)) _).dividedBy bs
  · obtain ⟨-, hw⟩ := hfirm.of_combine
    obtain ⟨x, y, hx, hy, hz⟩ := exists_of_number?_combine .power hz
    obtain ⟨hden, -, rfl⟩ := powerOf?_eq_some hz
    obtain ⟨hu, hbs⟩ := h.means hw ρ y hy hden
    -- Since nothing is torn apart, the numerator is that of a power of the denominator.
    have hone : q.numer = 1 := by
      have hbase : ¬ (0 ≤ q.numer ∧ q.numer ≠ 1) := hfirm.base _ _ .here
      by_contra hne
      exact hbase ⟨hnumer, hne⟩
    have hne : (q.denom : ℚ) ≠ 0 := Int.cast_ne_zero.mpr hq.denom_ne_zero
    rw [number?_rational hq.denom_ne_zero] at hx
    cases hx
    have hpower : Operation.power.onRationals? q.denom y = some ((q.denom : ℚ) ^ y.num) :=
      if_pos ⟨hden, fun _ => hne⟩
    have hnumber : (Phrase.number q.denom.natAbs.repr).Means ρ q.denom := ⟨_, hvalue, rfl⟩
    have hraised := means_applied .power hnumber hu hpower
    refine ⟨q.numer, _, means_ofInt hq.numer_fits, .cons hraised (zpow_ne_zero _ hne) hbs, ?_, ?_⟩
    · rw [mul_one, Rational.toRat, hone, Int.cast_one, div_zpow, one_zpow]
    · by_cases hwhole : q.denom = 1
      · exact .inl (by rw [hwhole, Int.cast_one, one_zpow, mul_one])
      · exact .inr ⟨rfl, hnumer, hwhole⟩

end IsExponent

end Phrase

end Calculator

end Precedence
