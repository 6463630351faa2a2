import Precedence.Proofs.Calculator.Divisions

/-!
# Reading values with fractions

A value that is made by hand is written so that `algebra` reads its text, and as a value with the
same exact number, whatever numbers its names stand for, if nowhere in it a fraction is torn apart.

* `IsFlat.conveyedAt`: the text of a value is that of a phrase, with divisors behind it if it is a
  fraction or a power.
* `assembled_parse_text`: so the text is read, and the number is kept if nothing is torn apart.
-/

namespace Precedence

open Precedence.Number Calculator

namespace Value

open Phrase (Conveys ConveysQuotient IsExponent Means DivideBy)

variable {op : Operation} {v w : Value} {us vs : List Value} {text other : List Char}
variable {M N : Level} {ρ : String → ℚ}

/-! ## Kinds of texts -/

/-- The text is one of a phrase of the kind, with divisors behind it if the phrase may be a first
factor. -/
def ConveyedAt (v : Value) (text : List Char) : Level → Prop
  | .sum => ∃ e : Phrase .sum, e.Conveys v text
  | .product => ∃ t : Phrase .product, t.Conveys v text
  | .signed => ∃ u bs, ConveysQuotient u bs v text
  | .atom => ∃ a : Phrase .atom, a.Conveys v text

theorem conveyedAt_of_conveys {e : Phrase N} (h : e.Conveys v text) : ConveyedAt v text N := by
  cases N with
  | signed => exact ⟨e, [], h.conveysQuotient⟩
  | sum | product | atom => exact ⟨e, h⟩

namespace ConveyedAt

theorem widen (h : ConveyedAt v text M) (hN : N.bottom < M.floor) : ConveyedAt v text N := by
  cases M with
  | signed =>
    obtain ⟨u, bs, hu⟩ := h
    cases N with
    | atom => exact absurd hN (by decide)
    | signed => exact ⟨u, bs, hu⟩
    | product => exact ⟨_, hu.conveys⟩
    | sum => exact hu.conveys.widen (by decide)
  | sum | product | atom =>
    obtain ⟨e, he⟩ := h
    obtain ⟨e', he'⟩ := he.widen hN
    exact conveyedAt_of_conveys he'

/-- In parentheses if need be. -/
theorem wrap {parens : Bool} (h : ConveyedAt v text M) (hN : parens = false → N.bottom < M.floor) :
    ConveyedAt v (wrap parens text) N := by
  cases parens with
  | false => exact h.widen (hN rfl)
  | true =>
    have hsum : ConveyedAt v text .sum := h.widen (by cases M <;> decide)
    obtain ⟨e, he⟩ := hsum
    exact (conveyedAt_of_conveys he.group).widen (by cases N <;> decide)

/-- An operation other than a power, between two texts. -/
theorem applied (hop : op ≠ .power) (hv : ConveyedAt v text (.left op))
    (hw : ConveyedAt w other (.right op)) :
    ConveyedAt (Term.combine op.operator v w)
      (text ++ (' ' :: op.sign.toList ++ [' ']) ++ other) (.of op) := by
  cases op with
  | add =>
    obtain ⟨e, he⟩ := hv
    obtain ⟨t, ht⟩ := hw
    exact ⟨_, he.applied .add ht⟩
  | subtract =>
    obtain ⟨e, he⟩ := hv
    obtain ⟨t, ht⟩ := hw
    exact ⟨_, he.applied .subtract ht⟩
  | multiply =>
    obtain ⟨t, ht⟩ := hv
    obtain ⟨u, bs, hu⟩ := hw
    exact ⟨_, hu.multiplied ht⟩
  | divide =>
    obtain ⟨t, ht⟩ := hv
    obtain ⟨u, bs, hu⟩ := hw
    exact ⟨_, hu.divided ht⟩
  | power => exact absurd rfl hop

end ConveyedAt

/-- The kind of phrase that the text of a value is. A fraction is one of a factor. -/
def place : Value → Level
  | rational _ => .signed
  | v => v.level

theorem place_of_ne (h : ∀ q, v ≠ rational q) : v.place = v.level := by
  cases v with
  | rational q => exact absurd rfl (h q)
  | integer _ | real _ | negation _ | var _ | node _ _ => rfl

theorem place_node (op : Operation) (vs : List Value) : (node op.operator vs).place = .of op :=
  level_node op vs

/-! ## Leaves -/

theorem conveys_ofInt {n : Int} (h : Fits n) : (Phrase.ofInt n).Conveys (integer n)
    (integer n).render where
  writes := by
    rw [render, ← closed_ofInt]
    exact (tight_ofInt_alone n).writes
  isSome_value := by rw [value_ofInt h]; rfl
  isBare hbare := hbare.elim
  means _ ρ x hx := by
    cases hx
    exact Phrase.means_ofInt h

theorem conveyedAt_integer {n : Int} (h : Fits n) :
    ConveyedAt (integer n) (integer n).render (integer n).place := by
  have hconveys := conveys_ofInt h
  rw [place_of_ne fun _ h => by cases h]
  by_cases hn : n < 0
  · rw [level, if_pos hn]
    exact conveyedAt_of_conveys hconveys
  · rw [Phrase.ofInt, if_neg hn] at hconveys
    rw [level, if_neg hn]
    exact ⟨_, hconveys.writes, hconveys.isSome_value, hconveys.isBare, hconveys.means⟩

theorem conveys_name {name : String} (h : IsName name) :
    (Phrase.name name).Conveys (var name) (var name).render where
  writes := by
    have htight : Tight [.name name] := ⟨⟨h, beginsApart_nil⟩, trivial⟩
    have hwrites := htight.writes
    rwa [show closed [.name name] = (var name).render from List.append_nil _] at hwrites
  isSome_value := rfl
  isBare _ w hw := by
    cases hw
    trivial
  means _ ρ x hx := ⟨var name, rfl, hx⟩

/-- A fraction is its numerator, divided by its denominator. -/
theorem conveysQuotient_rational {q : Rational} (h : q.IsReduced) :
    ConveysQuotient (.ofInt q.numer) [.ofInt q.denom] (rational q) (rational q).render where
  writes := by
    have hwrites := (tight_ofRational q).writes
    rw [closed_ofRational, terminals_ofRational] at hwrites
    simpa [Phrase.behind, render] using hwrites
  isSome_value := by rw [value_ofInt h.numer_fits]; rfl
  isSome_divisor b hb := by
    rw [List.mem_singleton.mp hb, value_ofInt h.denom_fits]
    rfl
  isBare hbare := hbare.elim
  means _ ρ x hx := by
    rw [number?_rational h.denom_ne_zero] at hx
    cases hx
    have hdenom : (Phrase.ofInt q.denom).Means ρ q.denom := Phrase.means_ofInt h.denom_fits
    have hbs := DivideBy.cons hdenom (Int.cast_ne_zero.mpr h.denom_ne_zero) Phrase.divideBy_nil
    refine ⟨q.numer, q.denom * 1, Phrase.means_ofInt h.numer_fits, hbs, ?_, ?_⟩
    · rw [mul_one, Rational.toRat]
    · by_cases hwhole : q.denom = 1
      · exact .inl (by rw [hwhole, Int.cast_one, mul_one])
      · exact .inr hwhole

/-! ## Operands -/

/-- What stands without parentheses as a first operand is of the kind that the operation takes,
unless it is a fraction below a power. -/
theorem IsFlat.bottom_left_lt (h : IsFlat v)
    (hfraction : op = .power → ∀ q, v = .rational q → q.numer < 0)
    (hv : v.needsParens op.operator true = false) : (Level.left op).bottom < v.place.floor := by
  cases h with
  | integer _ | var _ | negation _ _ =>
    exact bottom_left_lt_of_leaf rfl (fun _ h => by cases h) hv
  | @rational q _ =>
    show (Level.left op).bottom < Level.signed.floor
    cases op with
    | add | subtract | multiply | divide => decide
    | power =>
      have hneg : q.numer < 0 := hfraction rfl q rfl
      simp only [needsParens, prefixPower?, if_pos hneg] at hv
      cases hv
  | pair _ _ _ | chain _ _ _ _ =>
    rw [place_node]
    exact bottom_left_lt_of_node hv

/-- What stands without parentheses as a later operand is of the kind that the operation takes,
unless it is a node that would have been flattened. -/
theorem IsFlat.bottom_right_lt (h : IsFlat v) (hv : v.needsParens op.operator false = false)
    (hflat : op.operator.associative = true → Term.contribution op.operator v = [v]) :
    (Level.right op).bottom < v.place.floor := by
  cases h with
  | integer _ | var _ | negation _ _ =>
    rw [place_of_ne fun _ h => by cases h]
    exact bottom_right_lt_of_leaf rfl op
  | rational _ =>
    show (Level.right op).bottom < Level.signed.floor
    cases op <;> decide
  | pair hop _ _ =>
    rw [place_node]
    refine bottom_right_lt_of_node hv ?_
    rintro ⟨rfl, hop'⟩
    exact Bool.false_ne_true (hop.symm.trans hop')
  | chain _ hlength _ _ =>
    rw [place_node]
    refine bottom_right_lt_of_node hv ?_
    rintro ⟨rfl, hop'⟩
    exact contribution_ne_singleton hlength (hflat hop')

theorem IsFlat.conveyedAt_left (h : IsFlat v) (op : Operation)
    (hfraction : op = .power → ∀ q, v = .rational q → q.numer < 0)
    (hv : ConveyedAt v v.render v.place) :
    ConveyedAt v (wrap (v.needsParens op.operator true) v.render) (.left op) :=
  hv.wrap (h.bottom_left_lt hfraction)

theorem IsFlat.conveyedAt_right (h : IsFlat v) (op : Operation)
    (hflat : op.operator.associative = true → Term.contribution op.operator v = [v])
    (hv : ConveyedAt v v.render v.place) :
    ConveyedAt v (wrap (v.needsParens op.operator false) v.render) (.right op) :=
  hv.wrap fun hparens => h.bottom_right_lt hparens hflat

/-! ## Powers -/

/-- What ends in no divisor when it is a whole number may be an exponent. -/
theorem isExponent_of_conveysQuotient {u : Phrase .signed} {bs : List (Phrase .signed)}
    (h : u.ConveysQuotient bs v text)
    (hend : ∀ ρ x, v.number? ρ = some x → x.den = 1 → ¬ v.EndsInDivisor) :
    u.IsExponent bs v text where
  writes := h.writes
  isSome_value := h.isSome_value
  isSome_divisor := h.isSome_divisor
  means hfirm ρ x hx hden := by
    obtain ⟨a, c, ha, hc, rfl, hone⟩ := h.means hfirm ρ x hx
    obtain rfl := hone.resolve_right (hend ρ _ hx hden)
    rw [div_one]
    exact ⟨ha, hc⟩

/-- An exponent: a node stands in parentheses, and a fraction is no whole number. -/
theorem IsFlat.exists_isExponent (h : IsFlat v) (hv : ConveyedAt v v.render v.place) :
    ∃ u bs, IsExponent u bs v
      (Value.wrap (v.needsParens Operation.power.operator false) v.render) := by
  have hright := h.conveyedAt_right .power (fun hop => by cases hop) hv
  have hleaf : (∀ ρ x, v.number? ρ = some x → x.den = 1 → ¬ v.EndsInDivisor) →
      ∃ u bs, IsExponent u bs v
        (Value.wrap (v.needsParens Operation.power.operator false) v.render) := by
    intro hend
    obtain ⟨u, bs, hu⟩ := hright
    exact ⟨u, bs, isExponent_of_conveysQuotient hu hend⟩
  have hnode : ∀ op' vs, v = node (Operation.operator op') vs →
      ∃ u bs, IsExponent u bs v
        (Value.wrap (v.needsParens Operation.power.operator false) v.render) := by
    rintro op' vs rfl
    have hparens : (node op'.operator vs).needsParens Operation.power.operator false = true := by
      cases op' <;> exact (show Operator.needsParens _ _ = true by decide)
    rw [hparens]
    have hatom : ConveyedAt _ (wrap true (node op'.operator vs).render) .atom :=
      hv.wrap fun h => by cases h
    obtain ⟨a, ha⟩ := hatom
    exact ⟨_, [], ha.plain.isExponent⟩
  cases h with
  | integer _ | var _ | negation _ _ => exact hleaf fun _ _ _ _ hend => hend.elim
  | @rational q hq =>
    refine hleaf fun ρ x hx hden hend => hend ?_
    rw [number?_rational hq.denom_ne_zero] at hx
    cases hx
    have hdenom : (q.toRat.den : Int) = q.denom := congrArg Rational.denom hq.ofRat_toRat
    rw [← hdenom, hden]
    rfl
  | pair _ _ _ => exact hnode _ _ rfl
  | chain _ _ _ _ => exact hnode _ _ rfl

/-- A power, of whatever base. -/
theorem IsFlat.conveyedAt_power (hv : IsFlat v) (hw : IsFlat w)
    (ihv : ConveyedAt v v.render v.place) (ihw : ConveyedAt w w.render w.place) :
    ConveyedAt (Term.combine Operation.power.operator v w)
      (Value.wrap (v.needsParens Operation.power.operator true) v.render ++
        (' ' :: Operation.power.sign.toList ++ [' ']) ++
        Value.wrap (w.needsParens Operation.power.operator false) w.render) .signed := by
  obtain ⟨u, bs, hu⟩ := hw.exists_isExponent ihw
  by_cases hfraction : ∃ q, v = .rational q ∧ 0 ≤ q.numer
  · obtain ⟨q, rfl, hnumer⟩ := hfraction
    have hparens : (Value.rational q).needsParens Operation.power.operator true = false := by
      simp [needsParens, prefixPower?, Int.not_lt.mpr hnumer]
    cases hv with
    | rational hq =>
      rw [hparens]
      exact ⟨_, _, hu.raised_fraction hq hnumer⟩
  · obtain ⟨a, ha⟩ := hv.conveyedAt_left .power
      (fun _ q hq => Int.not_le.mp fun hnumer => hfraction ⟨q, hq, hnumer⟩) ihv
    exact ⟨_, _, hu.raised ha⟩

/-! ## Nodes -/

theorem render_pair (op : Operation) (v w : Value) :
    (node op.operator [v, w]).render =
      wrap (v.needsParens op.operator true) v.render ++ (' ' :: op.sign.toList ++ [' ']) ++
        wrap (w.needsParens op.operator false) w.render := by
  rw [render, renderOperands_cons, renderOperands_cons]
  simp [renderOperands]

/-- The text of a sum or a product goes on with the texts of further operands. -/
theorem conveyedAt_renderOperands (hop : op.operator.associative = true)
    (h : ∀ w ∈ vs, Term.contribution op.operator w = [w] ∧
      ConveyedAt w (wrap (w.needsParens op.operator false) w.render) (.right op))
    (hus : ConveyedAt (node op.operator us) text (.of op)) :
    ConveyedAt (node op.operator (us ++ vs)) (text ++ renderOperands op.operator false vs)
      (.of op) := by
  have hleft : Level.of op = Level.left op := by
    cases op <;> first | rfl | exact absurd hop (by decide)
  have hpower : op ≠ .power := by
    rintro rfl
    exact absurd hop (by decide)
  induction vs generalizing us text with
  | nil => simpa [renderOperands] using hus
  | cons w vs ih =>
    obtain ⟨hflat, hw⟩ := h w List.mem_cons_self
    rw [hleft] at hus
    have hstep := hus.applied hpower hw
    rw [combine_node hop hflat] at hstep
    have hrest := ih (fun u hu => h u (List.mem_cons_of_mem _ hu)) hstep
    rw [renderOperands_cons]
    simpa using hrest

/-- **The text of a value is one of a phrase**, with divisors behind it if it is one of a factor. -/
theorem IsFlat.conveyedAt (h : IsFlat v) : ConveyedAt v v.render v.place := by
  induction h with
  | integer hn => exact conveyedAt_integer hn
  | rational hq => exact ⟨_, _, conveysQuotient_rational hq⟩
  | var hname => exact ⟨_, conveys_name hname⟩
  | @negation v hv hbare ih =>
    cases hv with
    | var hname => exact conveyedAt_of_conveys ((conveys_name hname).negated trivial rfl)
    | pair _ _ _ | chain _ _ _ _ =>
      obtain ⟨e, he⟩ := ih.widen (N := .sum) (by cases place _ <;> decide)
      exact conveyedAt_of_conveys (he.group.negated trivial rfl)
    | integer _ | rational _ | negation _ _ => exact hbare.elim
  | @pair op v w hop hv hw ihv ihw =>
    have hboth : ConveyedAt (Term.combine op.operator v w)
        (wrap (v.needsParens op.operator true) v.render ++ (' ' :: op.sign.toList ++ [' ']) ++
          wrap (w.needsParens op.operator false) w.render) (.of op) := by
      by_cases hpower : op = .power
      · subst hpower
        exact hv.conveyedAt_power hw ihv ihw
      · exact (hv.conveyedAt_left op (fun h => absurd h hpower) ihv).applied hpower
          (hw.conveyedAt_right op (fun hop' => by simp [hop] at hop') ihw)
    rw [Term.combine_of_not_associative hop, term_node] at hboth
    rw [place_node, render_pair]
    exact hboth
  | @chain op vs hop hlength hvs hflat ih =>
    match vs, hlength with
    | v :: w :: vs, _ =>
      have hpower : op ≠ .power := by
        rintro rfl
        exact absurd hop (by decide)
      have hv : v ∈ v :: w :: vs := by simp
      have hw : w ∈ v :: w :: vs := by simp
      have hlater : ∀ u ∈ v :: w :: vs, ConveyedAt u
          (wrap (u.needsParens op.operator false) u.render) (.right op) := fun u hu =>
        (hvs u hu).conveyedAt_right op (fun _ => hflat u hu) (ih u hu)
      have hfirst := (hvs v hv).conveyedAt_left op (fun h => absurd h hpower) (ih v hv)
      have hboth := hfirst.applied hpower (hlater w hw)
      rw [(hvs v hv).combine_eq_node hop, hflat v hv, hflat w hw] at hboth
      have hrest : ∀ u ∈ vs, Term.contribution op.operator u = [u] ∧
          ConveyedAt u (wrap (u.needsParens op.operator false) u.render) (.right op) := fun u hu =>
        ⟨hflat u (by simp [hu]), hlater u (by simp [hu])⟩
      have hall := conveyedAt_renderOperands hop hrest hboth
      rw [place_node, render, renderOperands_cons, renderOperands_cons]
      simpa using hall

end Value

namespace Calculator

open Value

variable {v : Value}

/-! ## Parses of texts -/

/-- Under every limit to the depth that is large enough, `algebra` reads the text as the value. -/
def IsReadAs (text : String) (w : Value) : Prop :=
  ∃ stats limit, ∀ depth, limit ≤ depth →
    (algebra.setMaxDepth depth).parse text = some (.ok (w, stats))

/-- What conveys a value is read as its own value. -/
theorem Phrase.Conveys.isReadAs {e : Phrase .sum} (h : e.Conveys v v.render)
    (hw : e.value kept = some w) : IsReadAs v.text w :=
  ⟨e.stats, e.tally.height + 1, fun _ hdepth => h.writes.parse hw hdepth⟩

/-- **What is made by hand is read, and keeps its number if no fraction in it is torn apart.** -/
theorem assembled_parse_text (h : IsAssembled v) :
    ∃ w, IsReadAs v.text w ∧
      (v.IsFirm → ∀ ρ x, v.number? ρ = some x → w.number? ρ = some x) := by
  have hsum : ConveyedAt v v.render .sum := h.isFlat.conveyedAt.widen (by cases v.place <;> decide)
  obtain ⟨e, he⟩ := hsum
  obtain ⟨w, hw⟩ := Option.isSome_iff_exists.mp he.isSome_value
  refine ⟨w, he.isReadAs hw, fun hfirm ρ x hx => ?_⟩
  obtain ⟨w', hw', hnumber⟩ := he.means hfirm ρ x hx
  cases hw.symm.trans hw'
  exact hnumber

/-- A difference of values with fractions, none of which is torn apart. -/
def fractions : Value :=
  node Operation.subtract.operator
    [node Operation.multiply.operator [var "x", rational ⟨3, 2⟩],
      node Operation.power.operator [rational ⟨-3, 2⟩, integer 2]]

theorem isReduced_fractions : (⟨3, 2⟩ : Rational).IsReduced ∧ (⟨-3, 2⟩ : Rational).IsReduced :=
  ⟨⟨by decide, by decide, by decide, by decide⟩, ⟨by decide, by decide, by decide, by decide⟩⟩

theorem isAssembled_fractions : IsAssembled fractions := by
  obtain ⟨hpositive, hnegative⟩ := isReduced_fractions
  have hx : IsName "x" := by decide +kernel
  have htwo : Fits 2 := by decide
  have hproduct := IsAssembled.combine .multiply (.var hx) (.rational hpositive)
  have hpower := IsAssembled.combine .power (.rational hnegative) (.integer htwo)
  exact .combine .subtract hproduct hpower

theorem isFirm_fractions : fractions.IsFirm := by
  have htags : Operation.subtract.operator ≠ Operation.divide.operator ∧
      Operation.subtract.operator ≠ Operation.power.operator ∧
      Operation.multiply.operator ≠ Operation.divide.operator ∧
      Operation.multiply.operator ≠ Operation.power.operator ∧
      Operation.power.operator ≠ Operation.divide.operator := by decide
  have hproduct : (node Operation.multiply.operator [var "x", rational ⟨3, 2⟩]).IsFirm := by
    refine isFirm_node ?_ ?_ ?_ <;> simp [htags]
  have hpower : (node Operation.power.operator [rational ⟨-3, 2⟩, integer 2]).IsFirm := by
    refine isFirm_node ?_ ?_ ?_ <;> simp [htags, IsLooseBase]
  refine isFirm_node ?_ ?_ ?_ <;> simp [htags, hproduct, hpower]

theorem number?_fractions (x : ℚ) :
    fractions.number? (fun _ => x) = some (x * (3 / 2) - 9 / 4) := by
  have hproduct : (node Operation.multiply.operator [var "x", rational ⟨3, 2⟩]).number?
      (fun _ => x) = some (x * (3 / 2)) :=
    number?_combine .multiply (number?_var "x") (number?_rational (by decide))
  have hpower : (node Operation.power.operator [rational ⟨-3, 2⟩, integer 2]).number?
      (fun _ => x) = some (9 / 4) := by
    refine (number?_combine .power (number?_rational (by decide)) (number?_integer 2)).trans ?_
    norm_num [Operation.onRationals?, Operator.powerOf?, Rational.toRat]
  exact number?_combine .subtract hproduct hpower

/-- A product with a fraction, and a power of a negative one. -/
theorem assembled_parse_text_fractions :
    IsAssembled fractions ∧ fractions.IsFirm ∧ fractions.text = "x * 3/2 - (-3/2) ^ 2" ∧
      ∃ w, IsReadAs fractions.text w ∧
        ∀ x : ℚ, w.number? (fun _ => x) = some (x * (3 / 2) - 9 / 4) := by
  obtain ⟨w, hread, hnumber⟩ := assembled_parse_text isAssembled_fractions
  refine ⟨isAssembled_fractions, isFirm_fractions, by decide +kernel, w, hread, fun x => ?_⟩
  exact hnumber isFirm_fractions (fun _ => x) _ (number?_fractions x)

end Calculator

end Precedence
