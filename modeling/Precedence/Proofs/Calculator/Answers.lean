import Precedence.Proofs.Calculator.Canonical
import Precedence.Proofs.Calculator.Spacing
import Precedence.Proofs.Calculator.Texts

/-!
# Reading results again

The calculator reads every exact result that it prints as that result. A fraction is read as a
quotient of literals, the first of which may have a sign: so the sign has to belong to the number,
and the quotient of two integers in lowest terms to be the fraction itself.

* `divide_parts`: the quotient of the parts of a fraction in lowest terms.
* `value_ofInt`, `tight_ofInt`: an integer as a literal.
* `evaluate_text`: the text of an exact result is read as the result.
-/

namespace Precedence

open Precedence.Number Precedence.Source Precedence.Text Calculator

namespace Calculator

open Piece (layout)

/-! ## Terminals without blanks -/

/-- The characters of terminals without blanks between them. -/
def closed (xs : List Terminal) : List Char :=
  xs.flatMap Terminal.chars

/-- Terminals that are told apart without blanks between them. -/
def Tight : List Terminal → Prop
  | [] => True
  | x :: xs => x.StandsBefore (closed xs) ∧ Tight xs

theorem layout_closed (xs : List Terminal) :
    layout (xs.map (Terminal.piece [])) = closed xs := by
  induction xs with
  | nil => rfl
  | cons x xs ih =>
    rw [List.map_cons, Piece.layout_cons, ih]
    rfl

theorem Tight.cuts {xs : List Terminal} (h : Tight xs) :
    calculatorRecognizer.Cuts (xs.map (Terminal.piece [])) [] := by
  induction xs with
  | nil => exact .nil []
  | cons x xs ih =>
    refine cuts_piece (by simp) ?_ (ih h.2)
    rw [layout_closed, List.append_nil]
    exact h.1

/-- Such terminals are those of their text. -/
theorem Tight.terminals {xs : List Terminal} (h : Tight xs) :
    Terminals (calculatorRecognizer.scan (String.ofList (closed xs))) xs := by
  have hpieces : (xs.map fun x => (([] : List Char), x)).map (fun w => w.2.piece w.1) =
      xs.map (Terminal.piece []) := by
    simp
  have hcuts : calculatorRecognizer.Cuts
      ((xs.map fun x => (([] : List Char), x)).map fun w => w.2.piece w.1) [] := by
    rw [hpieces]
    exact h.cuts
  have hall := terminals_of_cuts hcuts (by simp) (by
    rw [hpieces, layout_closed, List.append_nil, String.toList_ofList])
  simpa using hall

/-- A value is read from its text if that is the text of a phrase that computes it. -/
theorem Phrase.evaluate_closed {e : Phrase .sum} {v : Value} (ht : v.render = closed e.terminals)
    (h : Tight e.terminals) (hv : e.value computedAtOnce = some v) (hd : e.tally.height < 256) :
    ∃ stats, evaluate v.text = some (.ok (v, stats)) := by
  refine ⟨e.stats, ?_⟩
  rw [evaluate, ← Grammar.setMaxDepth_maxDepth arithmetic]
  refine (Grammar.parse_eq_ok_iff_phrase (calculates_arithmetic _)).mpr ⟨e, ?_, hv, ?_, rfl⟩
  · rw [Value.text, ht]
    exact h.terminals
  · rw [Grammar.maxDepth_setMaxDepth, maxDepth_arithmetic]
    exact hd

/-! ## Integers -/

/-- The literal of an integer. -/
def Phrase.ofInt (n : Int) : Phrase .signed :=
  if n < 0 then .negated (.plain (.number n.natAbs.repr)) else .plain (.number n.natAbs.repr)

variable {n : Int} {perform : Operation → Value → Value → Option Value} {xs : List Terminal}

/-- The literal of an integer of 64 bits has it as its value, the least one included. -/
theorem value_ofInt (h : Fits n) : (Phrase.ofInt n).value perform = some (.integer n) := by
  unfold Phrase.ofInt
  by_cases hn : n < 0
  · have hneg : -(n.natAbs : Int) = n := by omega
    have hvalue := (rereads_neg (k := n.natAbs) (by rwa [hneg])).value rfl
    rw [hneg] at hvalue
    rw [if_pos hn]
    exact hvalue
  · have hpos : (n.natAbs : Int) = n := by omega
    have hvalue := (rereads_nat (k := n.natAbs) (by rwa [hpos])).value rfl
    rw [hpos] at hvalue
    rw [if_neg hn]
    exact hvalue

theorem height_ofInt (n : Int) : (Phrase.ofInt n).tally.height = 0 := by
  unfold Phrase.ofInt
  split <;> rfl

/-- An integer is written as its literal. -/
theorem closed_ofInt (n : Int) : closed (Phrase.ofInt n).terminals = (toString n).toList := by
  unfold Phrase.ofInt
  by_cases hn : n < 0
  · obtain ⟨k, rfl⟩ := Int.eq_negSucc_of_lt_zero hn
    rw [if_pos hn, show toString (Int.negSucc k) = "-" ++ (k + 1).repr from rfl,
      String.toList_append]
    simp [closed, Phrase.terminals, Terminal.chars, Operation.sign]
  · obtain ⟨k, rfl⟩ := Int.eq_ofNat_of_zero_le (Int.not_lt.mp hn)
    rw [if_neg hn, show toString (k : Int) = k.repr from rfl]
    simp [closed, Phrase.terminals, Terminal.chars]

/-- The literal of an integer ends where no number goes on. -/
theorem tight_ofInt (h : BeginsApart (closed xs)) (hxs : Tight xs) (n : Int) :
    Tight ((Phrase.ofInt n).terminals ++ xs) := by
  have hnumber : Tight (Terminal.number n.natAbs.repr :: xs) :=
    ⟨⟨.inl (isDigits_repr _), h⟩, hxs⟩
  unfold Phrase.ofInt
  split
  · exact ⟨trivial, hnumber⟩
  · exact hnumber

/-! ## Fractions -/

/-- **The quotient of the parts of a fraction in lowest terms** is the fraction. -/
theorem divide_parts {q : Rational} (h : q.IsReduced) (hwhole : 1 < q.denom) :
    computedAtOnce .divide (.integer q.numer) (.integer q.denom) = some (.rational q) := by
  have hmake : (Exact.integer q.numer).divide (.integer q.denom) = .ok (.rational q) := by
    show Rational.make (q.numer * 1) (1 * q.denom) = _
    rw [Int.mul_one, Int.one_mul, Rational.make, h.reduce_eq_ok]
    show Except.ok q.collapse = _
    rw [Rational.collapse, if_neg (by omega)]
  show (((Exact.integer q.numer).divide (.integer q.denom)).map Value.ofExact).toOption = _
  rw [hmake]
  rfl

/-- A fraction as the quotient of its parts. -/
def Phrase.ofRational (q : Rational) : Phrase .sum :=
  .term (.divided (.factor (.ofInt q.numer)) (.ofInt q.denom))

theorem value_ofRational {q : Rational} (h : q.IsReduced) (hwhole : 1 < q.denom) :
    (Phrase.ofRational q).value computedAtOnce = some (.rational q) := by
  simp only [Phrase.ofRational, Phrase.value, value_ofInt h.numer_fits, value_ofInt h.denom_fits]
  exact divide_parts h hwhole

theorem height_ofRational (q : Rational) : (Phrase.ofRational q).tally.height = 1 := by
  have hnumer := height_ofInt q.numer
  have hdenom := height_ofInt q.denom
  simp only [Phrase.ofRational, Phrase.tally, Tally.and, Tally.operator, Tally.nested]
  omega

theorem terminals_ofRational (q : Rational) : (Phrase.ofRational q).terminals =
    (Phrase.ofInt q.numer).terminals ++ .sign .divide :: (Phrase.ofInt q.denom).terminals := rfl

theorem closed_append (xs ys : List Terminal) : closed (xs ++ ys) = closed xs ++ closed ys :=
  List.flatMap_append

/-- A fraction is written as the quotient of its parts. -/
theorem closed_ofRational (q : Rational) :
    closed (Phrase.ofRational q).terminals = q.text.toList := by
  have hsign : ∀ xs, closed (.sign .divide :: xs) = '/' :: closed xs := fun _ => rfl
  rw [terminals_ofRational, closed_append, hsign, closed_ofInt, closed_ofInt, Rational.text]
  simp

theorem tight_ofInt_alone (n : Int) : Tight (Phrase.ofInt n).terminals := by
  have hnil : BeginsApart (closed []) := beginsApart_nil
  have h := tight_ofInt hnil trivial n
  rwa [List.append_nil] at h

theorem tight_ofRational (q : Rational) : Tight (Phrase.ofRational q).terminals := by
  have hdivide : Operation.divide ≠ .subtract := by decide
  have hslash : SetsApart '/' := setsApart_sign hdivide '/' (by decide)
  have hquotient : Tight (.sign .divide :: (Phrase.ofInt q.denom).terminals) :=
    ⟨trivial, tight_ofInt_alone q.denom⟩
  have hbegins : BeginsApart (closed (.sign .divide :: (Phrase.ofInt q.denom).terminals)) :=
    beginsApart_cons hslash _
  exact tight_ofInt hbegins hquotient q.numer

end Calculator

/-! ## Names -/

namespace Value

/-- What the value names is spelled as a name. -/
def IsNamed : Value → Prop
  | var name => IsName name
  | negation inner => inner.IsNamed
  | _ => True

variable {v w u : Value}

theorem IsNamed.negate (h : v.IsNamed) (hw : v.negate = .ok w) : w.IsNamed := by
  cases v with
  | integer n =>
    obtain ⟨-, rfl⟩ := negate_integer_eq_ok hw
    trivial
  | real x =>
    cases hw
    trivial
  | rational q =>
    rw [Value.negate] at hw
    cases hq : q.neg with
    | error e =>
      rw [hq] at hw
      cases hw
    | ok p =>
      rw [hq] at hw
      cases hw
      trivial
  | negation inner =>
    cases hw
    exact h
  | var name =>
    cases hw
    exact h
  | node op operands =>
    cases hw
    trivial

/-- The result of an operation names nothing. -/
theorem isNamed_apply {op : Operation} (h : v.apply op w = .ok u) : u.IsNamed := by
  unfold Value.apply at h
  obtain ⟨a, -, h⟩ := bind_eq_ok h
  obtain ⟨b, -, h⟩ := bind_eq_ok h
  unfold Numeric.apply at h
  split at h
  · split at h
    · rename_i x y result _
      cases result with
      | error e => cases h
      | ok z =>
        cases h
        cases z <;> trivial
    · cases h
      trivial
  · cases h
    trivial

/-- Literals name nothing. -/
theorem isNamed_readNumber {text : String} (h : readNumber text = .ok v) : v.IsNamed := by
  obtain ⟨n, -, rfl⟩ | ⟨x, rfl⟩ := readNumber_eq_ok h <;> trivial

end Value

namespace Calculator

open Value (IsNamed IsComputed)

/-- A computed result names nothing but what a name in the text does. -/
theorem isNamed_of_evaluate {input : String} {a : Value} {stats : Stats}
    (h : evaluate input = some (.ok (a, stats))) : a.IsNamed := by
  rw [evaluate, ← Grammar.setMaxDepth_maxDepth arithmetic] at h
  obtain ⟨e, hterminals, he, -, -⟩ :=
    (Grammar.parse_eq_ok_iff_phrase (calculates_arithmetic _)).mp h
  refine e.of_value (P := IsNamed) ?_ ?_ ?_ (fun text ht => isName_of_terminals hterminals ht) he
  · exact fun text v hv => Value.isNamed_readNumber hv
  · exact fun v w hv hw => hv.negate hw
  · exact fun op v w u _ _ hu => Value.isNamed_apply (toOption_eq_some_iff.mp hu)

/-- A computed value that is no real number is read from its text. -/
theorem evaluate_text_of_isComputed {a : Value} (h : IsComputed a) (hn : a.IsNamed)
    (hreal : ∀ x, a ≠ .real x) : ∃ stats, evaluate a.text = some (.ok (a, stats)) := by
  cases h with
  | @integer n hfits =>
    have hheight : (Phrase.term (.factor (.ofInt n))).tally.height = 0 := height_ofInt n
    exact Phrase.evaluate_closed (e := .term (.factor (.ofInt n))) (closed_ofInt n).symm
      (tight_ofInt_alone n) (value_ofInt hfits) (by rw [hheight]; decide)
  | real x => exact absurd rfl (hreal x)
  | @rational q hq hwhole =>
    exact Phrase.evaluate_closed (closed_ofRational q).symm (tight_ofRational q)
      (value_ofRational hq hwhole) (by rw [height_ofRational]; decide)
  | var name =>
    have htext : (Value.var name).render = closed [.name name] := by
      simp [Value.render, closed, Terminal.chars]
    exact Phrase.evaluate_closed (e := .term (.factor (.plain (.name name)))) htext
      ⟨⟨hn, beginsApart_nil⟩, trivial⟩ rfl (Nat.zero_lt_succ _)
  | negation name =>
    have htext : (Value.negation (.var name)).render =
        closed [.sign .subtract, .name name] := by
      simp [Value.render, Value.wrap, Value.isNode, closed, Terminal.chars, Operation.sign]
    exact Phrase.evaluate_closed (e := .term (.factor (.negated (.plain (.name name))))) htext
      ⟨trivial, ⟨hn, beginsApart_nil⟩, trivial⟩ rfl (Nat.one_lt_succ_succ _)

/-- **The calculator reads every exact result that it prints as that result.** -/
theorem evaluate_text {input : String} {a : Value} {stats : Stats}
    (h : evaluate input = some (.ok (a, stats))) (hreal : ∀ x, a ≠ .real x) :
    ∃ stats', evaluate a.text = some (.ok (a, stats')) :=
  evaluate_text_of_isComputed ((values_canonical input).1 a stats h) (isNamed_of_evaluate h) hreal

/-- A negative fraction. -/
theorem evaluate_text_quotient :
    (∃ stats, evaluate "3/-2^2" = some (.ok (.rational ⟨-3, 4⟩, stats))) ∧
      ∃ stats, evaluate "-3/4" = some (.ok (.rational ⟨-3, 4⟩, stats)) := by
  have htext : (Value.rational ⟨-3, 4⟩).text = "-3/4" := by decide +kernel
  have hread := evaluate_text evaluate_quotient (fun _ h => by cases h)
  rw [htext] at hread
  exact ⟨⟨_, evaluate_quotient⟩, hread⟩

end Calculator

end Precedence
