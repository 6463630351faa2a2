import Precedence.Proofs.Building.Growth
import Precedence.Proofs.Calculator.Addition

/-!
# Calculators with more symbols

A calculator gets more symbols: names of operators, before, behind and between operands, and symbols
that do nothing. Its own symbols look at a table for the class of numbers, for the closing
parenthesis and for the powers of the tokens that they meet, and find there what they found before.
So a text in which none of the new symbols occurs is parsed as before.

* `isLocal_calculatorSymbols`: no symbol of a calculator looks at what its table gains.
* `isCurrent_calculatorGrammar`: a calculator keeps the recognizer for its table.
* `parse_without_new_symbols`: the parse of a text before and after any registrations of new symbols
  that do not occur in it.
-/

namespace Precedence

namespace Calculator

open Grammar Precedence.Action

variable {c c' : Context}

/-! ## What the symbols look at -/

theorem agreesOn_literalAt (h : c.Extends c') {known : Nat → Prop} (text : String)
    (span : Source.Span) : (literalAt c text span).AgreesOn known (literalAt c' text span) :=
  .of_eq (by rw [literalAt, literalAt, Context.errorAt_eq h.input])

theorem agreesOn_oppositeAt (h : c.Extends c') {known : Nat → Prop} (v : Value)
    (span : Source.Span) : (oppositeAt c v span).AgreesOn known (oppositeAt c' v span) :=
  .of_eq (by rw [oppositeAt, oppositeAt, Context.errorAt_eq h.input])

theorem agreesOn_literalNud (h : c.Extends c') {known : Nat → Prop}
    (convert : String → Except String Value) (t : Token) :
    (Build.literalNud convert c t).AgreesOn known (Build.literalNud convert c' t) :=
  .of_eq (by rw [Build.literalNud, Build.literalNud, Context.errorAt_eq h.input])

theorem agreesOn_takeExpected (h : c.Extends c') (id : String) :
    (takeExpected c id : Action Value Token).AgreesOn (· < c.entries.length) (takeExpected c' id) :=
  .peekToken_bind fun t ht => .of_eq (by rw [Context.errorAt_eq h.input, h.id_eq ht])

theorem agreesOn_parentheses (h : c.Extends c') (t : Token) :
    (parentheses c t).AgreesOn (· < c.entries.length) (parentheses c' t) :=
  (AgreesOn.refl _).bind fun _ => (agreesOn_takeExpected h ")").bind fun _ => .refl _

/-- The minus sign finds the class of numbers where it was. -/
theorem agreesOn_minus (h : c.Extends c') (hnumber : c.index? (classId "number") = some 1)
    (t : Token) : (minus c t).AgreesOn (· < c.entries.length) (minus c' t) := by
  refine .peekToken_bind fun next _ => ?_
  rw [hnumber, h.index?_eq hnumber]
  split
  · refine (AgreesOn.refl _).bind fun number => .peekToken_bind fun following hfollowing => ?_
    rw [h.power_eq hfollowing]
    split
    · exact agreesOn_literalAt h _ _
    · exact (agreesOn_literalAt h _ _).bind fun _ => (AgreesOn.refl _).bind fun v =>
        agreesOn_oppositeAt h v _
  · exact (AgreesOn.refl _).bind fun v => agreesOn_oppositeAt h v _

theorem agreesOn_computed (h : c.Extends c') {known : Nat → Prop} (op : Operation)
    (rightPower : Nat) (t : Token) (left : Value) :
    (computed op rightPower c t left).AgreesOn known (computed op rightPower c' t left) :=
  (AgreesOn.refl _).bind fun _ => .of_eq (by rw [Context.errorAt_eq h.input])

/-! ## The calculators -/

/-- **No symbol of a calculator looks at what its table gains,** if its operations do not. -/
theorem isLocal_calculatorSymbols {operator? : Operation → Option Operator}
    {led : Operation → Led Value} (hnumber : c.index? (classId "number") = some 1)
    (hled : ∀ op c', c.Extends c' → ∀ t left,
      (led op c t left).AgreesOn (· < c.entries.length) (led op c' t left))
    {s : Symbol Value} (hs : s ∈ calculatorSymbols operator? led) : s.IsLocal c := by
  simp only [calculatorSymbols, operandSymbols, List.mem_append, List.mem_cons,
    List.not_mem_nil, or_false] at hs
  constructor
  · intro f hf c' h
    rcases hs with (rfl | rfl | rfl | rfl | rfl) | rfl | rfl | rfl | rfl | rfl <;> cases hf
    · exact agreesOn_literalNud h convertNumber
    · exact agreesOn_literalNud h convertName
    · exact agreesOn_parentheses h
    · exact agreesOn_minus h hnumber
  · intro f hf c' h
    rcases hs with (rfl | rfl | rfl | rfl | rfl) | rfl | rfl | rfl | rfl | rfl <;> cases hf
    all_goals exact hled _ c' h

/-- The recognizer that a calculator keeps is the one for its table. -/
theorem isCurrent_calculatorGrammar (operator? : Operation → Option Operator)
    (led : Operation → Led Value) : (calculatorGrammar operator? led).IsCurrent := by
  intro r hr
  cases hr
  exact ofEntries_calculatorSymbols operator? led

theorem ids_calculatorGrammar (operator? : Operation → Option Operator)
    (led : Operation → Led Value) : (calculatorGrammar operator? led).ids =
      ["(end)", "(number)", "(name)", ")", "(", "-", "+", "*", "/", "^"] :=
  rfl

variable {g : Grammar Value}

/-- What the calculators have in common: no operation looks at what the table gains. -/
theorem exists_eq_calculatorGrammar (hg : g = arithmetic ∨ g = algebra) :
    ∃ operator? led, g = calculatorGrammar operator? led ∧
      ∀ op (c c' : Context), c.Extends c' → ∀ t left,
        (led op c t left).AgreesOn (· < c.entries.length) (led op c' t left) := by
  rcases hg with h | h
  · exact ⟨_, _, h.trans arithmetic_eq, fun op _ _ h => agreesOn_computed h op op.rightPower⟩
  · exact ⟨_, _, h.trans algebra_eq, fun _ _ _ _ _ _ => .refl _⟩

/-- **Symbols that do not occur in a text have no part in its parse.** Whatever a calculator is told
to register for ids that it does not know and that are no names in parentheses, the result for a
text that none of them occurs in stays the same: the value and the statistics, or the kind, the
message and the place of the error. -/
theorem parse_without_new_symbols (hg : g = arithmetic ∨ g = algebra)
    {rs : List (Registration Value)} {input : String}
    (hclass : ∀ r ∈ rs, isClassId r.target = false) (hfresh : ∀ r ∈ rs, g.index? r.target = none)
    (habsent : ∀ r ∈ rs, ¬ r.target.toList <:+: input.toList)
    {x : Recognizer} (hx : (g.after (rs.map .register)).recognizer = .ok x) :
    (g.after (rs.map .register)).parse input = g.parse input := by
  obtain ⟨operator?, led, rfl, hled⟩ := exists_eq_calculatorGrammar hg
  have hnumber := index?_number_of_symbols (g := calculatorGrammar operator? led) rfl input
  have hne : (calculatorGrammar operator? led).entries ≠ [] := List.cons_ne_nil _ _
  have hnodup : (calculatorGrammar operator? led).ids.Nodup := by
    rw [ids_calculatorGrammar]
    decide
  refine parse_after_register hne hnodup (isCurrent_calculatorGrammar operator? led) rfl hx
    (fun s hs => isLocal_calculatorSymbols hnumber (fun op => hled op _) hs) fun r hr => ?_
  exact ⟨hclass r hr, index?_eq_none_iff_ids.mp (hfresh r hr), habsent r hr⟩

/-- `algebra` with a sign that begins with one of its own, a word that a name may begin with, and a
sign behind operands, for a text with none of them. -/
theorem parse_without_new_symbols_overlapping :
    let rs : List (Registration Value) :=
      [.algebraic "**" 70 true true, .before "sin" 90, .after "!" 100]
    (∀ r ∈ rs, isClassId r.target = false) ∧ (∀ r ∈ rs, algebra.index? r.target = none) ∧
      (∀ r ∈ rs, ¬ r.target.toList <:+: "2 * x - si".toList) ∧
      (∃ x, (algebra.after (rs.map .register)).recognizer = .ok x) ∧
      (algebra.after (rs.map .register)).parse "2 * x - si" = algebra.parse "2 * x - si" := by
  intro rs
  have hclass : ∀ r ∈ rs, isClassId r.target = false := by decide +kernel
  have hids : ∀ r ∈ rs, r.target ∉ algebra.ids := by
    rw [algebra_eq, ids_calculatorGrammar]
    decide +kernel
  have hfresh : ∀ r ∈ rs, algebra.index? r.target = none := fun r hr =>
    index?_eq_none_iff_ids.mpr (hids r hr)
  have habsent : ∀ r ∈ rs, ¬ r.target.toList <:+: "2 * x - si".toList := by decide +kernel
  have hsome : (algebra.after (rs.map .register)).recognizer.toOption.isSome = true := by
    rw [algebra_eq]
    decide +kernel
  obtain ⟨x, hx⟩ := Option.isSome_iff_exists.mp hsome
  have hok := recognizer_eq_ok_of_toOption hx
  exact ⟨hclass, hfresh, habsent, ⟨x, hok⟩,
    parse_without_new_symbols (.inr rfl) hclass hfresh habsent hok⟩

end Calculator

end Precedence
