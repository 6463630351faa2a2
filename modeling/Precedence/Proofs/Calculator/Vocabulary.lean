import Precedence.Proofs.Calculator.Tables
import Precedence.Proofs.Parsing.Readings

/-!
# Operands in any grammar that has them

Numbers, names, parentheses and the minus sign are read alike in every grammar whose table begins as
that of the calculators does, whatever operators it has.

* `readsAs_group`: what stands in parentheses is read as in an expression of its own.
* `readsAs_signed`: a minus sign and a number are one literal, if nothing behind them binds tighter
  than the sign.
* `readsAs_negated`: in front of anything else the sign gives the opposite.
-/

namespace Precedence

open Precedence.Source Calculator

namespace Grammar

/-- The table of the grammar begins with the symbols of operands, and the minus sign. -/
structure HasVocabulary (g : Grammar Value) : Prop where
  operands : operandSymbols <+: g.symbols
  minus : ∃ s, g.symbols[5]? = some s ∧ s.nud? = some minus

namespace HasVocabulary

variable {g : Grammar Value} {input : String} {c : Context} {t : Token} {i : Nat}
variable {s : Symbol Value}

theorem getElem? (hg : g.HasVocabulary) (h : operandSymbols[i]? = some s) :
    g.symbols[i]? = some s := by
  obtain ⟨rest, hrest⟩ := hg.operands
  rw [← hrest, List.getElem?_append_left (List.getElem?_eq_some_iff.mp h).1, h]

theorem nudAction (hg : g.HasVocabulary) (nud : Nud Value)
    (h : operandSymbols[t.symbol]?.bind (·.nud?) = some nud) : g.nudAction c t = nud c t := by
  obtain ⟨s, hs, hnud⟩ := Option.bind_eq_some_iff.mp h
  rw [Grammar.nudAction, hg.getElem? hs, Option.bind_some, hnud]

theorem nudAction_minus (hg : g.HasVocabulary) (ht : t.symbol = 5) :
    g.nudAction c t = Calculator.minus c t := by
  obtain ⟨s, hs, hnud⟩ := hg.minus
  rw [Grammar.nudAction, ht, hs, Option.bind_some, hnud]

theorem power (hg : g.HasVocabulary) (h : operandSymbols[i]? = some s) :
    (g.context input).power i = s.power :=
  power_context (hg.getElem? h)

theorem power_end (hg : g.HasVocabulary) : (g.context input).power 0 = 0 :=
  hg.power (s := Symbol.fresh endId none) rfl

theorem power_closing (hg : g.HasVocabulary) : (g.context input).power 3 = 0 :=
  hg.power (s := Symbol.fresh ")" (some (.literal ")"))) rfl

theorem id_closing (hg : g.HasVocabulary) : (g.context input).id 3 = ")" := by
  rw [Context.id, entry_context (hg.getElem? rfl)]
  rfl

/-- The number class is found behind the symbol for the end. -/
theorem index?_number (hg : g.HasVocabulary) :
    (g.context input).index? (classId "number") = some 1 := by
  obtain ⟨rest, hrest⟩ := hg.operands
  simp [Context.index?, context, entries, ← hrest, operandSymbols, Symbol.fresh, classId, endId,
    List.findIdx?_cons]

end HasVocabulary

/-! ## Readings of operands -/

variable {g : Grammar Value} {input : String} {ws : List Word} {v u : Value} {least most : Nat}
variable {text sign : String}

theorem Acts.takeToken {c : Context} {s s' : Session} {t : Token} (h : s.take c = (.ok t, s')) :
    g.Acts c .takeToken s t s' :=
  ⟨0, by rw [act_takeToken, h]⟩

/-- A name is read as itself. -/
theorem readsAs_name (hg : g.HasVocabulary) :
    g.ReadsAs (g.context input) [(2, text)] (.var text) least most := by
  refine readsAs_atom fun t ht => ?_
  obtain ⟨hsymbol, rfl⟩ := Prod.mk.inj ht
  rw [hg.nudAction (Build.literalNud convertName) (by rw [hsymbol]; rfl)]
  rfl

/-- A number is read as its value. -/
theorem readsAs_number (hg : g.HasVocabulary) (h : Value.readNumber text = .ok v) :
    g.ReadsAs (g.context input) [(1, text)] v least most := by
  refine readsAs_atom fun t ht => ?_
  obtain ⟨hsymbol, rfl⟩ := Prod.mk.inj ht
  rw [hg.nudAction (Build.literalNud convertNumber) (by rw [hsymbol]; rfl)]
  unfold Build.literalNud convertNumber
  rw [h]

/-- **What stands in parentheses is read as an expression of its own.** -/
theorem readsAs_group (hg : g.HasVocabulary) {opening closing : String}
    (h : g.ReadsAs (g.context input) ws v 0 0) :
    g.ReadsAs (g.context input) ((4, opening) :: ws ++ [(3, closing)]) v least most := by
  obtain ⟨nesting, h⟩ := h.expresses
  refine ⟨nesting, fun limit depth rest s hs _ hlimit => ?_⟩
  have hzero : (g.context input).headPower ((3, closing) :: rest) = 0 := hg.power_closing
  rw [List.cons_append, List.cons_append, List.append_assoc] at hs
  obtain ⟨t, s₁, ht, hw, hs₁⟩ := hs.take (c := g.context input)
  obtain ⟨s₂, hs₂, hinner⟩ := h limit depth _ s₁.countNud hs₁.countNud (Nat.le_of_eq hzero)
    (Nat.le_of_eq hzero) hlimit
  obtain ⟨t₁, s₃, hp, hw₁, hs₃⟩ := hs₂.peek_cons (c := g.context input)
  obtain ⟨t₂, s₄, htake, -, hs₄⟩ := hs₃.take (c := g.context input)
  obtain ⟨hsymbol, -⟩ := Prod.mk.inj hw
  obtain ⟨hclosing, -⟩ := Prod.mk.inj hw₁
  refine ⟨s₄, hs₄, fun w s' hr => Begins.intro ht ?_ hr⟩
  rw [show (g.setMaxDepth limit).nudAction (g.context input) t = g.nudAction _ t from rfl,
    hg.nudAction parentheses (by rw [hsymbol]; rfl)]
  have hexpected : (g.setMaxDepth limit).Acts (g.context input)
      (.takeExpected (g.context input) ")") s₂ t₂ s₄ := by
    unfold Action.takeExpected
    refine Acts.bind (Acts.peekToken hp) ?_
    rw [if_neg (by rw [Token.isEnd, hclosing]; decide),
      if_neg (by rw [hclosing, hg.id_closing]; decide)]
    exact Acts.takeToken htake
  unfold parentheses
  exact Acts.bind (Acts.operand hinner) (Acts.bind hexpected (Acts.pure v))

/-- **A minus sign and a number are one literal,** if nothing behind them binds tighter than the
sign. -/
theorem readsAs_signed (hg : g.HasVocabulary) (h : Value.readNumber ("-" ++ text) = .ok v)
    (hmost : most ≤ signPower) :
    g.ReadsAs (g.context input) [(5, sign), (1, text)] v least most := by
  refine ⟨0, fun limit depth rest s hs hrest _ => ?_⟩
  obtain ⟨t, s₁, ht, hw, hs₁⟩ := hs.take (c := g.context input)
  obtain ⟨t₁, s₂, hp, hw₁, hs₂⟩ := hs₁.countNud.peek_cons (c := g.context input)
  obtain ⟨t₂, s₃, htake, hw₂, hs₃⟩ := hs₂.take (c := g.context input)
  obtain ⟨t₃, s₄, hp', hs₄, hpower⟩ := hs₃.peek (c := g.context input)
  obtain ⟨hsymbol, -⟩ := Prod.mk.inj hw
  obtain ⟨hnumber, -⟩ := Prod.mk.inj hw₁
  obtain ⟨-, rfl⟩ := Prod.mk.inj hw₂
  refine ⟨s₄, hs₄, fun w s' hr => Begins.intro ht ?_ hr⟩
  rw [show (g.setMaxDepth limit).nudAction (g.context input) t = g.nudAction _ t from rfl,
    hg.nudAction_minus hsymbol]
  unfold Calculator.minus
  refine Acts.bind (Acts.peekToken hp) ?_
  rw [if_pos (by rw [hg.index?_number, hnumber])]
  refine Acts.bind (Acts.takeToken htake) (Acts.bind (Acts.peekToken hp') ?_)
  rw [if_pos (by rw [hpower]; exact Nat.le_trans hrest hmost)]
  unfold literalAt
  rw [h]
  exact Acts.pure v

/-- **In front of what is no number a minus sign gives the opposite** of the operand behind it. -/
theorem readsAs_negated (hg : g.HasVocabulary) {w : Word} (hw : w.1 ≠ 1)
    (h : g.ReadsAs (g.context input) (w :: ws) u signPower most) (hmost : most ≤ signPower)
    (hv : u.negate = .ok v) : g.ReadsAs (g.context input) ((5, sign) :: w :: ws) v least most := by
  obtain ⟨nesting, h⟩ := h.expresses
  refine ⟨nesting, fun limit depth rest s hs hrest hlimit => ?_⟩
  obtain ⟨t, s₁, ht, hword, hs₁⟩ := hs.take (c := g.context input)
  obtain ⟨t₁, s₂, hp, hword₁, hs₂⟩ := hs₁.countNud.peek_cons (c := g.context input)
  obtain ⟨s₃, hs₃, hinner⟩ := h limit depth rest s₂ hs₂ hrest (Nat.le_trans hrest hmost) hlimit
  obtain ⟨hsymbol, -⟩ := Prod.mk.inj hword
  refine ⟨s₃, hs₃, fun x s' hr => Begins.intro ht ?_ hr⟩
  rw [show (g.setMaxDepth limit).nudAction (g.context input) t = g.nudAction _ t from rfl,
    hg.nudAction_minus hsymbol]
  unfold Calculator.minus
  refine Acts.bind (Acts.peekToken hp) ?_
  have hother : t₁.symbol ≠ 1 := by
    rw [← show t₁.word.1 = t₁.symbol from rfl, hword₁]
    exact hw
  rw [hg.index?_number, if_neg fun hnumber => hother (Option.some.inj hnumber).symm]
  refine Acts.bind (Acts.operand hinner) ?_
  unfold oppositeAt
  rw [hv]
  exact Acts.pure v

end Grammar

end Precedence
