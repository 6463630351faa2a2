import Precedence.Proofs.Calculator.Repertoire
import Precedence.Value.Rendering

/-!
# Signs that the text behind them reaches

A minus sign takes everything behind it that binds tighter than the sign. In the text of a value a
sign is exposed if no parentheses close off its operand at the end of the text. A value is sheltered
if no exposed sign stands in front of an operator that binds tighter than the sign.

Parentheses are put around first operands that are signed, so that only operands further on, and
nodes that end in one, can be exposed where they should not be.

* `IsBuilt.isSheltered`: where only operators that do not flatten bind tighter than the sign,
  and none binds tighter than these, all values are sheltered.
* `IsBuilt.stands`: what may stand behind an operand without parentheses, and in front of it.
-/

namespace Precedence

open Operator (IsRepertoire)

namespace Value

/-! ## Exposed signs -/

mutual

/-- Whether the text of the value, an operand or a node between whose operands operators stand, ends
in the operand of a minus sign that no parentheses close off. -/
def isExposed : Value → Bool
  | node op operands => endsExposed op true operands
  | v => v.prefixPower?.isSome

/-- Whether the last of the operands of a node ends so, as it stands in the text of the node;
`first` says that no operand came before. -/
def endsExposed (op : Operator) (first : Bool) : List Value → Bool
  | [] => false
  | v :: rest =>
    if rest.isEmpty then !v.needsParens op first && isExposed v else endsExposed op false rest

end

/-- Whether the sign of an operand of a node, if it has one, does not reach what stands behind the
operand: nothing of the node does, or the operator binds no tighter than the sign, or parentheses
close off the sign. -/
def isClear (op : Operator) (first last : Bool) (v : Value) : Bool :=
  last || decide (op.power ≤ signPower) || v.needsParens op first || !isExposed v

mutual

/-- Whether no operator in the text of the value that binds tighter than a minus sign stands behind
an exposed one. -/
def isSheltered : Value → Bool
  | negation inner => isSheltered inner
  | node op operands => areSheltered op true operands
  | integer _ | real _ | rational _ | var _ => true

/-- Whether that holds of the operands of a node, and of what stands between them; `first` says that
no operand came before. -/
def areSheltered (op : Operator) (first : Bool) : List Value → Bool
  | [] => true
  | v :: rest =>
    isSheltered v && isClear op first rest.isEmpty v && areSheltered op false rest

end

variable {known : Operator → Prop} {op tag : Operator} {v w : Value} {vs : List Value}
variable {first : Bool}

theorem prefixPower?_cases (v : Value) :
    v.prefixPower? = none ∨ v.prefixPower? = some signPower := by
  unfold prefixPower?
  split <;> first | exact .inr rfl | exact .inl rfl | skip
  all_goals
    split
    · exact .inr rfl
    · exact .inl rfl

/-- In front of an operator that binds tighter than the sign an exposed operand is not clear. -/
theorem power_le_of_isClear (h : isClear op first false v = true)
    (hparens : v.needsParens op first = false) (hexposed : v.isExposed = true) :
    op.power ≤ signPower := by
  simpa [isClear, hparens, hexposed] using h

theorem areSheltered_of_le (hpower : op.power ≤ signPower) (h : ∀ v ∈ vs, v.isSheltered = true) :
    areSheltered op first vs = true := by
  induction vs generalizing first with
  | nil => rfl
  | cons v vs ih =>
    simp [areSheltered, isClear, hpower, h v List.mem_cons_self,
      ih fun w hw => h w (List.mem_cons_of_mem v hw)]

/-- A signed first operand is in parentheses if the operator binds tighter than the sign. -/
theorem power_le_of_not_isNode (hv : v.isNode = false) (hparens : v.needsParens op true = false)
    (hexposed : v.isExposed = true) : op.power ≤ signPower := by
  cases v with
  | node tag vs => cases hv
  | integer _ | real _ | rational _ | negation _ | var _ =>
    simp only [isExposed, needsParens, Bool.true_and] at hexposed hparens
    rcases prefixPower?_cases _ with hnone | hsome
    · rw [hnone] at hexposed
      cases hexposed
    · rw [hsome] at hparens
      exact Nat.not_lt.mp (of_decide_eq_false hparens)

/-- A first operand is in parentheses or not exposed, if the operator binds tighter than the sign
and no node of a tighter one is the operand. -/
theorem IsBuilt.needsParens_or_not_isExposed (hk : IsRepertoire known) (hop : known op)
    (hassociative : op.associative = false) (hpower : signPower < op.power)
    (htight : ∀ inner, known inner → inner.power ≤ op.power) (h : IsBuilt known v) :
    v.needsParens op true = true ∨ v.isExposed = false := by
  cases hparens : v.needsParens op true with
  | true => exact .inl rfl
  | false =>
    refine .inr (Bool.eq_false_iff.mpr fun hexposed => ?_)
    cases v with
    | node tag vs =>
      have hlt := h.power_lt hk hop hparens fun hassociative' =>
        absurd (hassociative.symm.trans hassociative') Bool.false_ne_true
      exact absurd (htight tag h.known_tag) (Nat.not_le.mpr hlt)
    | integer _ | real _ | rational _ | negation _ | var _ =>
      exact absurd (power_le_of_not_isNode rfl hparens hexposed) (Nat.not_le.mpr hpower)

/-- **Where only operators that do not flatten bind tighter than the sign, and none binds tighter
than these, all values are sheltered.** -/
theorem IsBuilt.isSheltered (hk : IsRepertoire known)
    (htight : ∀ op, known op → signPower < op.power →
      op.associative = false ∧ ∀ inner, known inner → inner.power ≤ op.power)
    (h : IsBuilt known v) : v.isSheltered = true := by
  induction h with
  | integer | real | var => rfl
  | negation _ _ ih => exact ih
  | @pair op v w hop hassociative hv hw ihv ihw =>
    have hfirst : op.power ≤ signPower ∨ v.needsParens op true = true ∨ v.isExposed = false := by
      by_cases hpower : op.power ≤ signPower
      · exact .inl hpower
      · obtain ⟨-, hinner⟩ := htight op hop (Nat.not_le.mp hpower)
        exact .inr (hv.needsParens_or_not_isExposed hk hop hassociative (Nat.not_le.mp hpower)
          hinner)
    rw [Value.isSheltered, areSheltered, areSheltered, areSheltered, ihv, ihw]
    rcases hfirst with h | h | h <;> simp [isClear, h]
  | @chain op vs hop hassociative hlength hvs hflat ih =>
    refine areSheltered_of_le (Nat.not_lt.mp fun hpower => ?_) ih
    exact Bool.false_ne_true ((htight op hop hpower).1.symm.trans hassociative)

/-! ## Around an operand -/

/-- An operator that asks for operators tighter than `least` may take the value as its operand. -/
def Binds (least : Nat) (v : Value) : Prop :=
  ∀ op operands, v = node op operands → least < op.power

/-- An operator that binds no tighter than `most` may stand behind the value. -/
structure Admits (most : Nat) (v : Value) : Prop where
  rightPower : ∀ op operands, v = node op operands → most ≤ op.rightPower
  signPower : v.isExposed = true → most ≤ signPower

/-- **What may stand around an operand without parentheses** besides its own operator. -/
theorem IsBuilt.stands {least most : Nat} (hk : IsRepertoire known) (hop : known op)
    (h : IsBuilt known v) (hparens : v.needsParens op first = false)
    (hflat : op.associative = true → Term.contribution op v = [v]) (hleast : least ≤ op.power)
    (hmost : most ≤ op.power) (hexposed : v.isExposed = true → most ≤ signPower) :
    v.Binds least ∧ v.Admits most := by
  have hlt : ∀ tag vs, v = node tag vs → op.power < tag.power := by
    rintro tag vs rfl
    exact h.power_lt hk hop hparens hflat
  refine ⟨fun tag vs hv => ?_, fun tag vs hv => ?_, hexposed⟩
  · exact Nat.lt_of_le_of_lt hleast (hlt tag vs hv)
  · have hpower := hlt tag vs hv
    have hright := tag.power_le_rightPower
    omega

end Value

end Precedence
