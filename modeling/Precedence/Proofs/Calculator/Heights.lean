import Precedence.Proofs.Calculator.Trees
import Precedence.Proofs.Calculator.Writing

/-!
# The height of values

The limit to the depth of a parse bounds the nesting of expressions, not the height of the tree that
the parse returns: one expression takes any number of operators in a row, each with all that came
before as its first operand, and a minus sign before a power of a number makes no expression of its
own. `Value.nesting` is the height without these steps.

* `nesting_combine_le`: what an operation adds to the nesting of its operands.
* `nesting_value_le`: the value of a phrase nests no deeper than the parse that finds the phrase.
* `algebra_nesting_lt`: so the limit bounds the nesting of every value, while its height is only
  bounded by the length of the text.
* `algebra_differences`: under a limit of two there are values of every height.
-/

namespace Precedence

open Precedence.Number Calculator

namespace Value

/-! ## Measures -/

mutual

/-- The most nodes and negations on a way down the value. -/
def height : Value → Nat
  | negation inner => height inner + 1
  | node _ operands => greatestHeight operands + 1
  | integer _ | real _ | rational _ | var _ => 0

/-- The greatest height of the values. -/
def greatestHeight : List Value → Nat
  | [] => 0
  | v :: rest => max (height v) (greatestHeight rest)

end

/-- Whether an operator that stands behind the value, as it is written without parentheses around
it, takes all of it as its first operand. -/
def standsBefore (op : Operator) : Value → Bool
  | node inner _ => op.power ≤ inner.rightPower
  | negation _ => op.power ≤ signPower
  | integer _ | real _ | rational _ | var _ => true

/-- Whether the value is a number. -/
def isNumber : Value → Bool
  | integer _ | real _ | rational _ => true
  | negation _ | var _ | node _ _ => false

/-- Whether an operator claims a number, so that a minus sign before it is not part of a literal. -/
def isClaimedNumber : Value → Bool
  | node op (v :: _) => signPower < op.power && v.isNumber
  | _ => false

mutual

/-- The most steps on a way down the value, where the step to a first operand that needs no
parentheses does not count, nor does the one from a minus sign to a number that an operator
claims. -/
def nesting : Value → Nat
  | negation inner => if inner.isClaimedNumber then nesting inner else nesting inner + 1
  | node op operands => operandNesting op true operands
  | integer _ | real _ | rational _ | var _ => 0

/-- The nesting of a node with these operands; `first` says that no operand came before. -/
def operandNesting (op : Operator) (first : Bool) : List Value → Nat
  | [] => 0
  | v :: rest =>
    max (if first && v.standsBefore op then nesting v else nesting v + 1)
      (operandNesting op false rest)

end

/-- How deep the operand of an operator nests, as its first operand or as a later one. -/
def nestingAs (op : Operator) (first : Bool) (v : Value) : Nat :=
  if first && v.standsBefore op then v.nesting else v.nesting + 1

variable {op : Operation} {v w : Value} {tag : Operator} {vs ws : List Value}

theorem operandNesting_cons (tag : Operator) (first : Bool) (v : Value) (vs : List Value) :
    operandNesting tag first (v :: vs) =
      max (v.nestingAs tag first) (operandNesting tag false vs) := rfl

theorem nestingAs_false (tag : Operator) (v : Value) : v.nestingAs tag false = v.nesting + 1 := rfl

theorem nestingAs_le (tag : Operator) (first : Bool) (v : Value) :
    v.nestingAs tag first ≤ v.nesting + 1 := by
  unfold nestingAs
  split <;> omega

theorem nestingAs_of_standsBefore (h : v.standsBefore tag = true) :
    v.nestingAs tag true = v.nesting := by
  simp [nestingAs, h]

/-- A later operand counts one step more than a first one at most. -/
theorem operandNesting_false_le (tag : Operator) (vs : List Value) :
    operandNesting tag false vs ≤ operandNesting tag true vs + 1 := by
  cases vs with
  | nil => exact Nat.zero_le _
  | cons v vs =>
    have hv : v.nesting ≤ v.nestingAs tag true := by
      unfold nestingAs
      split <;> omega
    rw [operandNesting_cons, operandNesting_cons, nestingAs_false]
    omega

theorem operandNesting_le_false (tag : Operator) (first : Bool) (vs : List Value) :
    operandNesting tag first vs ≤ operandNesting tag false vs := by
  cases vs with
  | nil => exact Nat.le_refl 0
  | cons v vs =>
    have hv := nestingAs_le tag first v
    rw [operandNesting_cons, operandNesting_cons, nestingAs_false]
    omega

theorem operandNesting_append_le (tag : Operator) (first : Bool) (vs ws : List Value) :
    operandNesting tag first (vs ++ ws) ≤
      max (operandNesting tag first vs) (operandNesting tag false ws) := by
  induction vs generalizing first with
  | nil =>
    have hws := operandNesting_le_false tag first ws
    rw [List.nil_append]
    omega
  | cons v vs ih =>
    have hvs := ih false
    rw [List.cons_append, operandNesting_cons, operandNesting_cons]
    omega

theorem greatestHeight_append (vs ws : List Value) :
    greatestHeight (vs ++ ws) = max (greatestHeight vs) (greatestHeight ws) := by
  induction vs with
  | nil => simp [greatestHeight]
  | cons v vs ih => rw [List.cons_append, greatestHeight, greatestHeight, ih, Nat.max_assoc]

/-! ## Operations and minus signs -/

theorem standsBefore_node {inner : Operation} (vs : List Value)
    (h : (Level.left op).bottom < (Level.of inner).floor) :
    (node inner.operator vs).standsBefore op.operator = true := by
  refine decide_eq_true ?_
  revert h
  cases op <;> cases inner <;> decide

/-- Only a power takes less than all of a negation, and a negation is no left operand of a power. -/
theorem standsBefore_negation (v : Value) (h : (Level.left op).bottom < Level.signed.floor) :
    (negation v).standsBefore op.operator = true := by
  refine decide_eq_true ?_
  revert h
  cases op <;> decide

/-- What a value gives to a sum or a product nests no deeper than the value as an operand. -/
theorem IsTree.operandNesting_contribution_le (h : IsTree v)
    (hop : op.operator.associative = true) (first : Bool) :
    operandNesting op.operator first (Term.contribution op.operator v) ≤
      v.nestingAs op.operator first := by
  rcases contribution_cases op.operator v with ⟨tag, vs, rfl, hk, hvs⟩ | hself
  · obtain ⟨inner, rfl⟩ := h.exists_operator
    rw [Operation.sameKind_operator] at hk
    subst hk
    have hstands : (node inner.operator vs).standsBefore inner.operator = true := by
      refine decide_eq_true ?_
      revert hop
      cases inner <;> decide
    rw [hvs]
    cases first with
    | true =>
      rw [nestingAs_of_standsBefore hstands]
      exact Nat.le_refl _
    | false => exact operandNesting_false_le _ _
  · rw [hself, operandNesting_cons]
    simp [operandNesting]

/-- **What an operation adds to the nesting of its operands.** -/
theorem IsTree.nesting_combine_le (op : Operation) (hv : IsTree v) (hw : IsTree w) :
    (Term.combine op.operator v w).nesting ≤
      max (v.nestingAs op.operator true) (w.nesting + 1) := by
  by_cases hop : op.operator.associative = true
  · have hleft := hv.operandNesting_contribution_le hop true
    have hright := hw.operandNesting_contribution_le hop false
    rw [nestingAs_false] at hright
    rw [hv.combine_eq_node hop, nesting]
    exact Nat.le_trans (operandNesting_append_le _ _ _ _) (by omega)
  · rw [Bool.not_eq_true] at hop
    refine Nat.le_of_eq ?_
    rw [Term.combine_of_not_associative hop, term_node, nesting, operandNesting_cons,
      operandNesting_cons, nestingAs_false, operandNesting, Nat.max_zero]

/-- Numbers have no steps, and every operator takes them. -/
theorem of_isNumber (h : v.isNumber = true) :
    v.nesting = 0 ∧ v.height = 0 ∧ ∀ tag, v.standsBefore tag = true := by
  cases v with
  | integer _ | real _ | rational _ => exact ⟨rfl, rfl, fun _ => rfl⟩
  | negation _ | var _ | node _ _ => cases h

/-- What a minus sign does: the opposite of a number is one, a negation is taken off, and a name or
a node gets one. -/
theorem negate_eq_ok (h : v.negate = .ok w) :
    w.isNumber = true ∨ v = negation w ∨ v.IsBare ∧ w = negation v := by
  cases v with
  | integer n =>
    obtain ⟨-, rfl⟩ := negate_integer_eq_ok h
    exact .inl rfl
  | real x =>
    cases h
    exact .inl rfl
  | rational q =>
    cases hq : q.neg with
    | error e => simp [negate, hq, Except.map] at h
    | ok q' =>
      simp only [negate, hq, Except.map, Except.ok.injEq] at h
      subst h
      exact .inl rfl
  | negation inner =>
    cases h
    exact .inr (.inl rfl)
  | var name =>
    cases h
    exact .inr (.inr ⟨trivial, rfl⟩)
  | node op operands =>
    cases h
    exact .inr (.inr ⟨trivial, rfl⟩)

theorem nesting_le_negation (v : Value) : v.nesting ≤ (negation v).nesting := by
  rw [nesting]
  split <;> omega

theorem nesting_negation_le (v : Value) : (negation v).nesting ≤ v.nesting + 1 := by
  rw [nesting]
  split <;> omega

/-- An operation is the operator of its node. -/
theorem IsTree.exists_combine_eq_node (hv : IsTree v) (op : Operation) (w : Value) :
    ∃ us, Term.combine op.operator v w = node op.operator us := by
  by_cases hop : op.operator.associative = true
  · exact ⟨_, hv.combine_eq_node hop w⟩
  · rw [Bool.not_eq_true] at hop
    exact ⟨_, Term.combine_of_not_associative hop v w⟩

theorem greatestHeight_contribution_le (tag : Operator) (v : Value) :
    greatestHeight (Term.contribution tag v) ≤ v.height := by
  rcases contribution_cases tag v with ⟨inner, vs, rfl, -, hvs⟩ | hself
  · rw [hvs]
    exact Nat.le_succ _
  · simp [hself, greatestHeight]

theorem height_combine_le (tag : Operator) (v w : Value) :
    (Term.combine tag v w).height ≤ max v.height w.height + 1 := by
  by_cases htag : tag.associative = true
  · obtain ⟨tag', -, -, hnode⟩ := combine_eq_node htag v w
    have hv := greatestHeight_contribution_le tag v
    have hw := greatestHeight_contribution_le tag w
    rw [hnode, height, greatestHeight_append]
    omega
  · rw [Bool.not_eq_true] at htag
    simp [Term.combine_of_not_associative htag, height, greatestHeight]

end Value

/-! ## Phrases -/

namespace Calculator

namespace Phrase

open Value

theorem isNumber_readNumber {text : String} {v : Value} (h : readNumber text = .ok v) :
    v.isNumber = true := by
  obtain ⟨n, -, rfl⟩ | ⟨x, rfl⟩ := readNumber_eq_ok h
  · rfl
  · rfl

/-- A phrase that begins with a number and is none has a number that an operator claims. -/
theorem isClaimedNumber_value {u : Phrase .signed} (hhead : u.head?.isSome = true)
    (hliteral : u.literal? = none) {v : Value} (h : u.value kept = some v) :
    v.isClaimedNumber = true := by
  cases u with
  | plain a =>
    cases a with
    | number text => cases hliteral
    | name text => cases hhead
    | group e => cases hhead
  | raised a b =>
    cases a with
    | number text =>
      obtain ⟨x, hx, h⟩ := Option.bind_eq_some_iff.mp h
      obtain ⟨y, -, h⟩ := Option.bind_eq_some_iff.mp h
      cases h
      exact isNumber_readNumber (toOption_eq_some_iff.mp hx)
    | name text => cases hhead
    | group e => cases hhead
  | negated u => cases hhead

variable {N : Level}

/-- What the value of a minus sign and its operand is: a number, or the opposite of the operand. -/
theorem of_value_negated {u : Phrase .signed} {w : Value} (h : (negated u).value kept = some w) :
    w.isNumber = true ∨
      ∃ v, u.literal? = none ∧ u.value kept = some v ∧ (v = negation w ∨ w = negation v) := by
  obtain ⟨text, -, h⟩ | ⟨hliteral, v, hv, h⟩ := value_negated_eq_some_iff.mp h
  · exact .inl (isNumber_readNumber h)
  · obtain hnumber | hv' | ⟨-, hw⟩ := negate_eq_ok h
    · exact .inl hnumber
    · exact .inr ⟨v, hliteral, hv, .inl hv'⟩
    · exact .inr ⟨v, hliteral, hv, .inr hw⟩

/-! ### Nesting beside the depth of the parse -/

/-- What holds of the value of a phrase of the level, if the parse that finds the phrase goes
`depth` deep. An operator that may follow the phrase takes all of the value, unless that is the
value of a group, with an expression of its own. -/
structure NestsWithin (N : Level) (depth : Nat) (w : Value) : Prop where
  nesting_le : w.nesting ≤ depth
  stands : ∀ op, (Level.left op).bottom < N.floor →
    w.standsBefore op.operator = true ∨ w.nesting + 1 ≤ depth

namespace NestsWithin

variable {M : Level} {op : Operation} {depth depth' : Nat} {v w : Value}

theorem of_isNumber (h : w.isNumber = true) : NestsWithin N depth w := by
  obtain ⟨hnesting, -, hstands⟩ := Value.of_isNumber h
  exact ⟨by omega, fun op _ => .inl (hstands _)⟩

/-- Behind a phrase of a lower level fewer operators may follow. -/
theorem mono (hle : N.floor ≤ M.floor) (h : NestsWithin M depth w) : NestsWithin N depth w :=
  ⟨h.nesting_le, fun op hop => h.stands op (Nat.lt_of_lt_of_le hop hle)⟩

theorem group (h : NestsWithin N depth w) : NestsWithin M (depth + 1) w :=
  ⟨Nat.le_succ_of_le h.nesting_le, fun _ _ => .inr (Nat.succ_le_succ h.nesting_le)⟩

/-- A minus sign before a number that an operator claims makes no expression of its own. -/
theorem negation_of_isClaimedNumber (hv : v.isClaimedNumber = true) (h : NestsWithin N depth v) :
    NestsWithin .signed depth (negation v) := by
  refine ⟨?_, fun _ hop => .inl (standsBefore_negation v hop)⟩
  rw [nesting, if_pos hv]
  exact h.nesting_le

theorem negation (h : NestsWithin N depth v) : NestsWithin .signed (depth + 1) (negation v) :=
  ⟨Nat.le_trans (nesting_negation_le v) (Nat.succ_le_succ h.nesting_le),
    fun _ hop => .inl (standsBefore_negation v hop)⟩

/-- A minus sign that takes a negation off has an expression of its own too. -/
theorem of_negation (h : NestsWithin N depth (.negation w)) : NestsWithin M (depth + 1) w := by
  have hle := Nat.le_trans (nesting_le_negation w) h.nesting_le
  exact ⟨Nat.le_succ_of_le hle, fun _ _ => .inr (Nat.succ_le_succ hle)⟩

theorem nestingAs_le (h : NestsWithin (.left op) depth v) :
    v.nestingAs op.operator true ≤ depth := by
  rcases h.stands op (by cases op <;> decide) with hstands | hgroup
  · rw [nestingAs_of_standsBefore hstands]
    exact h.nesting_le
  · exact Nat.le_trans (Value.nestingAs_le _ _ _) hgroup

theorem combine (hv : IsTree v) (hw : IsTree w) (hleft : NestsWithin (.left op) depth v)
    (hright : NestsWithin (.right op) depth' w) :
    NestsWithin (.of op) (max depth (depth' + 1)) (Term.combine op.operator v w) := by
  refine ⟨?_, fun op' hop' => .inl ?_⟩
  · have hle := hv.nesting_combine_le op hw
    have hfirst := hleft.nestingAs_le
    have hlater := hright.nesting_le
    omega
  · obtain ⟨vs, hnode⟩ := hv.exists_combine_eq_node op w
    rw [hnode]
    exact standsBefore_node vs hop'

end NestsWithin

/-- **The value of a phrase nests no deeper than the parse that finds the phrase.** -/
theorem nesting_value_le (e : Phrase N) (hname : ∀ text, .name text ∈ e.terminals → IsName text)
    {w : Value} (h : e.value kept = some w) : NestsWithin N e.tally.height w := by
  induction e using inductionOn generalizing w with
  | number text => exact .of_isNumber (isNumber_readNumber (toOption_eq_some_iff.mp h))
  | name text =>
    cases h
    exact ⟨Nat.le_refl 0, fun _ _ => .inl rfl⟩
  | group e ih =>
    rw [height_group]
    exact (ih (fun text ht => hname text (by simp [terminals, ht])) h).group
  | plain a ih => exact (ih hname h).mono (by decide)
  | negated u ih =>
    obtain hnumber | ⟨v, hliteral, hv, hw⟩ := of_value_negated h
    · exact .of_isNumber hnumber
    have hu := ih (fun text ht => hname text (by simp [terminals, ht])) hv
    rw [height_negated]
    split
    · rename_i hhead
      have hclaimed := isClaimedNumber_value hhead hliteral hv
      rcases hw with rfl | rfl
      · -- A negation is no number, so no sign is taken off here.
        cases hclaimed
      · exact hu.negation_of_isClaimedNumber hclaimed
    · rcases hw with rfl | rfl
      · exact hu.of_negation
      · exact hu.negation
  | factor u ih => exact (ih hname h).mono (by decide)
  | term t ih => exact (ih hname h).mono (by decide)
  | applied op a b iha ihb =>
    rw [terminals_applied] at hname
    have hnamea : ∀ text, .name text ∈ a.terminals → IsName text := fun text ht =>
      hname text (by simp [ht])
    have hnameb : ∀ text, .name text ∈ b.terminals → IsName text := fun text ht =>
      hname text (by simp [ht])
    obtain ⟨v, u, hv, hu, ⟨⟩⟩ := value_applied_eq_some_iff.mp h
    rw [height_applied]
    exact .combine (a.isTree_value hnamea hv) (b.isTree_value hnameb hu) (iha hnamea hv)
      (ihb hnameb hu)

/-- The value of a phrase is not as high as the phrase is long. -/
theorem height_value_lt (e : Phrase N) {w : Value} (h : e.value kept = some w) :
    w.height < e.terminals.length := by
  induction e using inductionOn generalizing w with
  | number text =>
    obtain ⟨-, hheight, -⟩ := of_isNumber (isNumber_readNumber (toOption_eq_some_iff.mp h))
    rw [hheight]
    exact Nat.one_pos
  | name text =>
    cases h
    exact Nat.one_pos
  | group e ih =>
    have hlt := ih h
    simp only [terminals, List.cons_append, List.length_cons, List.length_append]
    omega
  | plain a ih => exact ih h
  | negated u ih =>
    rw [terminals, List.length_cons]
    obtain hnumber | ⟨v, -, hv, hw⟩ := of_value_negated h
    · obtain ⟨-, hheight, -⟩ := of_isNumber hnumber
      omega
    · have hlt := ih hv
      rcases hw with rfl | rfl
      · rw [height] at hlt
        omega
      · rw [height]
        omega
  | factor u ih => exact ih h
  | term t ih => exact ih h
  | applied op a b iha ihb =>
    obtain ⟨v, u, hv, hu, ⟨⟩⟩ := value_applied_eq_some_iff.mp h
    have hle := height_combine_le op.operator v u
    have hleft := iha hv
    have hright := ihb hu
    rw [terminals_applied, List.length_append, List.length_cons]
    omega

end Phrase

/-! ## The limit to the depth -/

/-- **The limit to the depth bounds the nesting of values**, and the length of the text bounds their
height. -/
theorem algebra_nesting_lt {depth : Nat} {input : String} {v : Value} {stats : Stats}
    (h : (algebra.setMaxDepth depth).parse input = some (.ok (v, stats))) :
    v.nesting < stats.depth ∧ stats.depth ≤ depth ∧ v.height < stats.tokens := by
  obtain ⟨e, hterminals, hv, hdepth, rfl⟩ :=
    (Grammar.parse_eq_ok_iff_phrase (calculates_algebra depth)).mp h
  have hname : ∀ text, .name text ∈ e.terminals → IsName text := fun text ht =>
    isName_of_terminals hterminals ht
  refine ⟨Nat.lt_succ_of_le (e.nesting_value_le hname hv).1, ?_, e.height_value_lt hv⟩
  rwa [Grammar.maxDepth_setMaxDepth] at hdepth

/-- A number to the power of a value, below a minus sign. -/
def signedPower (n : Int) (v : Value) : Value :=
  .negation (.node Operation.power.operator [.integer n, v])

/-- A difference of products, with powers below minus signs and differences in parentheses. -/
def steepValue : Value :=
  let difference (v w : Value) : Value := .node Operation.subtract.operator [v, w]
  let product (v w : Value) : Value := .node Operation.multiply.operator [v, w]
  difference
    (product (signedPower 2 (signedPower 3 (.var "x")))
      (difference (difference (.var "a") (.var "b")) (.var "c")))
    (product (.var "d") (difference (.var "e") (.negation (.var "f"))))

theorem parse_steepValue :
    (algebra.setMaxDepth 6).parse "-2^-3^x*(a - b - c) - d*(e - -f)" =
      some (.ok (steepValue, ⟨24, 12, 8, 6⟩)) := by
  let name (text : String) : Phrase .signed := .plain (.name text)
  let power (text : String) (u : Phrase .signed) : Phrase .signed :=
    .negated (.raised (.number text) u)
  let first : Phrase .sum := .subtracted
    (.subtracted (.term (.factor (name "a"))) (.factor (name "b"))) (.factor (name "c"))
  let second : Phrase .sum :=
    .subtracted (.term (.factor (name "e"))) (.factor (.negated (name "f")))
  let e : Phrase .sum := .subtracted
    (.term (.multiplied (.factor (power "2" (power "3" (name "x")))) (.plain (.group first))))
    (.multiplied (.factor (name "d")) (.plain (.group second)))
  have hterminals : Terminals (calculatorRecognizer.scan
      "-2^-3^x*(a - b - c) - d*(e - -f)") e.terminals := ⟨by decide +kernel, by decide +kernel⟩
  have hstats : e.stats = ⟨24, 12, 8, 6⟩ := by decide +kernel
  rw [← hstats]
  exact algebra_parse_of_phrase hterminals rfl (by decide +kernel)

theorem algebra_nesting_lt_steepValue :
    steepValue.nesting = 4 ∧ steepValue.height = 6 ∧
      steepValue.nesting < 6 ∧ 6 ≤ 6 ∧ steepValue.height < 24 :=
  ⟨by decide +kernel, by decide +kernel, algebra_nesting_lt parse_steepValue⟩

/-! ## Chains -/

/-- The difference of `x` and `x`, as often as the number says. -/
def differences : Nat → Value
  | 0 => .var "x"
  | n + 1 => .node Operation.subtract.operator [differences n, .var "x"]

/-- The text of the differences, without parentheses. -/
def differencesText : Nat → List Char
  | 0 => ['x']
  | n + 1 => differencesText n ++ [' ', '-', ' '] ++ ['x']

/-- The phrase of the text. -/
def differencesPhrase : Nat → Phrase .sum
  | 0 => .term (.factor (.plain (.name "x")))
  | n + 1 => .subtracted (differencesPhrase n) (.factor (.plain (.name "x")))

theorem isWritten_differences (n : Nat) : (differencesPhrase n).IsWritten (differencesText n) := by
  have hx : (Phrase.name "x").IsWritten ['x'] :=
    Phrase.isWritten_name (by decide +kernel : IsName "x")
  induction n with
  | zero => exact hx.of_terminals_eq rfl
  | succ n ih => exact ih.applied .subtract (hx.of_terminals_eq rfl)

theorem value_differences (n : Nat) : (differencesPhrase n).value kept = some (differences n) := by
  induction n with
  | zero => rfl
  | succ n ih =>
    rw [differencesPhrase, Phrase.value, ih]
    rfl

theorem tally_differences_le (n : Nat) : (differencesPhrase n).tally.height ≤ 1 := by
  induction n with
  | zero => exact Nat.zero_le 1
  | succ n ih =>
    have hx : (Phrase.factor (.plain (.name "x"))).tally.height + 1 ≤ 1 := Nat.le_refl 1
    have happlied := Phrase.height_applied .subtract (differencesPhrase n)
      (.factor (.plain (.name "x")))
    exact Nat.le_trans (Nat.le_of_eq happlied) (Nat.max_le.mpr ⟨ih, hx⟩)

theorem height_differences (n : Nat) : (differences n).height = n := by
  induction n with
  | zero => rfl
  | succ n ih => simp [differences, Value.height, Value.greatestHeight, ih]

/-- **Under a limit of two there are values of every height.** -/
theorem algebra_differences (n : Nat) :
    ∃ stats, (algebra.setMaxDepth 2).parse (String.ofList (differencesText n)) =
      some (.ok (differences n, stats)) :=
  ⟨_, (isWritten_differences n).parse (value_differences n)
    (Nat.succ_le_succ (tally_differences_le n))⟩

/-- Both kinds of steps that the limit does not see make values higher than the limit: those to a
first operand, and those from a minus sign to a number that an operator claims. -/
theorem not_height_le_depth :
    (∃ stats, (algebra.setMaxDepth 2).parse "x - x - x - x" =
        some (.ok (differences 3, stats)) ∧ ¬ (differences 3).height ≤ 2) ∧
      ∃ stats, (algebra.setMaxDepth 3).parse "-2^-3^x" =
        some (.ok (signedPower 2 (signedPower 3 (.var "x")), stats)) ∧
      ¬ (signedPower 2 (signedPower 3 (.var "x"))).height ≤ 3 := by
  constructor
  · obtain ⟨stats, hparse⟩ := algebra_differences 3
    refine ⟨stats, hparse, ?_⟩
    rw [height_differences]
    decide
  · let e : Phrase .sum := .term (.factor (.negated (.raised (.number "2")
      (.negated (.raised (.number "3") (.plain (.name "x")))))))
    refine ⟨e.stats, (Grammar.parse_eq_ok_iff_phrase (calculates_algebra 3)).mpr
      ⟨e, ⟨by decide +kernel, by decide +kernel⟩, rfl, ?_, rfl⟩, by decide +kernel⟩
    rw [Grammar.maxDepth_setMaxDepth]
    decide +kernel

end Calculator

end Precedence
