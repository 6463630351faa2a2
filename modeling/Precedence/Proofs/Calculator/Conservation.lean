import Precedence.Proofs.Calculator.Roles
import Precedence.Proofs.Calculator.Trees
import Precedence.Proofs.Value.Leaves

/-!
# What becomes of operands and operators

A value that `algebra` makes has the names and numbers of the text as its leaves, in their order, and
applies every operator as often as its sign stands between operands.

* `leaves_readNumber`, `leaves_readNumber_neg`: a literal is one leaf, with a sign or without one.
* `Phrase.leaves_value`, `Phrase.applications_value`: what a phrase is made of its value is made of.
* `parseSymbolic_conserves`: so no operand and no operator of a text gets lost.
-/

namespace Precedence

open Precedence.Number Calculator

namespace Calculator

/-- The leaf that a number or a name is. -/
def Terminal.leaf? : Terminal → Option Leaf
  | .number text =>
    some (if Value.isRealLiteral text.toList then .other else .integer (digitsValue text.toList))
  | .name text => some (.name text)
  | .opening | .closing | .sign _ => none

variable {text : String} {v : Value} {p : Place} {counts : Operator → Bool}

/-! ## Literals -/

/-- A literal is one leaf. -/
theorem leaves_readNumber (hsign : ∀ c ∈ text.toList.head?, c ≠ '+' ∧ c ≠ '-')
    (h : Value.readNumber text = .ok v) :
    v.leaves = [Terminal.number text].filterMap Terminal.leaf? := by
  obtain ⟨hreal, x, rfl⟩ | ⟨hreal, n, hn, rfl⟩ := Value.readNumber_cases h
  · simp [Terminal.leaf?, hreal, Value.leaves]
  · rw [readInteger_eq_ok hsign hn]
    simp [Terminal.leaf?, hreal, Value.leaves]

/-- A literal behind a minus sign is the same leaf. -/
theorem leaves_readNumber_neg (h : Value.readNumber ("-" ++ text) = .ok v) :
    v.leaves = [Terminal.number text].filterMap Terminal.leaf? := by
  have hsame : Value.isRealLiteral ("-" ++ text).toList = Value.isRealLiteral text.toList := by
    simp [Value.isRealLiteral]
  obtain ⟨hreal, x, rfl⟩ | ⟨hreal, n, hn, rfl⟩ := Value.readNumber_cases h
  · rw [hsame] at hreal
    simp [Terminal.leaf?, hreal, Value.leaves]
  · rw [hsame] at hreal
    rw [readInteger_neg_eq_ok hn]
    simp [Terminal.leaf?, hreal, Value.leaves]

/-- A literal applies nothing. -/
theorem applications_readNumber (h : Value.readNumber text = .ok v) :
    v.applications counts = 0 := by
  obtain ⟨n, -, rfl⟩ | ⟨x, rfl⟩ := Value.readNumber_eq_ok h
  · rfl
  · rfl

/-! ## Phrases -/

namespace Phrase

/-- **The value of a phrase has the leaves of the phrase.** -/
theorem leaves_value {N : Level} (e : Phrase N)
    (hsign : ∀ text, .number text ∈ e.terminals → ∀ c ∈ text.toList.head?, c ≠ '+' ∧ c ≠ '-')
    (h : e.value kept = some v) : v.leaves = e.terminals.filterMap Terminal.leaf? := by
  induction e using inductionOn generalizing v with
  | number text =>
    exact leaves_readNumber (hsign text List.mem_cons_self) (toOption_eq_some_iff.mp h)
  | name text =>
    cases h
    rfl
  | group e ih =>
    rw [ih (fun text ht => hsign text (by simp [terminals, ht])) h, terminals, List.cons_append,
      List.filterMap_cons, List.filterMap_append]
    exact (List.append_nil _).symm
  | plain a ih => exact ih hsign h
  | negated u ih =>
    show v.leaves = u.terminals.filterMap Terminal.leaf?
    obtain ⟨text, hliteral, h⟩ | ⟨-, w, hw, h⟩ := value_negated_eq_some_iff.mp h
    · rw [(terminals_of_literal? u hliteral).1]
      exact leaves_readNumber_neg h
    · rw [Value.leaves_negate h]
      exact ih (fun text ht => hsign text (by simp [terminals, ht])) hw
  | factor u ih => exact ih hsign h
  | term t ih => exact ih hsign h
  | applied op a b iha ihb =>
    rw [terminals_applied] at hsign ⊢
    obtain ⟨left, right, hleft, hright, ⟨⟩⟩ := value_applied_eq_some_iff.mp h
    rw [Value.leaves_combine, List.filterMap_append, List.filterMap_cons,
      iha (fun text ht => hsign text (by simp [ht])) hleft,
      ihb (fun text ht => hsign text (by simp [ht])) hright]
    rfl

/-- **The value of a phrase applies the operators of the phrase.** -/
theorem applications_value {N : Level} (e : Phrase N)
    (hname : ∀ text, .name text ∈ e.terminals → IsName text)
    (hkind : ∀ a b : Operator, a.sameKind b = true → counts a = counts b) (hp : p ≠ .behind)
    (h : e.value kept = some v) :
    v.applications counts = (operations p e.terminals).countP fun op => counts op.operator := by
  induction e using inductionOn generalizing v p with
  | number text =>
    rw [terminals, (operations_literal p text).1]
    exact applications_readNumber (toOption_eq_some_iff.mp h)
  | name text =>
    rw [terminals, (operations_literal p text).2]
    cases h
    rfl
  | group e ih =>
    rw [operations_group]
    exact ih (fun text ht => hname text (by simp [terminals, ht])) (by decide) h
  | plain a ih => exact ih hname hp h
  | negated u ih =>
    rw [operations_negated u hp]
    obtain ⟨text, hliteral, h⟩ | ⟨-, w, hw, h⟩ := value_negated_eq_some_iff.mp h
    · rw [(terminals_of_literal? u hliteral).1, (operations_literal _ text).1]
      exact applications_readNumber h
    · rw [Value.applications_negate h]
      exact ih (fun text ht => hname text (by simp [terminals, ht])) (by decide) hw
  | factor u ih => exact ih hname hp h
  | term t ih => exact ih hname hp h
  | applied op a b iha ihb =>
    rw [terminals_applied] at hname
    obtain ⟨left, right, hleft, hright, ⟨⟩⟩ := value_applied_eq_some_iff.mp h
    have hnamea : ∀ text, .name text ∈ a.terminals → IsName text :=
      fun text ht => hname text (by simp [ht])
    have hnameb : ∀ text, .name text ∈ b.terminals → IsName text :=
      fun text ht => hname text (by simp [ht])
    have happlied := Value.applications_combine (fun inner => hkind inner op.operator)
      fun hop => ⟨((a.isTree_value hnamea hleft).contribution hop).1,
        ((b.isTree_value hnameb hright).contribution hop).1⟩
    rw [happlied, operations_applied op a b hp, List.countP_append, List.countP_cons,
      iha hnamea hp hleft, ihb hnameb (p := .fresh) (by decide) hright, Nat.add_assoc]

end Phrase

/-! ## Parses -/

/-- Operators of one kind have one symbol. -/
theorem symbol_of_sameKind (symbol : String) (a b : Operator) (h : a.sameKind b = true) :
    (a.symbol == symbol) = (b.symbol == symbol) := by
  rw [(Operator.sameKind_iff.mp h).1]

/-- **No operand and no operator gets lost, doubled or moved.** The value of a text has the names and
the numbers of the text as its leaves, in their order and without their signs. For every symbol, its
nodes have as many operands beyond the first one as the sign stands between operands; together that
are the operands that the parse has continued. -/
theorem parseSymbolic_conserves {r : Recognizer} (hr : algebra.recognizer = .ok r)
    {input : String} {v : Value} {stats : Stats}
    (h : parseSymbolic input = some (.ok (v, stats))) :
    let ts := terminalsOf (r.scan input)
    ts.length = (r.scan input).tokens.length ∧
      v.leaves = ts.filterMap Terminal.leaf? ∧
      (∀ symbol : String, v.applications (·.symbol == symbol) =
        (operations .fresh ts).countP (·.operator.symbol == symbol)) ∧
      v.applications (fun _ => true) = stats.leds := by
  cases hr.symm.trans algebra_recognizer
  rw [parseSymbolic, ← Grammar.setMaxDepth_maxDepth algebra] at h
  obtain ⟨e, hterminals, hv, -, rfl⟩ :=
    (Grammar.parse_eq_ok_iff_phrase (calculates_algebra _)).mp h
  have hsign : ∀ text, .number text ∈ e.terminals → ∀ c ∈ text.toList.head?, c ≠ '+' ∧ c ≠ '-' :=
    fun text => unsigned_of_terminals hterminals
  have hname : ∀ text, .name text ∈ e.terminals → IsName text :=
    fun text => isName_of_terminals hterminals
  rw [hterminals.terminalsOf_eq]
  refine ⟨hterminals.length_eq, e.leaves_value hsign hv, fun symbol => ?_, ?_⟩
  · exact e.applications_value hname (symbol_of_sameKind symbol) (by decide) hv
  · rw [e.applications_value hname (fun _ _ _ => rfl) (p := .fresh) (by decide) hv, Phrase.stats,
      e.leds_eq (p := .fresh) (by decide), List.countP_true]

/-- A product that flattens, with signs before a number and before a name. -/
theorem parseSymbolic_flattened : parseSymbolic "-3*(2*x) - -z" =
    some (.ok (.node Operation.subtract.operator
      [.node Operation.multiply.operator [.integer (-3), .integer 2, .var "x"],
        .negation (.var "z")], ⟨11, 6, 3, 4⟩)) := by
  let inner : Phrase .sum := .term (.multiplied (.factor (.plain (.number "2"))) (.plain (.name "x")))
  let e : Phrase .sum := .subtracted
    (.term (.multiplied (.factor (.negated (.plain (.number "3")))) (.plain (.group inner))))
    (.factor (.negated (.plain (.name "z"))))
  have hterminals : Terminals (calculatorRecognizer.scan "-3*(2*x) - -z") e.terminals :=
    ⟨by decide +kernel, by decide +kernel⟩
  have hstats : e.stats = ⟨11, 6, 3, 4⟩ := by decide +kernel
  rw [← hstats]
  exact parseSymbolic_of_phrase hterminals rfl (by decide +kernel)

theorem parseSymbolic_conserves_flattened :
    let v : Value := .node Operation.subtract.operator
      [.node Operation.multiply.operator [.integer (-3), .integer 2, .var "x"],
        .negation (.var "z")]
    algebra.recognizer = .ok calculatorRecognizer ∧
      parseSymbolic "-3*(2*x) - -z" = some (.ok (v, ⟨11, 6, 3, 4⟩)) ∧
      v.leaves = [.integer 3, .integer 2, .name "x", .name "z"] ∧
      v.applications (·.symbol == "*") = 2 := by
  obtain ⟨-, hleaves, happlications, -⟩ :=
    parseSymbolic_conserves algebra_recognizer parseSymbolic_flattened
  refine ⟨algebra_recognizer, parseSymbolic_flattened, hleaves.trans ?_, (happlications "*").trans ?_⟩
  · decide +kernel
  · decide +kernel

end Calculator

end Precedence
