import Precedence.Proofs.Calculator.Canonical
import Precedence.Proofs.Calculator.Rereading
import Precedence.Proofs.Json.Texts

/-!
# Values from their data

The data of a value that `algebra` makes determine the value. A minus sign and a difference are
saved under one tag, but a sign has one operand and a node has two at least; and the symbol of a
node determines its operator.

* `IsTree.eq_of_data`: trees with the same data are equal.
* `parseSymbolic_eq_of_text`: so are values that are saved as the same text, without real numbers.
-/

namespace Precedence

open Calculator

theorem Operation.eq_of_symbol {a b : Operation} (h : a.operator.symbol = b.operator.symbol) :
    a = b := by
  revert h
  cases a <;> cases b <;> decide

namespace Value

variable {v w : Value} {vs : List Value} {tag : Operator}

/-! ## Data without real numbers -/

mutual

theorem isExact_data : ∀ v : Value, v.hasReal = false → v.data.IsExact
  | integer n, _ => .integer n
  | real _, h => by cases h
  | rational q, _ => by
    refine .list fun item hitem => ?_
    simp only [List.mem_cons, List.not_mem_nil, or_false] at hitem
    rcases hitem with rfl | rfl | rfl
    · exact .string "/"
    · exact .integer q.numer
    · exact .integer q.denom
  | negation inner, h => by
    refine .list fun item hitem => ?_
    rcases List.mem_pair.mp hitem with rfl | rfl
    · exact .string "-"
    · exact isExact_data inner h
  | var name, _ => .string name
  | node op operands, h => by
    refine .list fun item hitem => ?_
    rcases List.mem_cons.mp hitem with rfl | hitem
    · exact .string op.symbol
    · exact isExact_dataItems operands h item hitem

theorem isExact_dataItems : ∀ vs : List Value, anyHasReal vs = false →
    ∀ item ∈ dataItems vs, item.IsExact
  | [], _, _, hitem => by cases hitem
  | v :: rest, h, item, hitem => by
    obtain ⟨hv, hrest⟩ := Bool.or_eq_false_iff.mp h
    rcases List.mem_cons.mp hitem with rfl | hitem
    · exact isExact_data v hv
    · exact isExact_dataItems rest hrest item hitem

end

/-! ## Data of trees -/

theorem length_dataItems (vs : List Value) : (dataItems vs).length = vs.length := by
  induction vs with
  | nil => rfl
  | cons v rest ih => rw [dataItems, List.length_cons, List.length_cons, ih]

/-- A node of a tree has two operands at least. -/
theorem IsTree.two_le_length (h : IsTree (node tag vs)) : 2 ≤ vs.length := by
  cases h with
  | pair _ _ _ => exact Nat.le_refl 2
  | chain _ hlength _ _ => exact hlength

theorem IsTree.of_mem (h : IsTree (node tag vs)) (hv : v ∈ vs) : IsTree v :=
  h.of_occurs (.operand hv .here)

/-- A minus sign is saved with one operand, and a node with more. -/
theorem IsTree.data_ne_negation (h : IsTree (node tag vs)) (inner : Value) :
    (node tag vs).data ≠ (Value.negation inner).data := by
  intro heq
  have hitems := congrArg List.length (List.cons_eq_cons.mp (Json.list.inj heq)).2
  rw [length_dataItems] at hitems
  have hlength := h.two_le_length
  rw [hitems, List.length_singleton] at hlength
  exact absurd hlength (by decide)

mutual

/-- **Trees with the same data are equal.** -/
theorem IsTree.eq_of_data : ∀ {v w : Value}, IsTree v → IsTree w → v.data = w.data → v = w
  | integer _, integer _, _, _, h => by rw [Json.integer.inj h]
  | real _, real _, _, _, h => by rw [Json.real.inj h]
  | var _, var _, _, _, h => by rw [Json.string.inj h]
  | rational _, _, hv, _, _ => by cases hv
  | _, rational _, _, hw, _ => by cases hw
  | negation v, negation w, hv, hw, h => by
    have hinner := (List.cons_eq_cons.mp (List.cons_eq_cons.mp (Json.list.inj h)).2).1
    rw [IsTree.eq_of_data (hv.of_occurs (.negation .here)) (hw.of_occurs (.negation .here)) hinner]
  | negation v, node _ _, _, hw, h => absurd h.symm (hw.data_ne_negation v)
  | node _ _, negation w, hv, _, h => absurd h (hv.data_ne_negation w)
  | node tag vs, node tag' ws, hv, hw, h => by
    obtain ⟨hsymbol, hitems⟩ := List.cons_eq_cons.mp (Json.list.inj h)
    obtain ⟨op, rfl⟩ := hv.exists_operator
    obtain ⟨op', rfl⟩ := hw.exists_operator
    rw [Operation.eq_of_symbol (Json.string.inj hsymbol),
      eq_of_dataItems (fun v => hv.of_mem) (fun w => hw.of_mem) hitems]

theorem eq_of_dataItems : ∀ {vs ws : List Value}, (∀ v ∈ vs, IsTree v) → (∀ w ∈ ws, IsTree w) →
    dataItems vs = dataItems ws → vs = ws
  | [], [], _, _, _ => rfl
  | v :: vs, w :: ws, hvs, hws, h => by
    obtain ⟨hfirst, hrest⟩ := List.cons_eq_cons.mp h
    rw [IsTree.eq_of_data (hvs v List.mem_cons_self) (hws w List.mem_cons_self) hfirst,
      eq_of_dataItems (fun u hu => hvs u (List.mem_cons_of_mem v hu))
        (fun u hu => hws u (List.mem_cons_of_mem w hu)) hrest]

end

end Value

namespace Calculator

/-- **What a value is saved as determines the value.** Values of two texts that are saved as the
same text are equal, if they have no real number. -/
theorem parseSymbolic_eq_of_text {input input' : String} {v w : Value} {stats stats' : Stats}
    (hv : parseSymbolic input = some (.ok (v, stats)))
    (hw : parseSymbolic input' = some (.ok (w, stats'))) (hreal : v.hasReal = false)
    (hreal' : w.hasReal = false) (h : v.data.text = w.data.text) : v = w := by
  refine (isTree_of_parseSymbolic hv).eq_of_data (isTree_of_parseSymbolic hw) ?_
  have hwrite : v.data.write = w.data.write := String.ofList_inj.mp h
  refine (Json.write_append_inj (s := []) (t := []) (Value.isExact_data v hreal)
    (Value.isExact_data w hreal') (by simp) (by simp) ?_).1
  rw [hwrite]

theorem parseSymbolic_plainSum : parseSymbolic "a+b+c" = some (.ok (.node Operation.add.operator
    [.var "a", .var "b", .var "c"], ⟨5, 3, 2, 2⟩)) := by
  let e : Phrase .sum := .added (.added (.term (.factor (.plain (.name "a"))))
    (.factor (.plain (.name "b")))) (.factor (.plain (.name "c")))
  have hterminals : Terminals (calculatorRecognizer.scan "a+b+c") e.terminals :=
    ⟨by decide +kernel, by decide +kernel⟩
  have hstats : e.stats = ⟨5, 3, 2, 2⟩ := by decide +kernel
  rw [← hstats]
  exact parseSymbolic_of_phrase hterminals rfl (by decide +kernel)

/-- Two texts of one sum, and what it is saved as. -/
theorem parseSymbolic_eq_of_text_sum :
    ∃ v w : Value, ∃ stats stats' : Stats,
      parseSymbolic "a+b+c" = some (.ok (v, stats)) ∧
      parseSymbolic "--(a+b)+c" = some (.ok (w, stats')) ∧ v.hasReal = false ∧
      w.hasReal = false ∧ v.data.text = "[\"+\",\"a\",\"b\",\"c\"]" ∧ v.data.text = w.data.text ∧
      v = w := by
  refine ⟨_, _, _, _, parseSymbolic_plainSum, parseSymbolic_signedSum, rfl, rfl, ?_, rfl, ?_⟩
  · decide +kernel
  · exact parseSymbolic_eq_of_text parseSymbolic_plainSum parseSymbolic_signedSum rfl rfl rfl

end Calculator

end Precedence
