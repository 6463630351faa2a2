import Precedence.Proofs.Value.Flattening

/-!
# Tags of nodes

Whose node `Term.combine` builds, for any type of terms. The operands are those of the operator it
is given, but the tag need not be that operator: a node on the left side that gives its operands to
the new one gives its tag as well, and of that only the symbol and the place are those of the
operator given.

* `Term.combine_eq_node_tag`: a combination is the node of its tag and its operands.
* `Term.tag_ne_iff`: the tag is another operator only behind a node that gives its own.
* `Term.node?_combine`: both together, in the terms of what a node holds.
-/

namespace Precedence

namespace Term

variable {V : Type} [Term V]

/-- The operator that a combination with this left side is a node of. -/
def tag (op : Operator) (left : V) : Operator :=
  match node? left with
  | some (inner, _) => if op.associative && inner.sameKind op then inner else op
  | none => op

/-- The operands of a combination. -/
def operands (op : Operator) (left right : V) : List V :=
  if op.associative then contribution op left ++ contribution op right else [left, right]

/-- A combination is the node of its tag and its operands. -/
theorem combine_eq_node_tag (op : Operator) (left right : V) :
    combine op left right = node (tag op left) (operands op left right) := by
  unfold combine tag operands
  by_cases ha : op.associative = true
  · cases hl : node? left with
    | none => simp [ha, contribution, hl]
    | some held =>
      obtain ⟨inner, us⟩ := held
      by_cases hk : inner.sameKind op = true
      · simp [ha, hk, contribution, hl]
      · simp [ha, hk, contribution, hl]
  · cases hl : node? left with
    | none => simp [ha]
    | some held => simp [ha]

/-- Whatever the left side is, the tag has the symbol and the place of the operator given. -/
theorem sameKind_tag (op : Operator) (left : V) : (tag op left).sameKind op = true := by
  unfold tag
  split
  · split
    · rename_i h
      exact (Bool.and_eq_true_iff.mp h).2
    · exact op.sameKind_refl
  · exact op.sameKind_refl

/-- **The tag is not the operator given** just when that operator flattens and the left side is a
node of the same kind with another tag: other powers, another grouping or other flags. -/
theorem tag_ne_iff (op : Operator) (left : V) :
    tag op left ≠ op ↔ op.associative = true ∧
      ∃ inner us, node? left = some (inner, us) ∧ inner.sameKind op = true ∧ inner ≠ op := by
  unfold tag
  cases hl : node? left with
  | none => simp
  | some held =>
    obtain ⟨inner, us⟩ := held
    by_cases h : op.associative = true ∧ inner.sameKind op = true
    · simp [h.1, h.2]
    · have hkept : (op.associative && inner.sameKind op) = false := by
        simpa [Bool.and_eq_false_iff] using h
      simp only [hkept, Bool.false_eq_true, if_false, ne_eq, not_true_eq_false, false_iff]
      rintro ⟨ha, inner', us', heq, hk, -⟩
      cases heq
      exact h ⟨ha, hk⟩

/-- Another tag than the operator given is that of the left side. -/
theorem node?_of_tag_ne {op : Operator} {left : V} (h : tag op left ≠ op) :
    ∃ us, node? left = some (tag op left, us) := by
  obtain ⟨ha, inner, us, hl, hk, -⟩ := (tag_ne_iff op left).mp h
  refine ⟨us, ?_⟩
  simp [tag, hl, ha, hk]

/-- **What a combination holds:** for an operator that flattens the contributions of both sides, for
another one the two sides, and a tag with the symbol and the place of the operator. It is that
operator in every field unless the left side is a node of the same kind with another one, which then
keeps its tag. -/
theorem node?_combine [LawfulTerm V] (op : Operator) (left right : V) :
    ∃ tag : Operator,
      node? (combine op left right) = some (tag,
        if op.associative then contribution op left ++ contribution op right
        else [left, right]) ∧
      tag.symbol = op.symbol ∧ tag.fixity = op.fixity ∧
      (tag ≠ op ↔ op.associative = true ∧
        ∃ inner us, node? left = some (inner, us) ∧ inner.sameKind op = true ∧ inner ≠ op) ∧
      (tag ≠ op → ∃ us, node? left = some (tag, us)) := by
  obtain ⟨hsymbol, hfixity⟩ := Operator.sameKind_iff.mp (sameKind_tag op left)
  refine ⟨tag op left, ?_, hsymbol, hfixity, tag_ne_iff op left, node?_of_tag_ne⟩
  rw [combine_eq_node_tag, LawfulTerm.node?_node]
  rfl

/-- A sum registered again with a higher power, behind a sum of before. -/
theorem node?_combine_renewed :
    let plus := (Operator.between "+" 50 .left).withFlags true true
    let tighter := (Operator.between "+" 60 .left).withFlags true true
    let left := Value.node plus [.var "a", .var "b"]
    LawfulTerm Value ∧ ∃ tag : Operator,
      node? (combine tighter left (.var "c")) = some (tag, [.var "a", .var "b", .var "c"]) ∧
      tag.symbol = "+" ∧ tag ≠ tighter ∧ ∃ us, node? left = some (tag, us) := by
  intro plus tighter left
  obtain ⟨tag, hnode, hsymbol, -, hne, hleft⟩ := node?_combine tighter left (.var "c")
  have hother : tag ≠ tighter := hne.mpr ⟨rfl, plus, _, rfl, by decide, by decide⟩
  exact ⟨inferInstance, tag, hnode, hsymbol, hother, hleft hother⟩

/-- **The node need not be one of the operator given:** here a sum keeps its power. -/
theorem combine_keeps_tag :
    let plus := (Operator.between "+" 50 .left).withFlags true true
    let tighter := (Operator.between "+" 60 .left).withFlags true true
    combine tighter (Value.node plus [.var "a", .var "b"]) (.var "c") =
      Value.node plus [.var "a", .var "b", .var "c"] ∧ plus ≠ tighter :=
  ⟨rfl, by decide⟩

end Term

end Precedence
