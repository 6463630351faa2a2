import Precedence.Value.Basic

/-!
# Flattening

What `Term.combine` does to values. For an associative operator the new node has the contributions
of both sides as its operands, and an operator of the same kind as its tag; for any other operator
it has the two sides.

* `combine_eq`: the new node is made of a tag, which the left side has alone, and the contributions,
  which are put behind each other.
* `combine_regroup`: so it is one node in whichever way three values are grouped.
* `KeepsFlat.flat`: operands that are flat stay flat.
-/

namespace Precedence

namespace Operator

theorem sameKind_refl (op : Operator) : op.sameKind op = true := by
  simp [sameKind]

theorem sameKind_iff {a b : Operator} :
    a.sameKind b = true ↔ a.symbol = b.symbol ∧ a.fixity = b.fixity := by
  simp [sameKind]

end Operator

namespace Value

variable {op inner : Operator} {v w : Value} {operands : List Value}

theorem contribution_node (h : inner.sameKind op = true) :
    Term.contribution op (node inner operands) = operands := by
  simp [Term.contribution, h]

/-- A node with more than one operand contributes more than itself to one of the same operator. -/
theorem contribution_ne_singleton (h : 2 ≤ operands.length) :
    Term.contribution op (node op operands) ≠ [node op operands] := by
  rw [contribution_node op.sameKind_refl]
  intro hself
  rw [hself, List.length_singleton] at h
  omega

theorem contribution_of_ne (h : ∀ inner operands, v = node inner operands →
    inner.sameKind op = false) : Term.contribution op v = [v] := by
  unfold Term.contribution
  cases v with
  | node inner operands => simp [h inner operands rfl]
  | integer _ | real _ | rational _ | negation _ | var _ => rfl

/-- A value gives its operands to a node of the same kind, and itself to any other. -/
theorem contribution_cases (op : Operator) (v : Value) :
    (∃ inner operands, v = node inner operands ∧ inner.sameKind op = true ∧
      Term.contribution op v = operands) ∨ Term.contribution op v = [v] := by
  by_cases h : ∃ inner operands, v = node inner operands ∧ inner.sameKind op = true
  · obtain ⟨inner, operands, rfl, hk⟩ := h
    exact .inl ⟨inner, operands, rfl, hk, contribution_node hk⟩
  · refine .inr (contribution_of_ne fun inner operands hnode => ?_)
    rw [← Bool.not_eq_true]
    exact fun hk => h ⟨inner, operands, hnode, hk⟩

/-- The tag of a node of an associative operator with a value on its left side: that of the value,
if it is a node of the same kind, or else the operator itself. -/
def tag (op : Operator) : Value → Operator
  | node inner _ => if inner.sameKind op then inner else op
  | _ => op

theorem tag_node (h : inner.sameKind op = true) : tag op (node inner operands) = inner :=
  if_pos h

theorem tag_cases (op : Operator) (v : Value) :
    tag op v = op ∨ ∃ operands, v = node (tag op v) operands ∧ (tag op v).sameKind op = true := by
  cases v with
  | node inner operands =>
    by_cases hk : inner.sameKind op = true
    · rw [tag_node hk]
      exact .inr ⟨operands, rfl, hk⟩
    · exact .inl (if_neg hk)
  | integer _ | real _ | rational _ | negation _ | var _ => exact .inl rfl

theorem sameKind_tag (op : Operator) (v : Value) : (tag op v).sameKind op = true := by
  obtain htag | ⟨-, -, hk⟩ := tag_cases op v
  · rw [htag]
    exact op.sameKind_refl
  · exact hk

/-- **An associative operator flattens.** -/
theorem combine_eq (h : op.associative = true) (v w : Value) :
    Term.combine op v w =
      node (tag op v) (Term.contribution op v ++ Term.contribution op w) := by
  unfold Term.combine
  rw [if_pos h]
  cases v with
  | node inner operands =>
    by_cases hk : inner.sameKind op = true
    · rw [tag_node hk, contribution_node hk]
      simp [hk]
    · simp [hk, tag, Term.contribution]
  | integer _ | real _ | rational _ | negation _ | var _ => rfl

/-- A further operand goes to the end of the node. -/
theorem combine_node (h : op.associative = true) {w : Value} (hw : Term.contribution op w = [w])
    (operands : List Value) :
    Term.combine op (node op operands) w = node op (operands ++ [w]) := by
  rw [combine_eq h, tag_node op.sameKind_refl, contribution_node op.sameKind_refl, hw]

/-- The tag is that of the left side, if it is a node of the same kind. -/
theorem combine_eq_node (h : op.associative = true) (v w : Value) :
    ∃ tag : Operator, tag.sameKind op = true ∧ (tag = op ∨ ∃ operands, v = node tag operands) ∧
      Term.combine op v w = node tag (Term.contribution op v ++ Term.contribution op w) := by
  refine ⟨tag op v, sameKind_tag op v, ?_, combine_eq h v w⟩
  exact (tag_cases op v).imp_right fun ⟨operands, hv, _⟩ => ⟨operands, hv⟩

/-- What is made of two sides has the tag of the left one. -/
theorem tag_combine (h : op.associative = true) (v w : Value) :
    tag op (Term.combine op v w) = tag op v := by
  rw [combine_eq h, tag_node (sameKind_tag op v)]

/-- What is made of two sides contributes what both of them do. -/
theorem contribution_combine (h : op.associative = true) (v w : Value) :
    Term.contribution op (Term.combine op v w) =
      Term.contribution op v ++ Term.contribution op w := by
  rw [combine_eq h, contribution_node (sameKind_tag op v)]

/-- **To flatten is associative,** whatever values there are on the three sides: the tag is that of
the leftmost one, and the operands are what the three contribute. -/
theorem combine_regroup (h : op.associative = true) (a b c : Value) :
    Term.combine op (Term.combine op a b) c = Term.combine op a (Term.combine op b c) := by
  calc Term.combine op (Term.combine op a b) c
      = node (tag op a)
          ((Term.contribution op a ++ Term.contribution op b) ++ Term.contribution op c) := by
        rw [combine_eq h, tag_combine h, contribution_combine h]
    _ = node (tag op a)
          (Term.contribution op a ++ (Term.contribution op b ++ Term.contribution op c)) := by
        rw [List.append_assoc]
    _ = Term.combine op a (Term.combine op b c) := by
        rw [combine_eq h a, contribution_combine h b]

/-- A sum with a tag of its own, the opposite of a name, and a sign before a name. -/
theorem combine_regroup_sums :
    let plus := (Operator.between "+" 50 .left).withFlags true true
    let loose := Operator.between "+" 7 .right
    let a := node loose [var "x", integer 1]
    let b := negation (var "y")
    let c := node (Operator.before "+" 50) [var "z"]
    plus.associative = true ∧
    Term.combine plus (Term.combine plus a b) c = Term.combine plus a (Term.combine plus b c) ∧
    Term.combine plus a (Term.combine plus b c) = node loose [var "x", integer 1, b, c] :=
  ⟨rfl, combine_regroup rfl _ _ _, rfl⟩

/-! ## Flat operands -/

/-- For values of a sort, a node of the kind of the operator is one of the operator itself. It has
operands, which are of the sort and no nodes of that kind. -/
structure KeepsFlat (op : Operator) (P : Value → Prop) : Prop where
  tag_eq : ∀ tag operands, P (node tag operands) → tag.sameKind op = true → tag = op
  ne_nil : ∀ operands, P (node op operands) → operands ≠ []
  operand : ∀ operands, P (node op operands) → ∀ u ∈ operands, P u ∧ Term.contribution op u = [u]

namespace KeepsFlat

variable {P : Value → Prop}

/-- What a value of the sort contributes. -/
theorem contribution (h : KeepsFlat op P) (hv : P v) :
    Term.contribution op v ≠ [] ∧
      ∀ u ∈ Term.contribution op v, P u ∧ Term.contribution op u = [u] := by
  rcases contribution_cases op v with ⟨tag, operands, rfl, hk, hoperands⟩ | hself
  · obtain rfl := h.tag_eq tag operands hv hk
    rw [hoperands]
    exact ⟨h.ne_nil operands hv, h.operand operands hv⟩
  · rw [hself]
    refine ⟨List.cons_ne_nil _ _, fun u hu => ?_⟩
    obtain rfl := List.mem_singleton.mp hu
    exact ⟨hv, hself⟩

/-- The tag of a combination is the operator. -/
theorem combine_eq_node (h : KeepsFlat op P) (hop : op.associative = true) (hv : P v) (w : Value) :
    Term.combine op v w = node op (Term.contribution op v ++ Term.contribution op w) := by
  rw [combine_eq hop]
  rcases tag_cases op v with htag | ⟨operands, hnode, hk⟩
  · rw [htag]
  · rw [h.tag_eq (tag op v) operands (hnode ▸ hv) hk]

/-- The operands of a combination are flat. -/
theorem flat (h : KeepsFlat op P) (hv : P v) (hw : P w) :
    2 ≤ (Term.contribution op v ++ Term.contribution op w).length ∧
      ∀ u ∈ Term.contribution op v ++ Term.contribution op w,
        P u ∧ Term.contribution op u = [u] := by
  obtain ⟨hvne, hvs⟩ := h.contribution hv
  obtain ⟨hwne, hws⟩ := h.contribution hw
  have hvpos := List.length_pos_iff.mpr hvne
  have hwpos := List.length_pos_iff.mpr hwne
  refine ⟨by rw [List.length_append]; omega, fun u hu => ?_⟩
  rcases List.mem_append.mp hu with hu | hu
  · exact hvs u hu
  · exact hws u hu

end KeepsFlat

end Value

end Precedence
