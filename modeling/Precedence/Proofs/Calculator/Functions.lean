import Precedence.Calculator.Function
import Precedence.Proofs.Calculator.Bindings

/-!
# Failures of functions

Whether a value has a number, and which error it has otherwise, depends on the names that are bound
and not on the numbers that they are bound to. That holds of all values, also of nodes that no
grammar makes: an operator looks at the number of its operands, but not at their numbers. A function
always binds the same two names, so it fails for all arguments or for none.

* `Value.failAlike_evaluate`: evaluations with the same names bound fail alike.
* `Function.failAlike_callAt`: so do all calls of a function.
* `Function.exists_samplesFrom`: a table of a function that has a value has no error.
* `fails_by_names`: the three together.
-/

namespace Precedence

open Calculator

/-! ## Bindings -/

namespace Bindings

variable {b b' : Bindings} {name other : String} {x : Float}

/-- The name that is bound last has its number, and all others keep theirs. -/
theorem get?_set (b : Bindings) (name other : String) (x : Float) :
    (b.set name x).get? other = if other = name then some x else b.get? other := by
  let put : String × Float → String × Float := fun e => if e.1 == name then (name, x) else e
  have hfst : ∀ e, (put e).1 = e.1 := fun e => by
    by_cases h : e.1 = name <;> simp [put, h]
  unfold set get?
  split
  · rename_i hbound
    have hsame : ((fun e : String × Float => e.1 == other) ∘ put) = fun e => e.1 == other := by
      funext e
      rw [Function.comp_apply, hfst]
    rw [List.find?_map, hsame]
    cases hfound : b.entries.find? (·.1 == other) with
    | none =>
      rw [if_neg]
      · rfl
      · rintro rfl
        rw [List.find?_eq_none] at hfound
        obtain ⟨e, he, hname⟩ := List.any_eq_true.mp hbound
        exact hfound e he hname
    | some e =>
      have he : e.1 = other := by simpa using List.find?_some hfound
      by_cases h : other = name
      · simp [he, h]
      · simp [he, h]
  · rename_i hfree
    rw [List.find?_append]
    by_cases h : other = name
    · subst h
      have hnone : b.entries.find? (·.1 == other) = none := by
        rw [List.find?_eq_none]
        exact fun e he hname => hfree (List.any_eq_true.mpr ⟨e, he, hname⟩)
      simp [hnone]
    · have hother : (name == other) = false := by simpa using Ne.symm h
      simp [h, hother]

/-- The same names are bound. -/
def SameNames (b b' : Bindings) : Prop :=
  ∀ name, (b.get? name).isSome = (b'.get? name).isSome

theorem SameNames.set (h : b.SameNames b') (name : String) (x x' : Float) :
    (b.set name x).SameNames (b'.set name x') := by
  intro other
  rw [get?_set, get?_set]
  split
  · rfl
  · exact h other

end Bindings

/-! ## Evaluations -/

namespace Operator

/-- Whether an operator means something for numbers does not depend on the numbers. -/
theorem isSome_onNumbers?_cons (op : Operator) (x x' : Float) (rest rest' : List Float) :
    (op.onNumbers? (x :: rest)).isSome = (op.onNumbers? (x' :: rest')).isSome := by
  unfold onNumbers?
  cases op.fixity with
  | prefixOp =>
    simp only [List.head?_cons, Option.map_some]
    split_ifs <;> simp only [Option.isSome_some]
  | infixOp =>
    simp only
    split_ifs
    · obtain ⟨y, hy⟩ := exists_powerTower (List.cons_ne_nil x rest)
      obtain ⟨y', hy'⟩ := exists_powerTower (List.cons_ne_nil x' rest')
      rw [hy, hy', Option.isSome_some, Option.isSome_some]
    · cases meaning? op.symbol <;> rfl
  | postfixOp => rfl

theorem failAlike_onNumbers (op : Operator) {xs xs' : List Float} (h : xs.length = xs'.length) :
    FailAlike (op.onNumbers xs) (op.onNumbers xs') := by
  cases xs with
  | nil =>
    rw [List.eq_nil_of_length_eq_zero h.symm]
    exact FailAlike.refl _
  | cons x rest =>
    obtain ⟨x', rest', rfl⟩ := List.exists_cons_of_length_eq_add_one h.symm
    have hsome := op.isSome_onNumbers?_cons x x' rest rest'
    unfold onNumbers
    cases hx : op.onNumbers? (x :: rest) with
    | none =>
      rw [hx, Option.isSome_none, eq_comm, Option.isSome_eq_false_iff, Option.isNone_iff_eq_none]
        at hsome
      rw [hsome]
      exact FailAlike.refl _
    | some y =>
      rw [hx, Option.isSome_some, eq_comm, Option.isSome_iff_exists] at hsome
      obtain ⟨y', hy'⟩ := hsome
      rw [hy']
      exact .ok y y'

end Operator

namespace Value

variable {b b' : Bindings}

mutual

/-- **Evaluations fail alike if the same names are bound.** -/
theorem failAlike_evaluate (h : b.SameNames b') :
    ∀ v : Value, FailAlike (v.evaluate b) (v.evaluate b')
  | integer n => .ok (Float.ofInt n) (Float.ofInt n)
  | real x => .ok x x
  | rational q => .ok q.toReal q.toReal
  | negation inner => (failAlike_evaluate h inner).map (- ·) (- ·)
  | var name => by
    have hname := h name
    unfold evaluate
    cases hb : b.get? name with
    | none =>
      rw [hb, Option.isSome_none, eq_comm, Option.isSome_eq_false_iff, Option.isNone_iff_eq_none]
        at hname
      rw [hname]
      exact FailAlike.refl _
    | some x =>
      rw [hb, Option.isSome_some, eq_comm, Option.isSome_iff_exists] at hname
      obtain ⟨x', hx'⟩ := hname
      rw [hx']
      exact .ok x x'
  | node op operands => by
    rw [evaluate_node, evaluate_node]
    refine (failAlike_evaluateAll h operands).bind fun xs xs' hxs hxs' => ?_
    -- There are as many numbers as operands, and the operator sees no more of them.
    exact op.failAlike_onNumbers
      ((length_of_evaluateAll hxs).trans (length_of_evaluateAll hxs').symm)

theorem failAlike_evaluateAll (h : b.SameNames b') :
    ∀ vs : List Value, FailAlike (evaluateAll b vs) (evaluateAll b' vs)
  | [] => .ok [] []
  | v :: rest => by
    rw [evaluateAll_cons, evaluateAll_cons]
    exact (failAlike_evaluate h v).bind fun x x' _ _ =>
      (failAlike_evaluateAll h rest).map (x :: ·) (x' :: ·)

end

end Value

namespace Calculator.Function

variable {f : Function} {first last width t : Float}

/-! ## Functions -/

/-- The names that a function binds do not depend on its arguments. -/
theorem sameNames_bindings (f : Function) (x t x' t' : Float) :
    (f.bindings x t).SameNames (f.bindings x' t') :=
  Bindings.SameNames.set (Bindings.SameNames.set (fun _ => rfl) f.parameter x x') f.time t t'

theorem failAlike_callAt (f : Function) (x t x' t' : Float) :
    FailAlike (f.callAt x t) (f.callAt x' t') :=
  Value.failAlike_evaluate (f.sameNames_bindings x t x' t') f.body

/-- A table of a function that has a value everywhere has no error. -/
theorem exists_samplesFrom (h : ∀ x, ∃ y, f.callAt x t = .ok y) (count i : Nat)
    (sofar : List (Float × Float)) :
    ∃ points, f.samplesFrom first last width t count i sofar = .ok points := by
  induction count generalizing i sofar with
  | zero => exact ⟨sofar.reverse, rfl⟩
  | succ count ih =>
    unfold samplesFrom
    simp only
    split
    · exact ⟨sofar.reverse, rfl⟩
    · obtain ⟨y, hy⟩ := h (first + width * Float.ofNat i)
      rw [hy]
      exact ih _ _

/-- What is wrong with a table of such a function is wrong with its bounds. -/
theorem eq_of_sampleAt_eq_error (h : ∀ x, ∃ y, f.callAt x t = .ok y) {e : EvaluationError}
    (he : f.sampleAt first last width t = .error e) :
    e = .step width ∨ e = .range first last ∨ e = .tooManySamples maxSamples := by
  unfold sampleAt at he
  split at he
  · exact .inl (Except.error.inj he).symm
  · split at he
    · exact .inr (.inl (Except.error.inj he).symm)
    · split at he
      · cases he
      · simp only at he
        split at he
        · exact .inr (.inr (Except.error.inj he).symm)
        · obtain ⟨points, hpoints⟩ := exists_samplesFrom h _ 0 []
          rw [hpoints] at he
          cases he

end Calculator.Function

namespace Calculator

/-- **Whether an evaluation fails, and how, depends on names and never on numbers.** If two bindings
bind the same names, every value has a number under both or fails under both with the same error. A
function that fails at one argument and time fails with the same error at all, and one that has a
value somewhere has no table that ends with an error of its body. -/
theorem fails_by_names :
    (∀ (v : Value) (b b' : Bindings),
      (∀ name, (b.get? name).isSome = (b'.get? name).isSome) →
        (∃ x x', v.evaluate b = .ok x ∧ v.evaluate b' = .ok x') ∨
          ∃ e, v.evaluate b = .error e ∧ v.evaluate b' = .error e) ∧
      (∀ (f : Function) (x t : Float) (e : EvaluationError),
        f.callAt x t = .error e ↔ ∀ x' t', f.callAt x' t' = .error e) ∧
      ∀ (f : Function) (x t y : Float), f.callAt x t = .ok y →
        ∀ (first last width t' : Float) (e : EvaluationError),
          f.sampleAt first last width t' = .error e →
            e = .step width ∨ e = .range first last ∨ e = .tooManySamples Function.maxSamples := by
  refine ⟨fun v b b' h => Value.failAlike_evaluate h v, fun f x t e => ⟨fun h x' t' => ?_, ?_⟩, ?_⟩
  · exact (f.failAlike_callAt x t x' t').eq_error_iff.mp h
  · exact fun h => h x t
  · intro f x t y hy first last width t' e he
    refine Function.eq_of_sampleAt_eq_error (fun x' => ?_) he
    exact (f.failAlike_callAt x t x' t').exists_ok hy

/-- The reciprocal of the argument, as a value. -/
def reciprocalValue : Value :=
  .node Operation.divide.operator [.integer 1, .var "x"]

/-- A node of two operands without an operator for numbers looks its names up first. -/
theorem fails_by_names_reciprocal :
    let v := Value.node (Operator.after "!" 90) [reciprocalValue, .var "y"]
    let b := Bindings.ofList [("x", 0)]
    let b' := Bindings.ofList [("x", 1)]
    let f := Function.ofBody reciprocalValue
    ((v.evaluate b = .error (.unbound "y")) ∧ v.evaluate b' = .error (.unbound "y")) ∧
      (∃ y, f.callAt 0 0 = .ok y) ∧
      ∀ first last width t e, f.sampleAt first last width t = .error e →
        e = .step width ∨ e = .range first last ∨ e = .tooManySamples 1000000 := by
  intro v b b' f
  obtain ⟨hevaluate, -, hsample⟩ := fails_by_names
  have hnames : ∀ name, (b.get? name).isSome = (b'.get? name).isSome := by
    have hempty : Bindings.empty.SameNames Bindings.empty := fun _ => rfl
    exact hempty.set "x" 0 1
  have hv : v.evaluate b = .error (.unbound "y") := rfl
  refine ⟨⟨hv, ?_⟩, ⟨_, rfl⟩, hsample f 0 0 _ rfl⟩
  rcases hevaluate v b b' hnames with ⟨x, -, hx, -⟩ | ⟨e, he, he'⟩
  · cases hv.symm.trans hx
  · cases hv.symm.trans he
    exact he'

end Calculator

end Precedence
