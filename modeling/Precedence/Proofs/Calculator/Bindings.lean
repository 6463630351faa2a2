import Precedence.Value.Evaluation
import Precedence.Proofs.Calculator.Canonical
import Precedence.Proofs.Calculator.Conservation

/-!
# Names without a number

A value that `algebra` makes has a number as soon as its names have one. Its operators mean
something for numbers and never lack an operand, so an evaluation looks up the names from the left
and can fail at nothing else.

* `Operation.exists_onNumbers`: the five operators have a result for any operands.
* `IsTree.answers`: the evaluation of a tree fails at the first of its names that is not bound.
* `parseSymbolic_evaluate`: so the evaluation of what a text stands for fails at the first name of
  the text that is not bound.
-/

namespace Precedence

open Calculator

/-! ## Operators on numbers -/

namespace Operator

theorem exists_powerTower {xs : List Float} (h : xs ≠ []) : ∃ y, powerTower xs = some y := by
  induction xs with
  | nil => exact absurd rfl h
  | cons x rest ih =>
    cases rest with
    | nil => exact ⟨x, rfl⟩
    | cons x' rest =>
      obtain ⟨y, hy⟩ := ih (List.cons_ne_nil _ _)
      exact ⟨x.pow y, by rw [powerTower, hy, Option.map_some]; exact List.cons_ne_nil _ _⟩

end Operator

/-- An operation has a result for numbers, if there is one at least. -/
theorem Operation.exists_onNumbers (op : Operation) {xs : List Float} (h : xs ≠ []) :
    ∃ y, op.operator.onNumbers xs = .ok y := by
  suffices hsome : ∃ y, op.operator.onNumbers? xs = some y by
    obtain ⟨y, hy⟩ := hsome
    exact ⟨y, by rw [Operator.onNumbers, hy]⟩
  obtain ⟨x, rest, rfl⟩ := List.exists_cons_of_ne_nil h
  cases op with
  | add => exact ⟨rest.foldl (· + ·) x, rfl⟩
  | subtract => exact ⟨rest.foldl (· - ·) x, rfl⟩
  | multiply => exact ⟨rest.foldl (· * ·) x, rfl⟩
  | divide => exact ⟨rest.foldl (· / ·) x, rfl⟩
  | power => exact Operator.exists_powerTower h

/-! ## Looking names up -/

/-- The name that a leaf is. -/
def Leaf.name? : Leaf → Option String
  | name text => some text
  | integer _ | other => none

namespace Bindings

variable {α β : Type} {b : Bindings} {names names' : List String}

/-- The first of the names that is not bound. -/
def firstUnbound? (b : Bindings) (names : List String) : Option String :=
  names.find? fun name => (b.get? name).isNone

/-- A result as it is found when the names are looked up in their order, and nothing else can
fail. -/
def Answers (b : Bindings) (names : List String) (result : Except EvaluationError α) : Prop :=
  match b.firstUnbound? names with
  | none => ∃ x, result = .ok x
  | some name => result = .error (.unbound name)

theorem answers_nil (b : Bindings) (x : α) : b.Answers [] (.ok x) :=
  ⟨x, rfl⟩

theorem answers_var (b : Bindings) (name : String) :
    b.Answers [name] ((Value.var name).evaluate b) := by
  unfold Answers firstUnbound? Value.evaluate
  cases h : b.get? name with
  | none => simp [h]
  | some x => simp [h]

/-- The names of a first step are looked up before those of a second one, and these only if the
first step does not fail. -/
theorem Answers.bind {result : Except EvaluationError α} {f : α → Except EvaluationError β}
    (h : b.Answers names result) (hf : ∀ x, result = .ok x → b.Answers names' (f x)) :
    b.Answers (names ++ names') (result >>= f) := by
  unfold Answers firstUnbound? at *
  rw [List.find?_append]
  cases hfirst : names.find? fun name => (b.get? name).isNone with
  | none =>
    rw [hfirst] at h
    obtain ⟨x, rfl⟩ := h
    exact hf x rfl
  | some name =>
    rw [hfirst] at h
    rw [h]
    rfl

/-- A step that looks up no names cannot fail. -/
theorem Answers.map {result : Except EvaluationError α} (f : α → β) (h : b.Answers names result) :
    b.Answers names (result.map f) := by
  rw [← List.append_nil names]
  have hbind := h.bind fun x _ => b.answers_nil (f x)
  cases result <;> exact hbind

theorem firstUnbound?_eq_none_iff :
    b.firstUnbound? names = none ↔ ∀ name ∈ names, (b.get? name).isSome = true := by
  simp only [firstUnbound?, List.find?_eq_none, Option.isSome_iff_ne_none,
    Option.isNone_iff_eq_none, ne_eq]

/-- There is a result exactly if all names are bound. -/
theorem Answers.exists_ok_iff {result : Except EvaluationError α} (h : b.Answers names result) :
    (∃ x, result = .ok x) ↔ ∀ name ∈ names, (b.get? name).isSome = true := by
  rw [← firstUnbound?_eq_none_iff]
  unfold Answers at h
  cases hfirst : b.firstUnbound? names with
  | none => simpa [hfirst] using h
  | some name =>
    rw [hfirst] at h
    simp [h]

end Bindings

namespace Value

variable {v : Value} {vs : List Value} {name : String} {b : Bindings}

/-- The names of a value, from left to right. -/
def names (v : Value) : List String :=
  v.leaves.filterMap Leaf.name?

/-- The names of values, from left to right. -/
def namesIn (vs : List Value) : List String :=
  (leavesIn vs).filterMap Leaf.name?

theorem namesIn_cons (v : Value) (vs : List Value) : namesIn (v :: vs) = v.names ++ namesIn vs := by
  rw [namesIn, leavesIn, List.filterMap_append]
  rfl

mutual

theorem occurs_of_mem_names : ∀ v : Value, name ∈ v.names → Occurs (.var name) v
  | integer _, h => by cases h
  | real _, h => by cases h
  | rational _, h => by cases h
  | negation inner, h => .negation (occurs_of_mem_names inner h)
  | var text, h => by
    rw [List.mem_singleton.mp (show name ∈ [text] from h)]
    exact .here
  | node _ operands, h => by
    obtain ⟨v, hv, hname⟩ := occurs_of_mem_namesIn operands h
    exact .operand hv hname

theorem occurs_of_mem_namesIn : ∀ vs : List Value, name ∈ namesIn vs →
    ∃ v ∈ vs, Occurs (.var name) v
  | [], h => by cases h
  | v :: rest, h => by
    rw [namesIn_cons, List.mem_append] at h
    rcases h with h | h
    · exact ⟨v, List.mem_cons_self, occurs_of_mem_names v h⟩
    · obtain ⟨w, hw, hname⟩ := occurs_of_mem_namesIn rest h
      exact ⟨w, List.mem_cons_of_mem v hw, hname⟩

end

theorem mem_namesIn_of_mem (hv : v ∈ vs) (h : name ∈ v.names) : name ∈ namesIn vs := by
  induction vs with
  | nil => cases hv
  | cons w rest ih =>
    rw [namesIn_cons, List.mem_append]
    rcases List.mem_cons.mp hv with rfl | hv
    · exact .inl h
    · exact .inr (ih hv)

/-- The names of a value are those that occur in it. -/
theorem mem_names_iff : name ∈ v.names ↔ Occurs (.var name) v := by
  refine ⟨occurs_of_mem_names v, fun h => ?_⟩
  induction h with
  | here => exact List.mem_singleton_self name
  | negation _ ih => exact ih
  | operand hv _ ih => exact mem_namesIn_of_mem hv ih

/-! ## Evaluation -/

theorem evaluateAll_cons (b : Bindings) (v : Value) (vs : List Value) :
    evaluateAll b (v :: vs) =
      (do let x ← v.evaluate b; (evaluateAll b vs).map fun xs => x :: xs) := by
  rw [evaluateAll]
  cases v.evaluate b with
  | error e => rfl
  | ok x => cases evaluateAll b vs <;> rfl

theorem evaluate_node (b : Bindings) (op : Operator) (vs : List Value) :
    (node op vs).evaluate b = (do op.onNumbers (← evaluateAll b vs)) := by
  rw [evaluate]
  cases evaluateAll b vs <;> rfl

theorem length_of_evaluateAll {xs : List Float} (h : evaluateAll b vs = .ok xs) :
    xs.length = vs.length := by
  induction vs generalizing xs with
  | nil =>
    cases h
    rfl
  | cons v rest ih =>
    rw [evaluateAll_cons] at h
    obtain ⟨x, -, h⟩ := bind_eq_ok h
    cases hall : evaluateAll b rest with
    | error e =>
      rw [hall] at h
      cases h
    | ok ys =>
      rw [hall] at h
      cases h
      rw [List.length_cons, List.length_cons, ih hall]

/-- Operands look up their names one after the other. -/
theorem answers_evaluateAll (h : ∀ v ∈ vs, b.Answers v.names (v.evaluate b)) :
    b.Answers (namesIn vs) (evaluateAll b vs) := by
  induction vs with
  | nil => exact b.answers_nil []
  | cons v rest ih =>
    have hrest := ih fun w hw => h w (List.mem_cons_of_mem v hw)
    rw [namesIn_cons, evaluateAll_cons]
    exact (h v List.mem_cons_self).bind fun x _ => hrest.map (x :: ·)

/-- A node fails only where one of its operands does. -/
theorem answers_node (op : Operation) (hvs : vs ≠ [])
    (h : ∀ v ∈ vs, b.Answers v.names (v.evaluate b)) :
    b.Answers (namesIn vs) ((node op.operator vs).evaluate b) := by
  rw [evaluate_node, ← List.append_nil (namesIn vs)]
  refine (answers_evaluateAll h).bind fun xs hxs => ?_
  have hne : xs ≠ [] := by
    rintro rfl
    exact hvs (List.length_eq_zero_iff.mp (length_of_evaluateAll hxs).symm)
  obtain ⟨y, hy⟩ := op.exists_onNumbers hne
  rw [hy]
  exact b.answers_nil y

/-- **The evaluation of a tree fails at the first of its names that is not bound**, and at nothing
else. -/
theorem IsTree.answers (h : IsTree v) (b : Bindings) : b.Answers v.names (v.evaluate b) := by
  induction h with
  | @integer n _ => exact b.answers_nil (Float.ofInt n)
  | real x => exact b.answers_nil x
  | @var name _ => exact b.answers_var name
  | negation _ _ ih => exact ih.map (- ·)
  | @pair op v w _ _ _ ihv ihw =>
    refine answers_node op (List.cons_ne_nil _ _) fun u hu => ?_
    rcases List.mem_pair.mp hu with rfl | rfl
    · exact ihv
    · exact ihw
  | @chain op vs _ hlength _ _ ih =>
    refine answers_node op (fun hnil => ?_) ih
    rw [hnil] at hlength
    cases hlength

end Value

/-! ## Names of texts -/

/-- The first of the tokens that is a name and not bound. -/
def Scan.firstUnbound? (scan : Scan) (b : Bindings) : Option Token :=
  scan.tokens.find? fun t =>
    algebra.index? (classId "name") == some t.symbol && (b.get? t.text).isNone

/-- The name that a token is. -/
theorem Token.name?_leaf? (t : Token) :
    (t.terminal?.bind Terminal.leaf?).bind Leaf.name? =
      (Option.guard (fun t => t.symbol == 2) t).map (·.text) := by
  unfold terminal?
  split <;> rename_i hsymbol
  · simp only [Option.bind_some, Terminal.leaf?]
    split <;> simp [Leaf.name?, Option.guard, hsymbol]
  all_goals simp_all [Terminal.leaf?, Leaf.name?, Option.guard]

namespace Calculator

theorem index?_name : algebra.index? (classId "name") = some 2 := by
  decide +kernel

/-- The names of the terminals of a scan are the texts of those tokens that are names. -/
theorem Terminals.names_eq {scan : Scan} {ts : List Terminal} (h : Terminals scan ts) :
    (ts.filterMap Terminal.leaf?).filterMap Leaf.name? =
      (scan.tokens.filter fun t => t.symbol == 2).map (·.text) := by
  calc (ts.filterMap Terminal.leaf?).filterMap Leaf.name?
    _ = (ts.map some).filterMap fun x => (x.bind Terminal.leaf?).bind Leaf.name? := by
      rw [List.filterMap_filterMap, List.filterMap_map]
      rfl
    _ = scan.tokens.filterMap fun t => (t.terminal?.bind Terminal.leaf?).bind Leaf.name? := by
      rw [← h.tokens, List.filterMap_map]
      rfl
    _ = _ := by
      simp only [Token.name?_leaf?]
      rw [← List.map_filterMap, List.filterMap_eq_filter]

/-- The first name that is not bound is the text of the first such token. -/
theorem Terminals.firstUnbound?_eq {scan : Scan} {ts : List Terminal} (h : Terminals scan ts)
    (b : Bindings) : b.firstUnbound? ((ts.filterMap Terminal.leaf?).filterMap Leaf.name?) =
      (scan.firstUnbound? b).map (·.text) := by
  rw [h.names_eq, Bindings.firstUnbound?, List.find?_map, List.find?_filter, Scan.firstUnbound?,
    index?_name]
  congr 2
  funext t
  rw [Option.some_beq_some, Bool.beq_comm, Bool.decide_and, Bool.decide_coe, Bool.decide_coe]
  rfl

/-- **An evaluation fails only for a name that is not bound, and names the first one.** What a text
stands for has a number exactly if all names that occur in it are bound. Otherwise the error is for
the first token of the text that is a name and is not bound. -/
theorem parseSymbolic_evaluate {r : Recognizer} (hr : algebra.recognizer = .ok r) {input : String}
    {v : Value} {stats : Stats} (h : parseSymbolic input = some (.ok (v, stats))) (b : Bindings) :
    ((∃ x, v.evaluate b = .ok x) ↔ ∀ name, Value.Occurs (.var name) v → (b.get? name).isSome) ∧
      ((¬ ∃ x, v.evaluate b = .ok x) → ∃ t, (r.scan input).firstUnbound? b = some t ∧
        v.evaluate b = .error (.unbound t.text)) := by
  cases hr.symm.trans algebra_recognizer
  rw [parseSymbolic, ← Grammar.setMaxDepth_maxDepth algebra] at h
  obtain ⟨e, hterminals, hv, -, -⟩ :=
    (Grammar.parse_eq_ok_iff_phrase (calculates_algebra _)).mp h
  have htree := e.isTree_value (fun text ht => isName_of_terminals hterminals ht) hv
  have hleaves := e.leaves_value (fun text => unsigned_of_terminals hterminals) hv
  have hanswers := htree.answers b
  constructor
  · rw [hanswers.exists_ok_iff]
    exact forall_congr' fun name => by rw [Value.mem_names_iff]
  · intro hfails
    unfold Bindings.Answers Value.names at hanswers
    rw [hleaves, hterminals.firstUnbound?_eq] at hanswers
    cases hfirst : (calculatorRecognizer.scan input).firstUnbound? b with
    | none =>
      rw [hfirst] at hanswers
      exact absurd hanswers hfails
    | some t =>
      rw [hfirst] at hanswers
      exact ⟨t, rfl, hanswers⟩

/-- The opposite of a chain of powers of names. -/
def powersValue : Value :=
  .negation (.node Operation.power.operator
    [.var "x", .node Operation.power.operator [.var "y", .var "z"]])

theorem parseSymbolic_powers : parseSymbolic "-x^y^z" = some (.ok (powersValue, ⟨6, 4, 2, 4⟩)) := by
  let e : Phrase .sum := .term (.factor (.negated
    (.raised (.name "x") (.raised (.name "y") (.plain (.name "z"))))))
  have hterminals : Terminals (calculatorRecognizer.scan "-x^y^z") e.terminals :=
    ⟨by decide +kernel, by decide +kernel⟩
  have hstats : e.stats = ⟨6, 4, 2, 4⟩ := by decide +kernel
  rw [← hstats]
  exact parseSymbolic_of_phrase hterminals rfl (by decide +kernel)

/-- Powers are computed from the right, and their names looked up from the left. -/
theorem parseSymbolic_evaluate_powers :
    let b := Bindings.ofList [("x", 2)]
    algebra.recognizer = .ok calculatorRecognizer ∧
      parseSymbolic "-x^y^z" = some (.ok (powersValue, ⟨6, 4, 2, 4⟩)) ∧
      (¬ ∃ x, powersValue.evaluate b = .ok x) ∧ powersValue.evaluate b = .error (.unbound "y") := by
  intro b
  obtain ⟨hok, herror⟩ := parseSymbolic_evaluate algebra_recognizer parseSymbolic_powers b
  have hfails : ¬ ∃ x, powersValue.evaluate b = .ok x := by
    rw [hok]
    intro hbound
    have hy := hbound "y" (.negation (.operand (List.mem_cons_of_mem _ List.mem_cons_self)
      (.operand List.mem_cons_self .here)))
    exact absurd hy (by decide +kernel)
  refine ⟨algebra_recognizer, parseSymbolic_powers, hfails, ?_⟩
  obtain ⟨t, ht, he⟩ := herror hfails
  have hfirst : ((calculatorRecognizer.scan "-x^y^z").firstUnbound? b).map (·.text) = some "y" := by
    decide +kernel
  rw [ht] at hfirst
  have htext : t.text = "y" := Option.some.inj hfirst
  rw [he, htext]

end Calculator

end Precedence
