import Precedence.Proofs.Calculator.Repertoire
import Precedence.Proofs.Calculator.Vocabulary
import Precedence.Proofs.Parsing.Extensions
import Precedence.Proofs.Parsing.Yields

/-!
# One operator more

`algebra` with one operator more, which flattens and groups from the left. Its symbol may be any
text that no run of characters of operands can contain and that is not the sign of an operation.
Then it is recognized wherever it stands, and everything else as before.

* `symbols_grammar`: the table has one symbol more.
* `first?_of_not_starts`, `first?_symbol`: what its recognizer finds.
* `isBuilt_of_parse`: what it makes of a text is built of its operators.
-/

namespace Precedence

open Precedence.Source Precedence.Text

namespace Grammar

variable {V : Type}

theorem recognizer_append (g : Grammar V) (s : Symbol V) :
    (g.append s).recognizer = Recognizer.ofEntries (g.entries ++ [s.toEntry]) := by
  rw [entries, ← List.map_singleton, ← List.map_append]
  rfl

end Grammar

namespace Calculator

/-- Whether the character may be written in operands or next to them: in numbers without a point and
in names, as a parenthesis, or as the sign in front of an operand. -/
def isOperandChar (x : Char) : Bool :=
  nameRest.contains x || x == '(' || x == ')' || x == '-'

/-- A symbol that is new to the calculators and cannot merge with their tokens: it has a character
that no operand is written with. -/
structure IsFresh (symbol : String) : Prop where
  isClassId : isClassId symbol = false
  sign_ne : ∀ op : Operation, op.sign ≠ symbol
  not_blank : ∀ x ∈ symbol.toList, isBlank x = false
  exists_foreign : ∃ x ∈ symbol.toList, isOperandChar x = false

/-- An operator with a fresh symbol. -/
structure Addition where
  symbol : String
  power : Nat
  commutative : Bool
  isFresh : IsFresh symbol
  power_pos : 1 ≤ power

namespace Addition

variable (a : Addition)

/-- What the operator's nodes are tagged with. -/
def operator : Operator :=
  (Operator.between a.symbol a.power .left).withFlags true a.commutative

/-- `algebra` with the operator. -/
def grammar : Grammar Value :=
  ((Build.algebraic a.symbol a.power true a.commutative).on algebra).2

/-- The symbol that the operator adds. -/
def added : Symbol Value where
  id := a.symbol
  power := a.power
  pattern? := some (.literal a.symbol)
  operator? := some a.operator
  nud? := none
  led? := some (Build.betweenLed a.operator)

/-! ## The table -/

theorem exists_cons : ∃ x xs, a.symbol.toList = x :: xs := by
  obtain ⟨x, hx, -⟩ := a.isFresh.exists_foreign
  exact List.exists_cons_of_ne_nil (List.ne_nil_of_mem hx)

/-- No character of an operand is a text of its own that the symbol could be. -/
theorem symbol_ne {x : Char} (hx : isOperandChar x = true) : a.symbol ≠ String.ofList [x] := by
  intro h
  obtain ⟨y, hy, hforeign⟩ := a.isFresh.exists_foreign
  rw [h, String.toList_ofList, List.mem_singleton] at hy
  subst hy
  exact Bool.false_ne_true (hforeign.symm.trans hx)

theorem index?_algebra : algebra.index? a.symbol = none := by
  have hclass : ∀ id, isClassId id = true → a.symbol ≠ id := by
    rintro id hid rfl
    exact Bool.false_ne_true (a.isFresh.isClassId.symm.trans hid)
  have hsign : ∀ op : Operation, a.symbol ≠ op.sign := fun op => (a.isFresh.sign_ne op).symm
  have hclosing : a.symbol ≠ ")" := a.symbol_ne (x := ')') (by decide)
  have hopening : a.symbol ≠ "(" := a.symbol_ne (x := '(') (by decide)
  rw [Grammar.index?, algebra_symbols, List.findIdx?_eq_none_iff]
  intro s hs
  have hne : a.symbol ≠ s.id := by
    simp only [calculatorSymbols, operandSymbols, List.mem_append, List.mem_cons,
      List.not_mem_nil, or_false] at hs
    rcases hs with (rfl | rfl | rfl | rfl | rfl) | rfl | rfl | rfl | rfl | rfl
    · exact hclass "(end)" (by decide)
    · exact hclass "(number)" (by decide)
    · exact hclass "(name)" (by decide)
    · exact hclosing
    · exact hopening
    · exact hsign .subtract
    · exact hsign .add
    · exact hsign .multiply
    · exact hsign .divide
    · exact hsign .power
  exact beq_eq_false_iff_ne.mpr hne.symm

/-- The grammar is `algebra` with one symbol more. -/
theorem grammar_eq : a.grammar = algebra.append a.added := by
  have hempty : a.operator.symbol.isEmpty = false := by
    obtain ⟨x, xs, hcons⟩ := a.exists_cons
    rw [← Bool.not_eq_true, String.isEmpty_iff]
    rintro h
    rw [show a.symbol = "" from h] at hcons
    cases hcons
  have hknown : algebra.known a.operator.symbol =
      Symbol.fresh a.symbol (some (.literal a.symbol)) :=
    Grammar.known_of_index? a.index?_algebra a.isFresh.isClassId
  unfold grammar
  rw [show Build.algebraic a.symbol a.power true a.commutative = Build.between a.operator from rfl,
    Build.between_on_new a.operator hempty a.index?_algebra, hknown]
  simp [added, Symbol.raised, Symbol.fresh, operator, Operator.between, Operator.withFlags]

theorem symbols_grammar :
    a.grammar.symbols = calculatorSymbols (fun op => some op.operator)
      (fun op => Build.betweenLed op.operator) ++ [a.added] := by
  rw [a.grammar_eq, Grammar.append, algebra_symbols]

theorem hasVocabulary : a.grammar.HasVocabulary where
  operands := by
    rw [a.symbols_grammar, calculatorSymbols, List.append_assoc]
    exact List.prefix_append _ _
  minus := by
    rw [a.symbols_grammar]
    exact ⟨_, rfl, rfl⟩

/-! ## The recognizer -/

/-- The recognizer of the calculators is the one for the table of `algebra`. -/
theorem ofEntries_algebra : Recognizer.ofEntries algebra.entries = .ok calculatorRecognizer := by
  rw [Grammar.entries, algebra_symbols]
  exact ofEntries_calculatorSymbols _ _

theorem literals_algebra :
    Recognizer.literals 0 [] algebra.entries = signs.map fun d => (d.1, [d.2]) := by
  rw [Grammar.entries, algebra_symbols]
  decide +kernel

theorem length_entries_algebra : algebra.entries.length = 10 := by
  rw [Grammar.entries, algebra_symbols]
  rfl

/-- No sign is the symbol. -/
theorem symbol_ne_of_mem_signs {d : Nat × Char} (hd : d ∈ signs) :
    a.symbol ≠ String.ofList [d.2] := by
  simp only [signs, List.mem_cons, List.not_mem_nil, or_false] at hd
  rcases hd with rfl | rfl | rfl | rfl | rfl | rfl | rfl
  · exact a.symbol_ne (by decide)
  · exact a.symbol_ne (by decide)
  · exact a.symbol_ne (by decide)
  · exact (a.isFresh.sign_ne .add).symm
  · exact (a.isFresh.sign_ne .multiply).symm
  · exact (a.isFresh.sign_ne .divide).symm
  · exact (a.isFresh.sign_ne .power).symm

variable {a} {r : Recognizer} {before : Option Char} {text : List Char}

theorem ofEntries_grammar (hr : a.grammar.recognizer = .ok r) :
    Recognizer.ofEntries (algebra.entries ++ [a.added.toEntry]) = .ok r := by
  rw [← Grammar.recognizer_append, ← a.grammar_eq]
  exact hr

/-- **Where the symbol does not stand the calculators' tokens are found.** -/
theorem first?_of_not_starts (hr : a.grammar.recognizer = .ok r)
    (h : ¬ a.symbol.toList <+: text) :
    r.first? before text = calculatorRecognizer.first? before text :=
  Recognizer.first?_of_not_starts ofEntries_algebra (ofEntries_grammar hr)
    (List.forall_mem_singleton.mpr rfl) (List.forall_mem_singleton.mpr h)

/-- **Where the symbol stands it is found.** -/
theorem first?_symbol (hr : a.grammar.recognizer = .ok r) (rest : List Char) :
    r.first? before (a.symbol.toList ++ rest) = some (10, a.symbol.toList.length) := by
  rw [← length_entries_algebra]
  refine Recognizer.first?_of_starts ofEntries_algebra (ofEntries_grammar hr) rfl
    (List.prefix_append _ _) fun x hx hstart => ?_
  rw [literals_algebra] at hx
  obtain ⟨d, hd, rfl⟩ := List.mem_map.mp hx
  have hne := a.symbol_ne_of_mem_signs hd
  obtain ⟨y, ys, hcons⟩ := a.exists_cons
  -- A sign that the text begins with is the first character of the symbol, which goes on.
  rw [hcons, List.cons_append, List.cons_prefix_cons] at hstart
  show byteLength [d.2] < byteLength a.symbol.toList
  rw [hcons, hstart.1, byteLength_cons, byteLength_cons]
  refine Nat.add_lt_add_left (Cursor.byteLength_pos fun hnil => hne ?_) _
  rw [← String.toList_inj, hcons, hnil, String.toList_ofList, hstart.1]

theorem isProgressive (hr : a.grammar.recognizer = .ok r) : r.IsProgressive where
  ne_end := by
    rintro ⟨i, rule⟩ hrule
    obtain ⟨p, hp, -⟩ := (Recognizer.mem_rules_iff (ofEntries_grammar hr)).mp hrule
    rintro rfl
    rw [Recognizer.patternAt?, Grammar.entries, algebra_symbols] at hp
    simp [calculatorSymbols, operandSymbols, Symbol.fresh] at hp
  pos := by
    intro before text symbol n hfirst
    by_cases h : a.symbol.toList <+: text
    · obtain ⟨rest, rfl⟩ := h
      rw [first?_symbol hr] at hfirst
      obtain ⟨y, ys, hcons⟩ := a.exists_cons
      cases hfirst
      rw [hcons]
      exact Nat.succ_pos _
    · rw [first?_of_not_starts hr h] at hfirst
      exact isProgressive_calculatorRecognizer.pos _ _ _ _ hfirst

/-- The names of a scan are spelled as names. -/
theorem isName_of_mem_scan (hr : a.grammar.recognizer = .ok r) {input : String} {t : Token}
    (ht : t ∈ (r.scan input).tokens) (hsymbol : t.symbol = 2) : IsName t.text := by
  obtain ⟨c', hleads, -⟩ := Recognizer.exists_leads_scan (isProgressive hr) input
  obtain ⟨before, text, n, hfirst, htext⟩ := hleads.exists_first? ht
  rw [hsymbol] at hfirst
  by_cases h : a.symbol.toList <+: text
  · obtain ⟨rest, rfl⟩ := h
    rw [first?_symbol hr] at hfirst
    cases hfirst
  · rw [first?_of_not_starts hr h] at hfirst
    obtain ⟨rule, hrule, hn⟩ := Recognizer.exists_rule_of_first? hfirst
    have honly : ∀ x ∈ calculatorRecognizer.rules, x.1 = 2 → x.2 = .regex nameRegex := by decide
    obtain rfl : rule = .regex nameRegex := honly _ hrule rfl
    rw [htext]
    exact isName_of_matchLength? hn

/-! ## The operators -/

/-- The operators of the grammar, with the indices of their symbols. -/
inductive Places (a : Addition) : Operator → Nat → Prop where
  | kept (op : Operation) : Places a op.operator (Terminal.sign op).symbol
  | added : Places a a.operator 10

/-- The operator is one of the grammar. -/
def Knows (a : Addition) (op : Operator) : Prop :=
  ∃ i, a.Places op i

theorem knows_kept (op : Operation) : a.Knows op.operator :=
  ⟨_, .kept op⟩

theorem knows_operator (a : Addition) : a.Knows a.operator :=
  ⟨_, .added⟩

variable {op : Operator} {i : Nat} {input : String} {t : Token} {c : Context}

theorem isRepertoire (a : Addition) : Operator.IsRepertoire a.Knows where
  fixity := by
    rintro op ⟨i, ⟨op⟩ | _⟩
    · cases op <;> rfl
    · rfl
  eq_of_symbol := by
    have hne : ∀ op : Operation, op.operator.symbol ≠ a.operator.symbol := fun op => by
      rw [show op.operator.symbol = op.sign by cases op <;> rfl]
      exact a.isFresh.sign_ne op
    rintro _ _ ⟨i, ⟨op⟩ | _⟩ ⟨j, ⟨op'⟩ | _⟩ h
    · rw [(show op = op' by revert h; cases op <;> cases op' <;> decide)]
    · exact absurd h (hne op)
    · exact absurd h.symm (hne op')
    · rfl
  rightPower := by
    rintro op ⟨i, ⟨op⟩ | _⟩ h
    · revert h
      cases op <;> decide
    · rfl
  positive := by
    rintro op ⟨i, ⟨op⟩ | _⟩
    · cases op <;> decide
    · exact a.power_pos

/-- An operator takes a second operand. -/
theorem Places.isInfix (h : a.Places op i) (ht : t.symbol = i) :
    a.grammar.IsInfix (a.grammar.context input) op t := by
  obtain ⟨s, hs, hpower, hled⟩ : ∃ s, a.grammar.symbols[t.symbol]? = some s ∧
      s.power = op.power ∧ s.led? = some (Build.betweenLed op) := by
    rw [ht, a.symbols_grammar]
    cases h with
    | kept op => cases op <;> exact ⟨_, rfl, rfl, rfl⟩
    | added => exact ⟨_, rfl, rfl, rfl⟩
  refine ⟨(Grammar.power_context hs).trans hpower, fun left => ?_, ?_⟩
  · rw [Grammar.ledAction, hs, Option.bind_some, hled]
  · exact a.isRepertoire.positive op ⟨i, h⟩

/-- What a token does behind an operand: it is an operator, or it fails. -/
theorem ledAction_cases (t : Token) (left : Value) :
    (∃ op, a.Knows op ∧ a.grammar.ledAction c t left = Build.betweenLed op c t left) ∨
      ∃ e, a.grammar.ledAction c t left = .fail e := by
  have hled : ∀ s ∈ a.grammar.symbols, s.led? = none ∨
      ∃ op, a.Knows op ∧ s.led? = some (Build.betweenLed op) := by
    intro s hs
    rw [a.symbols_grammar] at hs
    simp only [calculatorSymbols, operandSymbols, List.mem_append, List.mem_cons,
      List.not_mem_nil, or_false] at hs
    rcases hs with ((rfl | rfl | rfl | rfl | rfl) | rfl | rfl | rfl | rfl | rfl) | rfl
    · exact .inl rfl
    · exact .inl rfl
    · exact .inl rfl
    · exact .inl rfl
    · exact .inl rfl
    · exact .inr ⟨_, knows_kept .subtract, rfl⟩
    · exact .inr ⟨_, knows_kept .add, rfl⟩
    · exact .inr ⟨_, knows_kept .multiply, rfl⟩
    · exact .inr ⟨_, knows_kept .divide, rfl⟩
    · exact .inr ⟨_, knows_kept .power, rfl⟩
    · exact .inr ⟨_, a.knows_operator, rfl⟩
  unfold Grammar.ledAction
  cases hs : a.grammar.symbols[t.symbol]? with
  | none => exact .inr ⟨_, rfl⟩
  | some s =>
    rw [Option.bind_some]
    rcases hled s (List.mem_of_getElem? hs) with hnone | ⟨op, hop, hsome⟩
    · rw [hnone]
      exact .inr ⟨_, rfl⟩
    · rw [hsome]
      exact .inl ⟨op, hop, rfl⟩

/-! ## What the grammar makes -/

/-- What a token of a symbol does where an operand begins. -/
def nudAt? : Nat → Option (Nud Value)
  | 1 => some (Build.literalNud convertNumber)
  | 2 => some (Build.literalNud convertName)
  | 4 => some parentheses
  | 5 => some minus
  | _ => none

theorem nud?_grammar (a : Addition) (i : Nat) :
    a.grammar.symbols[i]?.bind (·.nud?) = nudAt? i := by
  rw [a.symbols_grammar]
  rcases i with _ | _ | _ | _ | _ | _ | _ | _ | _ | _ | _ | i <;> rfl

section

open Precedence.Action

variable {T : Token → Prop} {known : Operator → Prop} {v : Value}

theorem yields_literalAt (text : String) (span : Span) :
    (literalAt c text span).Yields T (Value.IsBuilt known) (Value.IsBuilt known) := by
  unfold literalAt
  cases h : Value.readNumber text with
  | error e => exact yields_fail _
  | ok v => exact yields_pure (.readNumber h)

theorem yields_oppositeAt (hv : v.IsBuilt known) (span : Span) :
    (oppositeAt c v span).Yields T (Value.IsBuilt known) (Value.IsBuilt known) := by
  unfold oppositeAt
  cases h : v.negate with
  | error e => exact yields_fail _
  | ok w => exact yields_pure (hv.negate h)

theorem yields_number (t : Token) :
    (Build.literalNud convertNumber c t).Yields T (Value.IsBuilt known)
      (Value.IsBuilt known) := by
  unfold Build.literalNud convertNumber
  cases h : Value.readNumber t.text with
  | error e => exact yields_fail _
  | ok v => exact yields_pure (.readNumber h)

theorem yields_name (h : IsName t.text) :
    (Build.literalNud convertName c t).Yields T (Value.IsBuilt known) (Value.IsBuilt known) :=
  yields_pure (.var h)

theorem yields_takeExpected (id : String) :
    (takeExpected c id : Action Value Token).Yields T (Value.IsBuilt known) T := by
  unfold takeExpected
  refine yields_peekToken.bind fun t _ => ?_
  split
  · exact yields_fail _
  · split
    · exact yields_fail _
    · exact yields_takeToken

theorem yields_parentheses (t : Token) :
    (parentheses c t).Yields T (Value.IsBuilt known) (Value.IsBuilt known) := by
  unfold parentheses
  refine (yields_operand 0).bind fun v hv => ?_
  exact (yields_takeExpected ")").bind fun _ _ => yields_pure hv

theorem yields_minus (t : Token) :
    (minus c t).Yields T (Value.IsBuilt known) (Value.IsBuilt known) := by
  unfold minus
  refine yields_peekToken.bind fun next _ => ?_
  split
  · refine yields_takeToken.bind fun number _ => yields_peekToken.bind fun following _ => ?_
    split
    · exact yields_literalAt _ _
    · refine (yields_literalAt _ _).bind fun magnitude hmagnitude => ?_
      exact (yields_continued hmagnitude _).bind fun v hv => yields_oppositeAt hv _
  · exact (yields_operand _).bind fun v hv => yields_oppositeAt hv _

end

/-- **The grammar makes values that are built of its operators,** of tokens the names of which are
names. -/
theorem makes (a : Addition) (c : Context) :
    a.grammar.Makes c (fun t => t.symbol = 2 → IsName t.text) (Value.IsBuilt a.Knows) where
  nud t ht := by
    unfold Grammar.nudAction
    rw [a.nud?_grammar]
    unfold nudAt?
    split
    · rename_i hnud
      split at hnud
      · cases hnud
        exact yields_number t
      · rename_i hsymbol
        cases hnud
        exact yields_name (ht hsymbol)
      · cases hnud
        exact yields_parentheses t
      · cases hnud
        exact yields_minus t
      · cases hnud
    · split
      · exact Action.yields_fail _
      · exact Action.yields_fail _
  led t left _ hleft := by
    rcases a.ledAction_cases (c := c) t left with ⟨op, hop, hled⟩ | ⟨e, he⟩
    · rw [hled]
      unfold Build.betweenLed
      refine (Action.yields_operand _).bind fun right hright => ?_
      exact Action.yields_pure (hleft.combine a.isRepertoire hop hright)
    · rw [he]
      exact Action.yields_fail e

/-- **What the grammar makes of a text is built of its operators.** -/
theorem isBuilt_of_parse {v : Value} {stats : Stats}
    (h : a.grammar.parse input = some (.ok (v, stats))) :
    ∃ r, a.grammar.recognizer = .ok r ∧ v.IsBuilt a.Knows := by
  cases hr : a.grammar.recognizer with
  | error e =>
    rw [Grammar.parse, hr] at h
    cases h
  | ok r =>
    refine ⟨r, rfl, Grammar.of_parse hr (a.makes _) (fun t ht => isName_of_mem_scan hr ht) ?_ h⟩
    intro t hending hsymbol
    have hend := Recognizer.symbol_eq_of_scan (isProgressive hr) hending
    omega

end Addition

end Calculator

end Precedence
