import Precedence.Proofs.Calculator.Tables
import Precedence.Proofs.Except

/-!
# Phrases

The language of the calculators, as derivations of a grammar without ambiguity:

```
sum     = product | sum "+" product | sum "-" product
product = signed | product "*" signed | product "/" signed
signed  = atom | atom "^" signed | "-" signed
atom    = number | name | "(" sum ")"
```

A phrase is a derivation. It has the terminals that it derives, the value that a calculator gives
it, and the tally of what a parse does to find it. Sums and products fold from the left and powers
from the right, by the shape of the derivations.
-/

namespace Precedence

namespace Calculator

/-- What a token is to the language. -/
inductive Terminal where
  | number (text : String)
  | name (text : String)
  | opening
  | closing
  | sign (op : Operation)
deriving DecidableEq

/-- How tightly a terminal binds the operand before it. -/
def Terminal.power : Terminal → Nat
  | sign op => op.leftPower
  | _ => 0

end Calculator

open Calculator in
/-- The terminal that a token of the calculators is. The end of the text is none. -/
def Token.terminal? (t : Token) : Option Terminal :=
  match t.symbol with
  | 1 => some (.number t.text)
  | 2 => some (.name t.text)
  | 3 => some .closing
  | 4 => some .opening
  | 5 => some (.sign .subtract)
  | 6 => some (.sign .add)
  | 7 => some (.sign .multiply)
  | 8 => some (.sign .divide)
  | 9 => some (.sign .power)
  | _ => none

theorem Token.of_terminal?_number {t : Token} {text : String}
    (h : t.terminal? = some (.number text)) : t.symbol = 1 ∧ t.text = text := by
  unfold terminal? at h
  split at h <;> simp_all

theorem Token.of_terminal?_name {t : Token} {text : String}
    (h : t.terminal? = some (.name text)) : t.symbol = 2 ∧ t.text = text := by
  unfold terminal? at h
  split at h <;> simp_all

theorem Token.terminal?_number {t : Token} (h : t.symbol = 1) :
    t.terminal? = some (.number t.text) := by
  simp only [terminal?, h]

/-- The binding power of a token. -/
def Token.power (t : Token) : Nat :=
  (t.terminal?.map Calculator.Terminal.power).getD 0

namespace Calculator

/-- The kinds of phrases, from the loosest to the tightest. -/
inductive Level where
  | sum
  | product
  | signed
  | atom
deriving DecidableEq

/-- The derivations of a kind of phrase. -/
inductive Phrase : Level → Type where
  | number (text : String) : Phrase .atom
  | name (text : String) : Phrase .atom
  | group (e : Phrase .sum) : Phrase .atom
  | plain (a : Phrase .atom) : Phrase .signed
  | raised (a : Phrase .atom) (u : Phrase .signed) : Phrase .signed
  | negated (u : Phrase .signed) : Phrase .signed
  | factor (u : Phrase .signed) : Phrase .product
  | multiplied (t : Phrase .product) (u : Phrase .signed) : Phrase .product
  | divided (t : Phrase .product) (u : Phrase .signed) : Phrase .product
  | term (t : Phrase .product) : Phrase .sum
  | added (e : Phrase .sum) (t : Phrase .product) : Phrase .sum
  | subtracted (e : Phrase .sum) (t : Phrase .product) : Phrase .sum

/-- What a parse does to find a phrase: the operands that it starts, those that it continues, and
how deeply it nests expressions. -/
structure Tally where
  nuds : Nat
  leds : Nat
  height : Nat
deriving DecidableEq

namespace Tally

/-- Nothing is done. -/
def nothing : Tally := ⟨0, 0, 0⟩

/-- An operand is started. -/
def operand : Tally := ⟨1, 0, 0⟩

/-- An operand is continued. -/
def operator : Tally := ⟨0, 1, 0⟩

/-- One thing is done and then another. -/
def and (j k : Tally) : Tally :=
  ⟨j.nuds + k.nuds, j.leds + k.leds, max j.height k.height⟩

/-- Something is done inside of an expression. -/
def nested (k : Tally) : Tally :=
  { k with height := k.height + 1 }

@[simp] theorem nothing_and (k : Tally) : nothing.and k = k := by
  simp [and, nothing]

@[simp] theorem and_nothing (k : Tally) : k.and nothing = k := by
  simp [and, nothing]

end Tally

namespace Phrase

variable {N : Level}

/-- The terminals of a phrase. -/
def terminals : {N : Level} → Phrase N → List Terminal
  | _, number text => [.number text]
  | _, name text => [.name text]
  | _, group e => .opening :: e.terminals ++ [.closing]
  | _, plain a => a.terminals
  | _, raised a u => a.terminals ++ .sign .power :: u.terminals
  | _, negated u => .sign .subtract :: u.terminals
  | _, factor u => u.terminals
  | _, multiplied t u => t.terminals ++ .sign .multiply :: u.terminals
  | _, divided t u => t.terminals ++ .sign .divide :: u.terminals
  | _, term t => t.terminals
  | _, added e t => e.terminals ++ .sign .add :: t.terminals
  | _, subtracted e t => e.terminals ++ .sign .subtract :: t.terminals

/-- The text of a phrase that is a number. -/
def literal? : {N : Level} → Phrase N → Option String
  | _, number text => some text
  | _, plain a => a.literal?
  | _, _ => none

/-- The text of the number that a phrase below a sign begins with. -/
def head? : {N : Level} → Phrase N → Option String
  | _, number text => some text
  | _, plain a => a.head?
  | _, raised a _ => a.head?
  | _, _ => none

/-- A phrase below a sign begins with its number, or with a terminal that is none. -/
theorem head?_eq : {N : Level} → (e : Phrase N) → (N = .atom ∨ N = .signed) →
    ∃ x ts, e.terminals = x :: ts ∧ (∀ text, x = .number text ↔ e.head? = some text)
  | _, number text, _ => ⟨_, _, rfl, by simp [head?]⟩
  | _, name text, _ => ⟨_, _, rfl, by simp [head?]⟩
  | _, group e, _ => ⟨_, _, rfl, by simp [head?]⟩
  | _, plain a, _ => head?_eq a (.inl rfl)
  | _, raised a u, _ => by
    obtain ⟨x, ts, h, hx⟩ := head?_eq a (.inl rfl)
    exact ⟨x, ts ++ .sign .power :: u.terminals, by rw [terminals, h]; rfl, hx⟩
  | _, negated u, _ => ⟨_, _, rfl, by simp [head?]⟩

theorem terminals_of_literal? : {N : Level} → (e : Phrase N) → ∀ {text : String},
    e.literal? = some text → e.terminals = [.number text] ∧ e.head? = some text
  | _, number _, _, h => by cases h; exact ⟨rfl, rfl⟩
  | _, plain a, _, h => terminals_of_literal? a h

/-- What a parse does to find a phrase. A minus sign takes a number behind it as part of its own
operand. -/
def tally : {N : Level} → Phrase N → Tally
  | _, number _ => .operand
  | _, name _ => .operand
  | _, group e => Tally.operand.and e.tally.nested
  | _, plain a => a.tally
  | _, raised a u => a.tally.and (Tally.operator.and u.tally.nested)
  | _, negated u => if u.head?.isSome then u.tally else Tally.operand.and u.tally.nested
  | _, factor u => u.tally
  | _, multiplied t u => t.tally.and (Tally.operator.and u.tally.nested)
  | _, divided t u => t.tally.and (Tally.operator.and u.tally.nested)
  | _, term t => t.tally
  | _, added e t => e.tally.and (Tally.operator.and t.tally.nested)
  | _, subtracted e t => e.tally.and (Tally.operator.and t.tally.nested)

/-- The value of a phrase, if it has one, for a way to perform operations. A minus sign before a
number is part of the number. -/
def value (perform : Operation → Value → Value → Option Value) :
    {N : Level} → Phrase N → Option Value
  | _, number text => (Value.readNumber text).toOption
  | _, name text => some (.var text)
  | _, group e => e.value perform
  | _, plain a => a.value perform
  | _, raised a u => do perform .power (← a.value perform) (← u.value perform)
  | _, negated u =>
    match u.literal? with
    | some text => (Value.readNumber ("-" ++ text)).toOption
    | none => do (← u.value perform).negate.toOption
  | _, factor u => u.value perform
  | _, multiplied t u => do perform .multiply (← t.value perform) (← u.value perform)
  | _, divided t u => do perform .divide (← t.value perform) (← u.value perform)
  | _, term t => t.value perform
  | _, added e t => do perform .add (← e.value perform) (← t.value perform)
  | _, subtracted e t => do perform .subtract (← e.value perform) (← t.value perform)

theorem value_of_literal? (perform : Operation → Value → Value → Option Value) :
    {N : Level} → (e : Phrase N) → ∀ {text : String}, e.literal? = some text →
      e.value perform = (Value.readNumber text).toOption
  | _, number _, _, h => by cases h; rfl
  | _, plain a, _, h => value_of_literal? perform a h

end Phrase

/-! ## Operations on phrases -/

namespace Level

/-- Phrases of the kind can stand where operators bind tighter than any lower power. -/
def floor : Level → Nat
  | sum => 50
  | product => 60
  | signed => 80
  | atom => 81

/-- How tightly a terminal behind a phrase of the kind may bind. -/
def cap : Level → Nat
  | sum => 50
  | product => 60
  | signed => 70
  | atom => 80

/-- The lowest power for which an expression is a phrase of the kind. -/
def bottom : Level → Nat
  | sum => 0
  | product => 50
  | signed => 60
  | atom => 80

/-- What an operation takes on its left. -/
def left : Operation → Level
  | .add | .subtract => sum
  | .multiply | .divide => product
  | .power => atom

/-- What an operation takes on its right. -/
def right : Operation → Level
  | .add | .subtract => product
  | .multiply | .divide | .power => signed

/-- What an operation makes of its operands. -/
def of : Operation → Level
  | .add | .subtract => sum
  | .multiply | .divide => product
  | .power => signed

/-- The right operand of an operation is looked for where operators bind tighter than its right
power. -/
theorem right_bounds (op : Operation) :
    (right op).bottom ≤ op.rightPower ∧ op.rightPower < 80 ∧ op.leftPower ≤ (of op).floor := by
  cases op <;> decide

/-- A phrase behind which an operation may stand can be its left operand. -/
theorem bottom_left_lt {op : Operation} {M : Level} (h : op.leftPower ≤ M.cap) :
    (left op).bottom < M.floor := by
  revert h
  cases op <;> cases M <;> decide

end Level

namespace Phrase

/-- An operation applied to phrases. -/
def applied : (op : Operation) → Phrase (.left op) → Phrase (.right op) → Phrase (.of op)
  | .add, a, b => added a b
  | .subtract, a, b => subtracted a b
  | .multiply, a, b => multiplied a b
  | .divide, a, b => divided a b
  | .power, a, b => raised a b

variable {op : Operation} (a : Phrase (.left op)) (b : Phrase (.right op))

theorem terminals_applied :
    (applied op a b).terminals = a.terminals ++ .sign op :: b.terminals := by
  cases op <;> rfl

theorem tally_applied :
    (applied op a b).tally = a.tally.and (Tally.operator.and b.tally.nested) := by
  cases op <;> rfl

theorem value_applied (perform : Operation → Value → Value → Option Value) :
    (applied op a b).value perform = (do perform op (← a.value perform) (← b.value perform)) := by
  cases op <;> rfl

theorem height_group (e : Phrase .sum) : (group e).tally.height = e.tally.height + 1 := by
  simp [tally, Tally.and, Tally.operand, Tally.nested]

theorem height_negated (u : Phrase .signed) :
    (negated u).tally.height = if u.head?.isSome then u.tally.height else u.tally.height + 1 := by
  rw [tally]
  split
  · rfl
  · simp [Tally.and, Tally.operand, Tally.nested]

theorem height_applied (op : Operation) (a : Phrase (.left op)) (b : Phrase (.right op)) :
    (applied op a b).tally.height = max a.tally.height (b.tally.height + 1) := by
  simp [tally_applied, Tally.and, Tally.operator, Tally.nested]

/-- The value of a minus sign is that of a literal with the sign, or the opposite of the operand. -/
theorem value_negated_eq_some_iff {perform : Operation → Value → Value → Option Value}
    {u : Phrase .signed} {w : Value} : (negated u).value perform = some w ↔
      (∃ text, u.literal? = some text ∧ Value.readNumber ("-" ++ text) = .ok w) ∨
        u.literal? = none ∧ ∃ v, u.value perform = some v ∧ v.negate = .ok w := by
  rw [value]
  cases u.literal? with
  | some text => simp [toOption_eq_some_iff]
  | none => simp [toOption_eq_some_iff, Option.bind_eq_some_iff]

/-- The value of an operation is made of the values of its operands. -/
theorem value_applied_eq_some_iff {perform : Operation → Value → Value → Option Value}
    {a : Phrase (.left op)} {b : Phrase (.right op)} {w : Value} :
    (applied op a b).value perform = some w ↔
      ∃ v u, a.value perform = some v ∧ b.value perform = some u ∧ perform op v u = some w := by
  rw [value_applied]
  constructor
  · intro h
    obtain ⟨v, hv, h⟩ := Option.bind_eq_some_iff.mp h
    obtain ⟨u, hu, h⟩ := Option.bind_eq_some_iff.mp h
    exact ⟨v, u, hv, hu, h⟩
  · rintro ⟨v, u, hv, hu, h⟩
    rw [hv, hu]
    exact h

/-- Induction over phrases, with one case for all operations. -/
@[elab_as_elim]
theorem inductionOn {motive : (N : Level) → Phrase N → Prop} {N : Level} (e : Phrase N)
    (number : ∀ text, motive .atom (.number text)) (name : ∀ text, motive .atom (.name text))
    (group : ∀ e, motive .sum e → motive .atom (.group e))
    (plain : ∀ a, motive .atom a → motive .signed (.plain a))
    (negated : ∀ u, motive .signed u → motive .signed (.negated u))
    (factor : ∀ u, motive .signed u → motive .product (.factor u))
    (term : ∀ t, motive .product t → motive .sum (.term t))
    (applied : ∀ op a b, motive (.left op) a → motive (.right op) b →
      motive (.of op) (.applied op a b)) : motive N e := by
  induction e with
  | number text => exact number text
  | name text => exact name text
  | group e ih => exact group e ih
  | plain a ih => exact plain a ih
  | raised a u iha ihu => exact applied .power a u iha ihu
  | negated u ih => exact negated u ih
  | factor u ih => exact factor u ih
  | multiplied t u iht ihu => exact applied .multiply t u iht ihu
  | divided t u iht ihu => exact applied .divide t u iht ihu
  | term t ih => exact term t ih
  | added e t ihe iht => exact applied .add e t ihe iht
  | subtracted e t ihe iht => exact applied .subtract e t ihe iht

/-- A phrase of a tighter kind is one of a looser kind, and does not change by that. -/
theorem exists_widen {M N : Level} (e : Phrase M) (h : N.bottom < M.floor) :
    ∃ e' : Phrase N, e'.terminals = e.terminals ∧ e'.tally = e.tally ∧
      ∀ perform, e'.value perform = e.value perform := by
  cases N with
  | atom =>
    cases M with
    | atom => exact ⟨e, rfl, rfl, fun _ => rfl⟩
    | sum | product | signed => exact absurd h (by decide)
  | signed =>
    cases M with
    | atom => exact ⟨.plain e, rfl, rfl, fun _ => rfl⟩
    | signed => exact ⟨e, rfl, rfl, fun _ => rfl⟩
    | sum | product => exact absurd h (by decide)
  | product =>
    cases M with
    | atom => exact ⟨.factor (.plain e), rfl, rfl, fun _ => rfl⟩
    | signed => exact ⟨.factor e, rfl, rfl, fun _ => rfl⟩
    | product => exact ⟨e, rfl, rfl, fun _ => rfl⟩
    | sum => exact absurd h (by decide)
  | sum =>
    cases M with
    | atom => exact ⟨.term (.factor (.plain e)), rfl, rfl, fun _ => rfl⟩
    | signed => exact ⟨.term (.factor e), rfl, rfl, fun _ => rfl⟩
    | product => exact ⟨.term e, rfl, rfl, fun _ => rfl⟩
    | sum => exact ⟨e, rfl, rfl, fun _ => rfl⟩

end Phrase

/-! ## The values of the two calculators -/

/-- An operation keeps its operands. -/
def kept (op : Operation) (left right : Value) : Option Value :=
  some (Term.combine op.operator left right)

/-- An operation is computed. -/
def computedAtOnce (op : Operation) (left right : Value) : Option Value :=
  (left.apply op right).toOption

namespace Phrase

variable {P : Value → Prop}

/-- **What holds of literals and names, and what operations and minus signs preserve, holds of the
values of phrases.** -/
theorem of_value {perform : Operation → Value → Value → Option Value}
    (hnumber : ∀ text v, Value.readNumber text = .ok v → P v)
    (hnegate : ∀ v w : Value, P v → v.negate = .ok w → P w)
    (hperform : ∀ op v w u, P v → P w → perform op v w = some u → P u)
    {N : Level} (e : Phrase N) (hname : ∀ text, .name text ∈ e.terminals → P (.var text))
    {w : Value} (h : e.value perform = some w) : P w := by
  induction e using inductionOn generalizing w with
  | number text => exact hnumber text w (toOption_eq_some_iff.mp h)
  | name text =>
    cases h
    exact hname text List.mem_cons_self
  | group e ih => exact ih (fun text ht => hname text (by simp [terminals, ht])) h
  | plain a ih => exact ih hname h
  | negated u ih =>
    obtain ⟨text, -, h⟩ | ⟨-, v, hv, h⟩ := value_negated_eq_some_iff.mp h
    · exact hnumber _ w h
    · exact hnegate v w (ih (fun text ht => hname text (by simp [terminals, ht])) hv) h
  | factor u ih => exact ih hname h
  | term t ih => exact ih hname h
  | applied op a b iha ihb =>
    rw [terminals_applied] at hname
    obtain ⟨v, u, hv, hu, h⟩ := value_applied_eq_some_iff.mp h
    exact hperform op v u w (iha (fun text ht => hname text (by simp [ht])) hv)
      (ihb (fun text ht => hname text (by simp [ht])) hu) h

end Phrase

end Calculator

end Precedence
