import Precedence.Grammar.Token

/-!
# Actions

What a symbol does in a parse is an action: it looks at tokens, takes them, has operands parsed,
and ends with a value or an error. Actions are data. A parse carries out the requests of an action
one by one and hands it the answers, errors included, so that an action may go on after an error.
The `do` notation passes errors on; `attempt` hands them over.
-/

namespace Precedence

open Precedence.Source

/-- Counts of what a parse has done. -/
structure Stats where
  /-- Tokens taken. -/
  tokens : Nat
  /-- Operands started. -/
  nuds : Nat
  /-- Operands continued. -/
  leds : Nat
  /-- The deepest nesting of expressions. -/
  depth : Nat
deriving DecidableEq, Inhabited

/-- What an action may see of the parse. -/
structure Progress where
  /-- The bytes up to the end of the last token that was looked at. -/
  position : Nat
  /-- The span of the last token that was taken. -/
  last : Span
  stats : Stats
deriving DecidableEq

/-- What stays the same during a parse: the text and the table of symbols. -/
structure Context where
  input : String
  entries : List Entry

namespace Context

/-- The entry of a symbol. -/
def entry (c : Context) (symbol : Nat) : Entry :=
  c.entries.getD symbol default

/-- The binding power of a symbol. -/
def power (c : Context) (symbol : Nat) : Nat :=
  (c.entry symbol).power

/-- The id of a symbol. -/
def id (c : Context) (symbol : Nat) : String :=
  (c.entry symbol).id

/-- The index of the symbol with an id. -/
def index? (c : Context) (id : String) : Option Nat :=
  c.entries.findIdx? (·.id == id)

/-- An error at a span of the text. -/
def errorAt (c : Context) (kind : ErrorKind) (message : String) (span : Span) : ParseError where
  kind := kind
  message := message
  input := c.input
  span := span

end Context

/-- A program of requests to a parse that ends with an `α` or an error. Operands are of type
`V`. -/
inductive Action (V α : Type) where
  /-- Ends. -/
  | done (result : Except ParseError α)
  /-- Looks at the next token. -/
  | peek (andThen : Except ParseError Token → Action V α)
  /-- Takes the next token. -/
  | take (andThen : Except ParseError Token → Action V α)
  /-- Has an expression parsed whose operators bind tighter than `least`. -/
  | expression (least : Nat) (andThen : Except ParseError V → Action V α)
  /-- Has an expression continued that begins with the operand `left`. -/
  | resume (left : V) (least : Nat) (andThen : Except ParseError V → Action V α)
  /-- Asks how far the parse has come. -/
  | progress (andThen : Progress → Action V α)

namespace Action

variable {V α β : Type}

/-- One action, then another one that depends on its result. An error of the first one is the error
of both. -/
def bind : Action V α → (α → Action V β) → Action V β
  | done (.ok a), f => f a
  | done (.error e), _ => done (.error e)
  | peek k, f => peek fun r => (k r).bind f
  | take k, f => take fun r => (k r).bind f
  | expression least k, f => expression least fun r => (k r).bind f
  | resume left least k, f => resume left least fun r => (k r).bind f
  | progress k, f => progress fun p => (k p).bind f

instance : Monad (Action V) where
  pure a := done (.ok a)
  bind := bind

/-- An action whose error is handed over as a result. -/
def attempt : Action V α → Action V (Except ParseError α)
  | done r => done (.ok r)
  | peek k => peek fun r => (k r).attempt
  | take k => take fun r => (k r).attempt
  | expression least k => expression least fun r => (k r).attempt
  | resume left least k => resume left least fun r => (k r).attempt
  | progress k => progress fun p => (k p).attempt

/-- Ends with an error. -/
def fail (e : ParseError) : Action V α :=
  done (.error e)

/-- The next token, which stays. -/
def peekToken : Action V Token :=
  peek done

/-- The next token, which is taken. The token for the end of the text can be taken any number of
times. -/
def takeToken : Action V Token :=
  take done

/-- An expression whose operators bind tighter than `least`. -/
def operand (least : Nat) : Action V V :=
  expression least done

/-- The expression that begins with the operand `left`. -/
def continued (left : V) (least : Nat) : Action V V :=
  resume left least done

/-- How far the parse has come. -/
def getProgress : Action V Progress :=
  progress fun p => done (.ok p)

/-- The next token, which is taken and must be of the symbol with a certain id. A different one
stays. -/
def takeExpected (c : Context) (id : String) : Action V Token := do
  let t ← peekToken
  if t.isEnd then
    fail (c.errorAt .unexpectedEnd ("unexpected end of input, expecting " ++ id) t.span)
  else if c.id t.symbol != id then
    fail (c.errorAt .expectedToken ("unexpected token, expecting " ++ id) t.span)
  else takeToken

/-- Ends with an error at the last token that was taken. -/
def failAtLast (c : Context) (kind : ErrorKind) (message : String) : Action V α := do
  let p ← getProgress
  fail (c.errorAt kind message p.last)

theorem bind_done_ok (a : α) (f : α → Action V β) : (done (.ok a)).bind f = f a := rfl

theorem bind_done_error (e : ParseError) (f : α → Action V β) :
    (done (.error e)).bind f = done (.error e) := rfl

theorem bind_pure (m : Action V α) : m.bind (fun a => done (.ok a)) = m := by
  induction m with
  | done r => cases r <;> rfl
  | peek k ih => simp [bind, ih]
  | take k ih => simp [bind, ih]
  | expression least k ih => simp [bind, ih]
  | resume left least k ih => simp [bind, ih]
  | progress k ih => simp [bind, ih]

theorem bind_assoc {γ : Type} (m : Action V α) (f : α → Action V β) (g : β → Action V γ) :
    (m.bind f).bind g = m.bind fun a => (f a).bind g := by
  induction m with
  | done r => cases r <;> rfl
  | peek k ih => simp [bind, ih]
  | take k ih => simp [bind, ih]
  | expression least k ih => simp [bind, ih]
  | resume left least k ih => simp [bind, ih]
  | progress k ih => simp [bind, ih]

end Action

/-- What a symbol does where an operand begins: its null denotation. -/
abbrev Nud (V : Type) : Type :=
  Context → Token → Action V V

/-- What a symbol does behind an operand: its left denotation. -/
abbrev Led (V : Type) : Type :=
  Context → Token → V → Action V V

end Precedence
