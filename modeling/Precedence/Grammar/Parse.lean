import Precedence.Grammar.Basic
import Precedence.Grammar.Scan

/-!
# Parsing

An expression begins with a token that stands for an operand or takes one: its null denotation
gives the first operand. As long as the next token binds tighter than what the expression was asked
for, its left denotation makes a new operand of the one so far. Denotations are actions, and the
requests of an action lead back to expressions.

The token for the end of the text can be taken any number of times, and a grammar may give it a
binding power and a denotation that goes on. Such a parse has no end. So a parse takes a bound on
the nesting of its steps, and `parse` uses one that suffices wherever the end of the text binds no
operand: of any two steps on the way inward, one takes a token or adds to the depth, which is
limited.
-/

namespace Precedence

open Precedence.Source

/-- The state of a parse. -/
structure Session where
  /-- The tokens that have not been taken. -/
  upcoming : List Token
  /-- What comes behind them. -/
  ending : Ending
  /-- The bytes up to the end of the last token that was looked at. -/
  position : Nat
  /-- The span of the last token that was taken; the whole text before the first one. -/
  last : Span
  /-- The nesting of expressions. An expression that fails leaves it raised. -/
  depth : Nat
  stats : Stats
deriving DecidableEq

namespace Session

/-- The state at the beginning of a text. -/
def start (scan : Scan) (length : Nat) : Session where
  upcoming := scan.tokens
  ending := scan.ending
  position := 0
  last := ⟨0, length⟩
  depth := 0
  stats := ⟨0, 0, 0, 0⟩

/-- What an action may see of the state. -/
def progress (s : Session) : Progress where
  position := s.position
  last := s.last
  stats := s.stats

/-- Looks at the next token. -/
def peek (c : Context) (s : Session) : Except ParseError Token × Session :=
  match s.upcoming with
  | t :: _ => (.ok t, { s with position := t.span.stop })
  | [] =>
    match s.ending with
    | .endless t => (.ok t, { s with position := t.span.stop })
    | .unrecognized span => (.error (c.errorAt .unrecognizedInput "unrecognized input" span), s)

/-- The state after the token `t`, which was looked at, is taken. A token that is found any number
of times has no blanks in front of it from the second time on. -/
def drop (s : Session) (t : Token) : Session :=
  { s with
    upcoming := s.upcoming.tail
    ending := match s.upcoming, s.ending with
      | [], .endless t => .endless { t with consumed := 0 }
      | _, ending => ending
    last := t.span
    stats := { s.stats with tokens := s.stats.tokens + 1 } }

/-- Takes the next token. -/
def take (c : Context) (s : Session) : Except ParseError Token × Session :=
  match s.peek c with
  | (.ok t, s) => (.ok t, s.drop t)
  | (.error e, s) => (.error e, s)

/-- The state inside of one more expression. -/
def enter (s : Session) : Session :=
  { s with
    depth := s.depth + 1
    stats := { s.stats with depth := max s.stats.depth (s.depth + 1) } }

/-- The state behind an expression that did not fail. -/
def leave (s : Session) : Session :=
  { s with depth := s.depth - 1 }

/-- The state with one more operand started. -/
def countNud (s : Session) : Session :=
  { s with stats := { s.stats with nuds := s.stats.nuds + 1 } }

/-- The state with one more operand continued. -/
def countLed (s : Session) : Session :=
  { s with stats := { s.stats with leds := s.stats.leds + 1 } }

end Session

/-- The result of a part of a parse and the state behind it; nothing if the bound on the steps was
reached. -/
abbrev Outcome (α : Type) : Type :=
  Option (Except ParseError α × Session)

namespace Action

variable {V α : Type}

/-- Carries out an action. `expression` and `resume` answer its requests for operands. -/
def run (c : Context) (expression : Nat → Session → Outcome V)
    (resume : V → Nat → Session → Outcome V) : Action V α → Session → Outcome α
  | done r, s => some (r, s)
  | peek k, s =>
    match s.peek c with
    | (r, s) => (k r).run c expression resume s
  | take k, s =>
    match s.take c with
    | (r, s) => (k r).run c expression resume s
  | .expression least k, s =>
    match expression least s with
    | none => none
    | some (r, s) => (k r).run c expression resume s
  | .resume left least k, s =>
    match resume left least s with
    | none => none
    | some (r, s) => (k r).run c expression resume s
  | progress k, s => (k s.progress).run c expression resume s

end Action

namespace Grammar

variable {V : Type}

/-- The context of a parse. -/
def context (g : Grammar V) (input : String) : Context where
  input := input
  entries := g.entries

/-- What a token does where an operand begins. -/
def nudAction (g : Grammar V) (c : Context) (t : Token) : Action V V :=
  match g.symbols[t.symbol]?.bind (·.nud?) with
  | some nud => nud c t
  | none =>
    if t.isEnd then .fail (c.errorAt .unexpectedEnd "unexpected end of input" t.span)
    else .fail (c.errorAt .syntaxError "syntax error" t.span)

/-- What a token does behind an operand. -/
def ledAction (g : Grammar V) (c : Context) (t : Token) (left : V) : Action V V :=
  match g.symbols[t.symbol]?.bind (·.led?) with
  | some led => led c t left
  | none => .fail (c.errorAt .unexpectedToken "unexpected token" t.span)

mutual

/-- Parses an expression whose operators bind tighter than `least`. -/
def expression (g : Grammar V) (c : Context) : Nat → Nat → Session → Outcome V
  | 0, _, _ => none
  | steps + 1, least, s =>
    let s := s.enter
    if g.maxDepth < s.depth then
      match s.peek c with
      | (.error e, s) => some (.error e, s)
      | (.ok t, s) =>
        some (.error (c.errorAt .tooDeep "expression nested too deeply" t.span), s)
    else
      match s.take c with
      | (.error e, s) => some (.error e, s)
      | (.ok t, s) =>
        match (g.nudAction c t).run c (fun least s => expression g c steps least s)
            (fun left least s => resume g c steps left least s) s.countNud with
        | none => none
        | some (.error e, s) => some (.error e, s)
        | some (.ok left, s) =>
          match resume g c steps left least s with
          | none => none
          | some (.error e, s) => some (.error e, s)
          | some (.ok v, s) => some (.ok v, s.leave)

/-- Continues an expression that begins with the operand `left` as long as tokens bind tighter than
`least`. -/
def resume (g : Grammar V) (c : Context) : Nat → V → Nat → Session → Outcome V
  | 0, _, _, _ => none
  | steps + 1, left, least, s =>
    match s.peek c with
    | (.error e, s) => some (.error e, s)
    | (.ok t, s) =>
      if c.power t.symbol ≤ least then some (.ok left, s)
      else
        match s.take c with
        | (.error e, s) => some (.error e, s)
        | (.ok t, s) =>
          match (g.ledAction c t left).run c (fun least s => expression g c steps least s)
              (fun left least s => resume g c steps left least s) s.countLed with
          | none => none
          | some (.error e, s) => some (.error e, s)
          | some (.ok left, s) => resume g c steps left least s

end

/-- Parses a whole text: one expression, with nothing behind it. -/
def parseScan (g : Grammar V) (c : Context) (steps : Nat) (scan : Scan) :
    Option (Except ParseError (V × Stats)) :=
  match g.expression c steps 0 (Session.start scan (byteLength c.input.toList)) with
  | none => none
  | some (.error e, _) => some (.error e)
  | some (.ok v, s) =>
    match s.peek c with
    | (.error e, _) => some (.error e)
    | (.ok t, s) =>
      if t.isEnd then some (.ok (v, s.stats))
      else some (.error (c.errorAt .unexpectedToken "unexpected token" t.span))

/-- Steps beyond those that a parse takes whose end binds no operand. -/
def spareSteps : Nat := 100000

/-- A bound on the nesting of steps: twice the tokens and the limit to the depth, and some to
spare. -/
def stepBound (g : Grammar V) (scan : Scan) : Nat :=
  2 * (scan.tokens.length + g.maxDepth + 2) + spareSteps

/-- Parses a text with a recognizer for the grammar's table. -/
def parseWith (g : Grammar V) (r : Recognizer) (input : String) :
    Option (Except ParseError (V × Stats)) :=
  let scan := r.scan input
  g.parseScan (g.context input) (g.stepBound scan) scan

/-- Parses a text. There is no result if the parse has no end. -/
def parse (g : Grammar V) (input : String) : Option (Except ParseError (V × Stats)) :=
  match g.recognizer with
  | .error e =>
    some (.error ((g.context input).errorAt .grammar e.message ⟨0, byteLength input.toList⟩))
  | .ok r => g.parseWith r input

/-- Parses a text and keeps the recognizer that this took. -/
def parseAndKeep (g : Grammar V) (input : String) :
    Option (Except ParseError (V × Stats)) × Grammar V :=
  (g.parse input, (Build.compile.on g).2)

end Grammar

end Precedence
