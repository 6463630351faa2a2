import Precedence.Source.Position
import Precedence.Source.Slice
import Precedence.Source.Span

/-!
# Parse errors and their reports

A `ParseError` is a cause, a message, the whole text and the span of it that is to blame. Its
`report` shows the line on which the span starts, with carets under the part that the span covers.
-/

namespace Precedence.Source

/-- What went wrong in a parse. -/
inductive ErrorKind where
  /-- No pattern matches the text. -/
  | unrecognizedInput
  /-- The text ended where an operand or a certain token was required. -/
  | unexpectedEnd
  /-- A token that starts no operand stands where an operand was required. -/
  | syntaxError
  /-- A token that continues no operand follows one, or follows the whole expression. -/
  | unexpectedToken
  /-- A certain token was required and another one found. -/
  | expectedToken
  /-- The text of a literal has no value. -/
  | literal
  /-- An arithmetic operation has no result. -/
  | arithmetic
  /-- The grammar has no recognizer. -/
  | grammar
  /-- Expressions are nested deeper than the grammar allows. -/
  | tooDeep
deriving DecidableEq, Inhabited

namespace ErrorKind

/-- The kind in words. -/
def describe : ErrorKind → String
  | unrecognizedInput => "unrecognized input"
  | unexpectedEnd => "unexpected end"
  | syntaxError => "syntax error"
  | unexpectedToken => "unexpected token"
  | expectedToken => "expected token"
  | literal => "literal"
  | arithmetic => "arithmetic"
  | grammar => "grammar"
  | tooDeep => "too deep"

end ErrorKind

/-- A failed parse: its cause, a message, the whole text and the span that is to blame. -/
structure ParseError where
  kind : ErrorKind
  message : String
  input : String
  span : Span
deriving DecidableEq, Inhabited

/-- The characters up to the first newline, without a carriage return directly before it. -/
def firstLine : List Char → List Char
  | [] => []
  | '\n' :: _ => []
  | '\r' :: '\n' :: _ => []
  | c :: rest => c :: firstLine rest

/-- The text of line `n`, without its terminator; empty if there is no such line. -/
def lineText : List Char → Nat → List Char
  | text, 0 => firstLine text
  | [], _ + 1 => []
  | c :: rest, n + 1 => if c = '\n' then lineText rest n else lineText rest (n + 1)

namespace ParseError

/-- The characters that the span covers; none if it does not lie on character boundaries. -/
def fragmentChars (e : ParseError) : List Char :=
  (slice? e.input.toList e.span.start e.span.stop).getD []

/-- The text that the span covers. -/
def fragment (e : ParseError) : String :=
  String.ofList e.fragmentChars

/-- Where the span starts. -/
def start (e : ParseError) : Position :=
  Position.locate e.input e.span.start

/-- Where the span stops. -/
def stop (e : ParseError) : Position :=
  Position.locate e.input e.span.stop

/-- The message and the span in words. -/
def describe (e : ParseError) : String :=
  e.message ++ " at " ++ e.span.describe

/-- The number of carets: as many as the fragment has characters before its first newline, and
at least one. -/
def underline (e : ParseError) : Nat :=
  max 1 (e.fragmentChars.takeWhile (· ≠ '\n')).length

/-- The position, counted from 1, and the message; then the line on which the span starts; then
carets under the span. -/
def report (e : ParseError) : String :=
  let p := e.start
  toString (p.line + 1) ++ ":" ++ toString (p.column + 1) ++ ": " ++ e.message ++ "\n" ++
    String.ofList (lineText e.input.toList p.line) ++ "\n" ++
    String.ofList (List.replicate p.column ' ' ++ List.replicate e.underline '^')

end ParseError

end Precedence.Source
