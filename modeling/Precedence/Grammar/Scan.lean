import Precedence.Grammar.Recognizer
import Precedence.Text.Blank

/-!
# Scans

What a recognizer finds in a text: the tokens one after the other, with blanks between them, and
what comes at the end of them. That is the token for the end of the text, or a place where no
pattern matches. A pattern that takes nothing ends a scan as well: it is found again and again at
the same place, as the end is.
-/

namespace Precedence

open Precedence.Source Precedence.Text

/-- A place in a text. -/
structure Cursor where
  /-- The character in front of the place. -/
  before : Option Char
  /-- The text behind it. -/
  rest : List Char
  /-- The bytes in front of it. -/
  offset : Nat

namespace Cursor

/-- The place behind the first `n` characters. -/
def advance (c : Cursor) : Nat → Cursor
  | 0 => c
  | n + 1 =>
    match c.rest with
    | [] => c
    | x :: rest => advance ⟨some x, rest, c.offset + x.utf8Size⟩ n

/-- The number of blanks behind the place. -/
def blankCount : List Char → Nat
  | [] => 0
  | x :: rest => if isBlank x then blankCount rest + 1 else 0

/-- The first place from here on that no blank is at. -/
def skipBlanks (c : Cursor) : Cursor :=
  c.advance (blankCount c.rest)

end Cursor

/-- What comes at the end of the tokens of a text. -/
inductive Ending where
  /-- A token that takes nothing and is found any number of times. -/
  | endless (t : Token)
  /-- A text that no pattern matches. -/
  | unrecognized (span : Span)
deriving DecidableEq

/-- The tokens of a text and what comes at the end of them. -/
structure Scan where
  tokens : List Token
  ending : Ending
deriving DecidableEq

namespace Recognizer

/-- The token that begins at a place without blanks and takes `n` characters. -/
def tokenAt (start : Cursor) (symbol n consumedBefore : Nat) : Token where
  symbol := symbol
  text := String.ofList (start.rest.take n)
  span := ⟨start.offset, (start.advance n).offset⟩
  consumed := (start.advance n).offset - consumedBefore

/-- The next token behind a place and the place behind the token. Where nothing but blanks is left
that is the token for the end; where no pattern matches there is none, and the rest of the text is
to blame. -/
def next (r : Recognizer) (c : Cursor) : Except Span (Token × Cursor) :=
  let start := c.skipBlanks
  if start.rest.isEmpty then .ok (tokenAt start 0 0 c.offset, start)
  else
    match r.first? start.before start.rest with
    | none => .error ⟨start.offset, start.offset + byteLength start.rest⟩
    | some (symbol, n) => .ok (tokenAt start symbol n c.offset, start.advance n)

/-- Scans on from a place. Every token but the last takes a character, so as many steps suffice as
there are characters, and one for the end. -/
def scanFrom (r : Recognizer) : Nat → Cursor → Scan
  | 0, c => ⟨[], .unrecognized ⟨c.offset, c.offset + byteLength c.rest⟩⟩
  | steps + 1, c =>
    match r.next c with
    | .error span => ⟨[], .unrecognized span⟩
    | .ok (t, behind) =>
      if t.span.isEmpty then ⟨[], .endless t⟩
      else
        let scan := scanFrom r steps behind
        ⟨t :: scan.tokens, scan.ending⟩

/-- Scans a text. -/
def scan (r : Recognizer) (text : String) : Scan :=
  let chars := text.toList
  r.scanFrom (chars.length + 1) ⟨none, chars, 0⟩

end Recognizer

end Precedence
