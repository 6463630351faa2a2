import Precedence.Operator
import Precedence.Source.Report
import Precedence.Text.Quoted

/-!
# Symbols and tokens

A grammar has a table of symbols in the order in which they were registered. An `Entry` is what the
table says of one: its id, its binding power, the pattern by which it is recognized, the operator
that it builds nodes of. A `Token` is a place in the text where a symbol was recognized; it refers
to the symbol by its index.
-/

namespace Precedence

open Precedence.Source Precedence.Text

/-- The id of the symbol that stands for the end of the text. It has index 0 in every table. -/
def endId : String := "(end)"

/-- Whether an id has the form of a token class, which is a name in parentheses. -/
def isClassId (id : String) : Bool :=
  2 < id.utf8ByteSize && id.toList.head? == some '(' && id.toList.getLast? == some ')'

/-- The id of the token class of a name. -/
def classId (name : String) : String :=
  "(" ++ name ++ ")"

/-- How a symbol is recognized. -/
inductive TokenPattern where
  /-- By this very text. -/
  | literal (text : String)
  /-- By a regular expression. -/
  | regex (source : String)
deriving DecidableEq

namespace TokenPattern

/-- The characters that mean something in regular expressions. -/
def special : List Char :=
  ['\\', '.', '+', '*', '?', '(', ')', '|', '[', ']', '\x7b', '\x7d', '^', '$', '#', '&', '-', '~']

/-- A regular expression for a text that is to be taken literally. -/
def escape (text : String) : String :=
  String.ofList (text.toList.flatMap fun c => if special.contains c then ['\\', c] else [c])

/-- The pattern as a regular expression. -/
def source : TokenPattern → String
  | literal text => escape text
  | regex source => source

end TokenPattern

/-- What a table says of a symbol. -/
structure Entry where
  id : String
  power : Nat
  pattern? : Option TokenPattern
  operator? : Option Operator
deriving DecidableEq, Inhabited

/-- A symbol that was recognized in a text. -/
structure Token where
  /-- The index of the symbol. -/
  symbol : Nat
  /-- The text that was recognized, without blanks. -/
  text : String
  span : Span
  /-- The bytes from the end of the token before, blanks included. -/
  consumed : Nat
deriving DecidableEq, Inhabited

namespace Token

/-- Whether the token stands for the end of the text. -/
def isEnd (t : Token) : Bool :=
  t.symbol == 0

end Token

/-- Why a grammar does not take a symbol, or has no recognizer. -/
inductive GrammarError where
  /-- An id is empty. -/
  | emptyId
  /-- An id is that of the end of the text. -/
  | reserved (id : String)
  /-- A pattern is no regular expression. -/
  | invalidPattern (id : String)
  /-- A pattern matches the empty text. -/
  | emptyMatch (id : String)
  /-- A token class has a different pattern already. -/
  | patternConflict (id existing : String)
  /-- The automaton for all patterns is too large. -/
  | tooLarge
deriving DecidableEq

namespace GrammarError

/-- The error in words. -/
def message : GrammarError → String
  | emptyId => "symbol id must not be empty"
  | reserved id => "symbol id " ++ quoted id ++ " is reserved"
  | invalidPattern id => "invalid pattern for " ++ quoted id
  | emptyMatch id => "pattern for " ++ quoted id ++ " matches the empty string"
  | patternConflict id existing =>
    "token " ++ quoted id ++ " is already registered with pattern " ++ quoted existing
  | tooLarge => "can't build recognizer: error building NFA"

end GrammarError

end Precedence
