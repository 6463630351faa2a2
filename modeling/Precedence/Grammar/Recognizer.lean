import Precedence.Grammar.Token
import Precedence.Pattern.Matching
import Precedence.Pattern.Notation
import Precedence.Source.Slice

/-!
# Recognizers

A recognizer holds the patterns of a table in the order in which they are tried: first the literal
texts, the longest first and those of equal length in the order of their symbols, then the token
classes in the order of theirs. The first pattern that matches decides, however much it takes. So a
literal text hides a token class that matches there, too, and `**` is found before `*`.
-/

namespace Precedence

open Precedence.Source Precedence.Pattern

/-- A pattern as it is tried. -/
inductive Rule where
  /-- This very text. -/
  | text (chars : List Char)
  /-- A regular expression. -/
  | regex (r : Regex)
deriving DecidableEq

namespace Rule

/-- The number of characters that the pattern takes from the beginning of a text; `before` is the
character in front of it. -/
def matchLength? (before : Option Char) (text : List Char) : Rule → Option Nat
  | .text chars => if chars.isPrefixOf text then some chars.length else none
  | .regex r => r.matchLength? before text

end Rule

/-- The patterns of a table in the order in which they are tried, with their symbols. -/
structure Recognizer where
  rules : List (Nat × Rule)
deriving DecidableEq

namespace Recognizer

/-- The regular expression of a token class. One that can match the empty text would not get
anywhere. -/
def checkRegex (id source : String) : Except GrammarError Regex :=
  match Regex.ofText? source with
  | none => .error (.invalidPattern id)
  | some r => if r.minLength = some 0 then .error (.emptyMatch id) else .ok r

/-- Puts a literal text behind those that are longer or as long. -/
def insertLiteral (symbol : Nat) (chars : List Char) :
    List (Nat × List Char) → List (Nat × List Char)
  | [] => [(symbol, chars)]
  | (other, text) :: rest =>
    if byteLength chars ≤ byteLength text then (other, text) :: insertLiteral symbol chars rest
    else (symbol, chars) :: (other, text) :: rest

/-- The literal texts of a table from the symbol `index` on, added to those before it. -/
def literals (index : Nat) (sofar : List (Nat × List Char)) :
    List Entry → List (Nat × List Char)
  | [] => sofar
  | e :: rest =>
    match e.pattern? with
    | some (.literal text) => literals (index + 1) (insertLiteral index text.toList sofar) rest
    | _ => literals (index + 1) sofar rest

/-- The token classes of a table from the symbol `index` on. -/
def classes (index : Nat) : List Entry → Except GrammarError (List (Nat × Regex))
  | [] => .ok []
  | e :: rest =>
    match e.pattern? with
    | some (.regex source) => do
      let r ← checkRegex e.id source
      let others ← classes (index + 1) rest
      return (index, r) :: others
    | _ => classes (index + 1) rest

/-- An estimate of the memory of an automaton for all patterns. -/
def weight (texts : List (Nat × List Char)) (regexes : List (Nat × Regex)) : Nat :=
  (texts.map fun t => Regex.stateWeight * byteLength t.2).foldl (· + ·) 0 +
    (regexes.map (·.2.weight)).foldl (· + ·) 0

/-- The recognizer for a table. It depends on the patterns and their order only. -/
def ofEntries (entries : List Entry) : Except GrammarError Recognizer := do
  let texts := literals 0 [] entries
  let regexes ← classes 0 entries
  if Regex.greatestWeight < weight texts regexes then throw .tooLarge
  return ⟨texts.map (fun t => (t.1, .text t.2)) ++ regexes.map (fun t => (t.1, .regex t.2))⟩

/-- The number of patterns. -/
def size (r : Recognizer) : Nat :=
  r.rules.length

/-- The symbol of the first pattern that matches, and the number of characters that it takes. -/
def first? (r : Recognizer) (before : Option Char) (text : List Char) : Option (Nat × Nat) :=
  r.rules.findSome? fun rule => (rule.2.matchLength? before text).map fun n => (rule.1, n)

end Recognizer

end Precedence
