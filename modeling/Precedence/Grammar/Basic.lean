import Precedence.Grammar.Action
import Precedence.Grammar.Recognizer
import Precedence.Term

/-!
# Grammars

A grammar is a table of symbols with what each one does in a parse, and the recognizer for the table
if it has been made. Grammars are built by registrations. To register an id once more adds to what
is known of it: its binding power is raised and never lowered, and it does something else only if
the registration says what. Whatever may change what is recognized drops the recognizer.

Registrations are programs that change a grammar. One that fails keeps the changes it made before,
as a program does.
-/

namespace Precedence

open Precedence.Source

/-- A symbol: what the table says of it and what it does. -/
structure Symbol (V : Type) extends Entry where
  /-- What it does where an operand begins. -/
  nud? : Option (Nud V)
  /-- What it does behind an operand. -/
  led? : Option (Led V)

namespace Symbol

/-- A symbol of which only the id and the pattern are known. -/
def fresh {V : Type} (id : String) (pattern? : Option TokenPattern) : Symbol V where
  id := id
  power := 0
  pattern? := pattern?
  operator? := none
  nud? := none
  led? := none

end Symbol

/-- A table of symbols with a recognizer for it, if one has been made. -/
structure Grammar (V : Type) where
  symbols : List (Symbol V)
  recognizer? : Option Recognizer
  /-- How deeply expressions may be nested. -/
  maxDepth : Nat

namespace Grammar

variable {V : Type}

/-- The nesting that is allowed unless another limit is set. -/
def defaultMaxDepth : Nat := 256

/-- The grammar that has only the symbol for the end of the text. -/
def initial : Grammar V where
  symbols := [Symbol.fresh endId none]
  recognizer? := none
  maxDepth := defaultMaxDepth

/-- What the table says of the symbols. -/
def entries (g : Grammar V) : List Entry :=
  g.symbols.map (·.toEntry)

/-- The index of the symbol with an id. -/
def index? (g : Grammar V) (id : String) : Option Nat :=
  g.symbols.findIdx? (·.id == id)

/-- The symbol with an id. -/
def find? (g : Grammar V) (id : String) : Option (Symbol V) :=
  g.symbols.find? (·.id == id)

/-- The number of symbols, that for the end included. -/
def size (g : Grammar V) : Nat :=
  g.symbols.length

/-- Whether the grammar has a recognizer for its table. -/
def isCompiled (g : Grammar V) : Bool :=
  g.recognizer?.isSome

/-- The recognizer for the table: the one at hand, or a new one. -/
def recognizer (g : Grammar V) : Except GrammarError Recognizer :=
  match g.recognizer? with
  | some r => .ok r
  | none => Recognizer.ofEntries g.entries

/-- The grammar without its recognizer. -/
def invalidate (g : Grammar V) : Grammar V :=
  { g with recognizer? := none }

/-- The grammar with another limit to the nesting. -/
def setMaxDepth (g : Grammar V) (depth : Nat) : Grammar V :=
  { g with maxDepth := depth }

/-- The grammar with one symbol changed. -/
def change (g : Grammar V) (index : Nat) (f : Symbol V → Symbol V) : Grammar V :=
  { g with symbols := g.symbols.modify index f }

/-- The grammar with one more symbol, and without a recognizer. -/
def append (g : Grammar V) (s : Symbol V) : Grammar V :=
  { g with symbols := g.symbols ++ [s], recognizer? := none }

/-- The grammar in which a symbol has at least the binding power `power`. A recognizer is kept if
the symbol had it already. -/
def raise (g : Grammar V) (index power : Nat) : Grammar V :=
  if (g.symbols[index]?.any (·.power < power)) then
    (g.change index fun s => { s with power := power }).invalidate
  else g

end Grammar

/-- A program that changes a grammar and may fail. -/
abbrev Build (V α : Type) : Type :=
  ExceptT GrammarError (StateM (Grammar V)) α

namespace Build

variable {V : Type}

/-- The result of a program and the grammar that it leaves behind. -/
def on {α : Type} (b : Build V α) (g : Grammar V) : Except GrammarError α × Grammar V :=
  StateT.run (ExceptT.run b) g

/-- Changes the symbol with an index. -/
def change (index : Nat) (f : Symbol V → Symbol V) : Build V Unit :=
  modify (·.change index f)

/-- Makes the recognizer, if there is none. -/
def compile : Build V Recognizer := do
  let r ← (← get).recognizer
  modify fun g => { g with recognizer? := some r }
  return r

/-- Registers an id with a binding power. A new id is recognized by its own text unless it is that
of a token class. -/
def symbol (id : String) (power : Nat) : Build V Nat := do
  if id.isEmpty then throw .emptyId
  let index ← (do
    match (← get).index? id with
    | some index => return index
    | none =>
      let index := (← get).size
      let pattern? := if isClassId id then none else some (.literal id)
      modify (·.append (Symbol.fresh id pattern?))
      return index)
  modify (·.raise index power)
  return index

/-- Registers the token class of a name with a regular expression. A class keeps its first one. -/
def token (name source : String) : Build V Nat := do
  if name.isEmpty then throw .emptyId
  let id := classId name
  if id = endId then throw (.reserved id)
  let _ ← Recognizer.checkRegex id source
  let g ← get
  match g.index? id, g.find? id with
  | some index, some s =>
    match s.pattern? with
    | some existing =>
      if existing ≠ .regex source then throw (.patternConflict id existing.source)
    | none =>
      change index fun s => { s with pattern? := some (.regex source) }
      modify (·.invalidate)
    return index
  | _, _ =>
    modify (·.append (Symbol.fresh id (some (.regex source))))
    return g.size

/-- Installs what a symbol does where an operand begins. -/
def nud (id : String) (nud : Nud V) : Build V Nat := do
  let index ← symbol id 0
  change index fun s => { s with nud? := some nud }
  return index

/-- Installs what a symbol does behind an operand, and raises its binding power. -/
def led (id : String) (power : Nat) (led : Led V) : Build V Nat := do
  let index ← symbol id power
  change index fun s => { s with led? := some led }
  return index

/-- What a literal does: its text is converted to a value. -/
def literalNud (convert : String → Except String V) : Nud V := fun c t =>
  match convert t.text with
  | .ok v => return v
  | .error message => .fail (c.errorAt .literal message t.span)

/-- Registers the token class of a name, the texts of which are converted to values. -/
def literal (name source : String) (convert : String → Except String V) : Build V Nat := do
  let _ ← token name source
  nud (classId name) (literalNud convert)

/-- Registers an operator's symbol, with the operator that it builds nodes of. -/
def attach (op : Operator) (power : Nat) : Build V Unit := do
  let index ← symbol op.symbol power
  change index fun s => { s with operator? := some op }

variable [Term V]

/-- What an operator before its operand does: it takes one and applies itself. -/
def beforeNud (op : Operator) : Nud V := fun _ _ => do
  return Term.unary op (← .operand op.power)

/-- What an operator behind its operand does: it applies itself. -/
def afterLed (op : Operator) : Led V := fun _ _ left =>
  return Term.unary op left

/-- What an operator between operands does: it takes the second one and applies itself. -/
def betweenLed (op : Operator) : Led V := fun _ _ left => do
  return Term.combine op left (← .operand op.rightPower)

/-- Registers an operator before its operand. The power is that of the operand; the symbol's own
is left as it is. -/
def before (id : String) (power : Nat) : Build V Nat := do
  let op := Operator.before id power
  attach op 0
  nud id (beforeNud op)

/-- Registers an operator behind its operand. -/
def after (id : String) (power : Nat) : Build V Nat := do
  let op := Operator.after id power
  attach op power
  led id power (afterLed op)

/-- Registers an operator between operands. -/
def between (op : Operator) : Build V Nat := do
  attach op op.power
  led op.symbol op.power (betweenLed op)

/-- Registers an operator between operands that groups from the left. -/
def leftward (id : String) (power : Nat) : Build V Nat :=
  between (Operator.between id power .left)

/-- Registers an operator between operands that groups from the right. -/
def rightward (id : String) (power : Nat) : Build V Nat :=
  between (Operator.between id power .right)

/-- Registers an operator between operands that groups from the left, with algebraic flags. -/
def algebraic (id : String) (power : Nat) (associative commutative : Bool) : Build V Nat :=
  between ((Operator.between id power .left).withFlags associative commutative)

end Build

/-- A registration, as data. -/
inductive Registration (V : Type) where
  | symbol (id : String) (power : Nat)
  | token (name source : String)
  | literal (name source : String) (convert : String → Except String V)
  | nud (id : String) (nud : Nud V)
  | led (id : String) (power : Nat) (led : Led V)
  | before (id : String) (power : Nat)
  | after (id : String) (power : Nat)
  | leftward (id : String) (power : Nat)
  | rightward (id : String) (power : Nat)
  | algebraic (id : String) (power : Nat) (associative commutative : Bool)

namespace Registration

/-- The program of a registration. It gives the index of the symbol. -/
def build {V : Type} [Term V] : Registration V → Build V Nat
  | symbol id power => Build.symbol id power
  | token name source => Build.token name source
  | literal name source convert => Build.literal name source convert
  | nud id f => Build.nud id f
  | led id power f => Build.led id power f
  | before id power => Build.before id power
  | after id power => Build.after id power
  | leftward id power => Build.leftward id power
  | rightward id power => Build.rightward id power
  | algebraic id power associative commutative =>
    Build.algebraic id power associative commutative

end Registration

end Precedence
