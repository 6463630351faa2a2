import Precedence.Grammar.Basic
import Precedence.Source.Slice
import Precedence.Value.Arithmetic

/-!
# Stock denotations

Denotations that grammars of values are made of: groups, constants, lists, calls, choices of three,
operations, and some that only tell how the parse stands.
-/

namespace Precedence.Stock

open Precedence.Source Precedence.Text

/-! ## Operands -/

/-- An expression up to a closing symbol. -/
def group (least : Nat) (close : String) : Nud Value := fun c _ => do
  let v ← .operand least
  let _ ← .takeExpected c close
  return v

/-- Always the same value. -/
def constant (v : Value) : Nud Value := fun _ _ =>
  return v

/-- Always an error, at the last token taken. -/
def refuse (kind : ErrorKind) (message : String) : Nud Value := fun c _ =>
  .failAtLast c kind message

/-- An expression that begins with a value of which nothing stands in the text. -/
def begun (v : Value) (least : Nat) : Nud Value := fun _ _ =>
  .continued v least

/-- The opposite of an operand. -/
def opposite (least : Nat) : Nud Value := fun c t => do
  let v ← .operand least
  match v.negate with
  | .ok v => return v
  | .error e => .fail (c.errorAt .arithmetic e.message t.span)

/-- The items of a list up to its closing symbol, which stays: expressions with a separator between
them, and possibly one behind the last. An item takes a token, so that a text has no more items
than bytes. -/
def items (c : Context) (separator close : String) : Nat → Action Value (List Value)
  | 0 => return []
  | bound + 1 => do
    let t ← .peekToken
    if c.id t.symbol == close then return []
    let item ← .operand 0
    let t ← .peekToken
    if c.id t.symbol != separator then return [item]
    let _ ← Action.takeToken
    return item :: (← items c separator close bound)

/-- The items of a list and its closing symbol. -/
def itemsUntil (c : Context) (separator close : String) : Action Value (List Value) := do
  let vs ← items c separator close (byteLength c.input.toList + 1)
  let _ ← .takeExpected c close
  return vs

/-- A list, as a node of the symbol that begins it. -/
def list (id separator close : String) : Nud Value := fun c _ => do
  return .node (Operator.before id 0) (← itemsUntil c separator close)

/-! ## Continued operands -/

/-- The result of an operation on an operand and the next one. A failure is blamed on the last token
taken. -/
def evaluated (operation : Operation) (rightPower : Nat) : Led Value := fun c _ left => do
  let right ← .operand rightPower
  match left.apply operation right with
  | .ok v => return v
  | .error e => .failAtLast c .arithmetic e.message

/-- An operator applied to an operand and the next one. -/
def combined (op : Operator) (rightPower : Nat) : Led Value := fun _ _ left => do
  return Term.combine op left (← .operand rightPower)

/-- A choice of three operands, with a symbol between the last two. -/
def ternary (id : String) (power : Nat) (separator : String) (rightPower : Nat) : Led Value :=
  fun c _ left => do
    let middle ← .operand 0
    let _ ← .takeExpected c separator
    let right ← .operand rightPower
    return .node (Operator.between id power .right) [left, middle, right]

/-- An operand applied to a list of arguments, as a node of the symbol that begins the list. -/
def call (id : String) (power : Nat) (separator close : String) : Led Value := fun c _ left => do
  let vs ← itemsUntil c separator close
  return .node (Operator.after id power) (left :: vs)

/-- The operand as it was. -/
def unchanged : Led Value := fun _ _ left =>
  return left

/-- Always an error, at the last token taken. -/
def refuseBehind (kind : ErrorKind) (message : String) : Led Value := fun c _ _ =>
  .failAtLast c kind message

/-! ## Probes -/

/-- The tokens up to the end, each with its symbol, text and place, as names. -/
def collected (c : Context) : Nat → Action Value (List Value)
  | 0 => return []
  | bound + 1 => do
    let t ← .takeToken
    let p ← .getProgress
    let v := Value.var (c.id t.symbol ++ "|" ++ t.text ++ "|" ++ t.span.describe ++ "|" ++
      toString t.consumed ++ "|" ++ toString p.position)
    if t.isEnd then return [v] else return v :: (← collected c bound)

/-- All tokens up to the end, as a node of the symbol before them. -/
def collect (id : String) : Nud Value := fun c _ => do
  return .node (Operator.before id 0) (← collected c (byteLength c.input.toList + 1))

/-- The next token and the positions before and after it is looked at. -/
def glimpse : Nud Value := fun _ _ => do
  let before ← .getProgress
  let a ← .peekToken
  let b ← .peekToken
  let after ← .getProgress
  return .var ("peek " ++ toString a.symbol ++ " " ++ quoted a.text ++ " " ++ a.span.describe ++
    " " ++ toString before.position ++ " " ++ toString after.position ++ " " ++ toString (a == b))

/-- The counts of the parse so far, and its position. -/
def counts : Nud Value := fun _ _ => do
  let p ← .getProgress
  return .var ("stats " ++ toString p.stats.tokens ++ " " ++ toString p.stats.nuds ++ " " ++
    toString p.stats.leds ++ " " ++ toString p.stats.depth ++ " " ++ toString p.position)

/-- An operand, or the error in its place. -/
def tolerant (least : Nat) : Nud Value := fun _ _ => do
  match ← (Action.operand least).attempt with
  | .ok v => return v
  | .error e => return .var ("caught " ++ e.kind.describe ++ " " ++ e.span.describe)

end Precedence.Stock
