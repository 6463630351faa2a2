import Precedence.Number.Real

/-!
# Command line arguments

A command line names a command, which takes at most one expression, a switch, and options with real
values. What begins with a hyphen is the expression, too, as long as none was given and it is not
one of the command's own switches or options. A missing or repeated part, a part that is not known
and a number that cannot be read make a command line that is not understood.
-/

namespace Precedence.Calculator

open Precedence.Number

/-- What a command takes. -/
structure CommandShape where
  /-- Whether it takes an expression. -/
  expression : Bool
  /-- Whether it takes the switch that keeps expressions as they are. -/
  symbolic : Bool
  /-- The options with values, and whether a value may look like a negative number. -/
  options : List (String × Bool)

/-- The arguments read so far. -/
structure Arguments where
  expression? : Option String
  symbolic : Bool
  values : List (String × String)
  /-- An option whose value comes next. -/
  pending? : Option String
  /-- Whether all that follows is no option. -/
  plain : Bool

namespace Arguments

/-- No arguments. -/
def none : Arguments where
  expression? := Option.none
  symbolic := false
  values := []
  pending? := Option.none
  plain := false

/-- The text of an option's value. -/
def value? (a : Arguments) (name : String) : Option String :=
  (a.values.find? (·.1 == name)).map (·.2)

/-- Whether a text looks like a number: digits, a point among or behind them, and an exponent
without sign. -/
def looksNumeric (text : List Char) : Bool :=
  let whole := text.takeWhile (·.isDigit)
  let rest := text.drop whole.length
  let rest := match rest with
    | '.' :: behind => if whole.isEmpty then rest else behind.dropWhile (·.isDigit)
    | rest => rest
  match rest with
  | [] => true
  | 'e' :: digits => text.head? != some 'e' && !digits.isEmpty && digits.all (·.isDigit)
  | _ => false

/-- Takes an argument as the expression. -/
def takeExpression (shape : CommandShape) (a : Arguments) (text : String) : Option Arguments :=
  if shape.expression && a.expression?.isNone && a.pending?.isNone then
    some { a with expression? := some text }
  else Option.none

/-- Takes an argument as the value that an option waits for, or else as the expression. -/
def takeValue (shape : CommandShape) (a : Arguments) (text : String) : Option Arguments :=
  match a.pending? with
  | some name => some { a with pending? := Option.none, values := a.values ++ [(name, text)] }
  | Option.none => a.takeExpression shape text

/-- Takes the switch. -/
def takeSymbolic (shape : CommandShape) (a : Arguments) : Option Arguments :=
  if shape.symbolic && !a.symbolic && a.pending?.isNone then some { a with symbolic := true }
  else Option.none

/-- Whether an argument that begins with a hyphen may still be the expression. -/
def isOpen (shape : CommandShape) (a : Arguments) : Bool :=
  shape.expression && a.expression?.isNone

/-- Takes an argument with two hyphens in front of `text`. -/
def takeLong (shape : CommandShape) (a : Arguments) (text : List Char) : Option Arguments :=
  let name := String.ofList (text.takeWhile (· != '='))
  let attached? := match text.dropWhile (· != '=') with
    | [] => Option.none
    | _ :: value => some (String.ofList value)
  if name = "help" then Option.none
  else if shape.symbolic && name == "symbolic" then
    if attached?.isSome then Option.none else a.takeSymbolic shape
  else if shape.options.any (·.1 == name) then
    if a.pending?.isSome || (a.value? name).isSome then Option.none
    else
      match attached? with
      | some value => some { a with values := a.values ++ [(name, value)] }
      | Option.none => some { a with pending? := some name }
  else if a.isOpen shape then a.takeValue shape (String.ofList ('-' :: '-' :: text))
  else Option.none

/-- Whether a letter is a switch of the command. -/
def isSwitch (shape : CommandShape) (c : Char) : Bool :=
  c == 'h' || (shape.symbolic && c == 's')

/-- Takes an argument with one hyphen in front of `letters`. -/
def takeShort (shape : CommandShape) (a : Arguments) (letters : List Char) : Option Arguments :=
  let text := String.ofList ('-' :: letters)
  let awaited := a.pending?.any fun name => shape.options.any fun o => o.1 == name && o.2
  if awaited && looksNumeric letters then a.takeValue shape text
  else if a.isOpen shape && !letters.all (isSwitch shape) then a.takeValue shape text
  else letters.foldlM (fun a c => if c == 's' then a.takeSymbolic shape else Option.none) a

/-- Takes one more argument. -/
def take (shape : CommandShape) (a : Arguments) (text : String) : Option Arguments :=
  if a.plain then a.takeExpression shape text
  else
    match text.toList with
    | ['-', '-'] => some { a with plain := true }
    | '-' :: '-' :: long => a.takeLong shape long
    | '-' :: c :: letters => a.takeShort shape (c :: letters)
    | _ => a.takeValue shape text

/-- Reads the arguments of a command. An option must have got its value, and the expression must
have been given. -/
def read (shape : CommandShape) (texts : List String) : Option Arguments := do
  let a ← texts.foldlM (take shape) none
  if a.pending?.isSome || (shape.expression && a.expression?.isNone) then Option.none
  else some a

/-- The real value of an option. -/
def real? (a : Arguments) (name : String) (default : Float) : Option Float :=
  match a.value? name with
  | Option.none => some default
  | some text => (readReal text).toOption

end Arguments

/-- A command of the calculator. -/
inductive Command where
  /-- Computes an expression and shows it as text. -/
  | evaluate (expression : String)
  /-- Shows an expression as data. -/
  | data (expression : String) (symbolic : Bool)
  /-- Shows a table of points of a function. -/
  | sample (expression : String) (first last width time : Float)
  /-- Computes the lines of the standard input. -/
  | lines (symbolic : Bool)

namespace Command

/-- The command that the arguments of a program name; nothing if they are not understood. -/
def read : List String → Option Command
  | "eval" :: rest => do
    let a ← Arguments.read ⟨true, false, []⟩ rest
    return evaluate (← a.expression?)
  | "json" :: rest => do
    let a ← Arguments.read ⟨true, true, []⟩ rest
    return data (← a.expression?) a.symbolic
  | "sample" :: rest => do
    let options := [("from", true), ("to", true), ("step", false), ("time", true)]
    let a ← Arguments.read ⟨true, false, options⟩ rest
    return sample (← a.expression?) (← a.real? "from" (-10.0)) (← a.real? "to" 10.0)
      (← a.real? "step" 1.0) (← a.real? "time" 0.0)
  | "repl" :: rest => do
    let a ← Arguments.read ⟨false, true, []⟩ rest
    return lines a.symbolic
  | _ => none

end Command

end Precedence.Calculator
