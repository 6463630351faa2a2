import Precedence.Calculator.Arguments
import Precedence.Calculator.Function
import Precedence.Text.Blank

/-!
# The command line program

What the program prints for its arguments and its standard input. Values and tables go to the
standard output. A failure is reported on the standard error, and ends the program with code 1;
between lines that are computed one by one it does not end it.
-/

namespace Precedence.Calculator

open Precedence.Number Precedence.Source Precedence.Text

/-- What a program leaves behind. -/
structure ProgramResult where
  code : Nat
  stdout : String
  stderr : String
deriving DecidableEq

namespace ProgramResult

/-- Success with an output. -/
def success (stdout : String) : ProgramResult where
  code := 0
  stdout := stdout
  stderr := ""

/-- Failure with a message. -/
def failure (message : String) : ProgramResult where
  code := 1
  stdout := ""
  stderr := "Error: " ++ message ++ "\n"

/-- Arguments that are not understood. -/
def misuse : ProgramResult where
  code := 2
  stdout := ""
  stderr := ""

end ProgramResult

/-- The value of an expression, or the report of its error. -/
def parseReported (symbolic : Bool) (input : String) : Except String Value :=
  match if symbolic then parseSymbolic input else evaluate input with
  | some (.ok (v, _)) => .ok v
  | some (.error e) => .error e.report
  | none => .error "the parse has no end"

/-- The lines of a text without their terminators. The last one needs none, but is there only if it
has a character. -/
def splitLines (line : List Char) : List Char → List (List Char)
  | [] => if line.isEmpty then [] else [line.reverse]
  | '\n' :: rest =>
    let line := match line with
      | '\r' :: line => line
      | line => line
    line.reverse :: splitLines [] rest
  | c :: rest => splitLines (c :: line) rest

/-- Computes one line; a line of blanks gives nothing. -/
def runLine (symbolic : Bool) (sofar : ProgramResult) (line : List Char) : ProgramResult :=
  if line.all isBlank then sofar
  else
    match parseReported symbolic (String.ofList line) with
    | .ok v => { sofar with stdout := sofar.stdout ++ v.text ++ "\n" }
    | .error report => { sofar with stderr := sofar.stderr ++ report ++ "\n" }

/-- The line of a table for one point. -/
def pointLine (p : Float × Float) : String :=
  writeReal .plain p.1 ++ " " ++ writeReal .plain p.2 ++ "\n"

namespace Command

/-- Runs a command on a standard input. -/
def run (stdin : String) : Command → ProgramResult
  | evaluate expression =>
    match parseReported false expression with
    | .ok v => .success (v.text ++ "\n")
    | .error report => .failure report
  | data expression symbolic =>
    match parseReported symbolic expression with
    | .ok v => .success (v.data.text ++ "\n")
    | .error report => .failure report
  | sample expression first last width time =>
    match parseReported true expression with
    | .error report => .failure report
    | .ok v =>
      match (Function.ofBody v).sampleAt first last width time with
      | .ok points => .success (String.join (points.map pointLine))
      | .error e => .failure e.message
  | lines symbolic =>
    (splitLines [] stdin.toList).foldl (runLine symbolic) (.success "")

end Command

/-- Runs the program on its arguments and a standard input. -/
def runProgram (arguments : List String) (stdin : String) : ProgramResult :=
  match Command.read arguments with
  | some command => command.run stdin
  | none => .misuse

end Precedence.Calculator
