import Precedence.Calculator.CommandLine

/-!
# The calculator

The command line program: it hands its arguments and, for the command that reads lines, its
standard input to `runProgram` and prints what comes of it.
-/

open Precedence.Calculator

/-- How the program is called. -/
def usage : String :=
  "usage: eval EXPR | json EXPR [-s] | sample EXPR [--from F] [--to F] [--step F] [--time F] | " ++
    "repl [-s]\n"

/-- All of a stream, line by line. -/
partial def readAll (h : IO.FS.Stream) (sofar : String) : IO String := do
  let line ← h.getLine
  if line.isEmpty then return sofar else readAll h (sofar ++ line)

/-- Runs the program. -/
def main (arguments : List String) : IO UInt32 := do
  let stdin ←
    match Command.read arguments with
    | some (.lines _) => readAll (← IO.getStdin) ""
    | _ => pure ""
  let result := runProgram arguments stdin
  let out ← IO.getStdout
  let err ← IO.getStderr
  out.putStr result.stdout
  out.flush
  err.putStr (if result.code = 2 then usage else result.stderr)
  return UInt32.ofNat result.code
