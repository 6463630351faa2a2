import Precedence.Number.Real
import Precedence.Value.Basic

/-!
# Number literals

A number literal with a point or an exponent is a real number, any other one an integer.
-/

namespace Precedence

open Precedence.Number

/-- Why a text is no number. -/
inductive NumberError where
  | integer (cause : IntegerError)
  | real (cause : RealError)
deriving DecidableEq

namespace NumberError

/-- The error in words. -/
def message : NumberError → String
  | integer cause => "invalid number: " ++ cause.message
  | real cause => "invalid number: " ++ cause.message

end NumberError

namespace Value

/-- Whether a literal is that of a real number. -/
def isRealLiteral (text : List Char) : Bool :=
  text.any fun c => c == '.' || c == 'e' || c == 'E'

/-- The value of a number literal. -/
def readNumber (text : String) : Except NumberError Value :=
  if isRealLiteral text.toList then
    match readReal text with
    | .ok x => .ok (real x)
    | .error e => .error (.real e)
  else
    match readInteger text with
    | .ok n => .ok (integer n)
    | .error e => .error (.integer e)

end Value

end Precedence
