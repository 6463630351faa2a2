/-!
# Flags

The flags that are set and cleared within a pattern, each by its letter. They change what the text
behind them means.
-/

namespace Precedence.Pattern

/-- The flags that change what is read. -/
structure Flags where
  /-- Letters match without regard to case. -/
  caseless : Bool
  /-- The signs for beginning and end stand for those of lines. -/
  lines : Bool
  /-- The dot matches newlines, too. -/
  dotAll : Bool
  /-- Repetitions are reluctant unless marked, instead of greedy. -/
  reluctant : Bool
  /-- Sets hold characters of all scripts. -/
  unicode : Bool
  /-- Carriage returns end lines, too. -/
  returns : Bool
  /-- Blanks and comments in the pattern mean nothing. -/
  spaced : Bool
deriving DecidableEq

namespace Flags

/-- The flags at the beginning of a pattern. -/
def initial : Flags where
  caseless := false
  lines := false
  dotAll := false
  reluctant := false
  unicode := true
  returns := false
  spaced := false

/-- The flag of a letter set or cleared. -/
def assign (f : Flags) (letter : Char) (value : Bool) : Option Flags :=
  match letter with
  | 'i' => some { f with caseless := value }
  | 'm' => some { f with lines := value }
  | 's' => some { f with dotAll := value }
  | 'U' => some { f with reluctant := value }
  | 'u' => some { f with unicode := value }
  | 'R' => some { f with returns := value }
  | 'x' => some { f with spaced := value }
  | _ => none

end Flags

end Precedence.Pattern
