/-!
# Positions

A `Position` is a line and a column in a text, both from 0. Columns count characters, offsets count
bytes: `Position.locate` walks the characters that start before the offset.
-/

namespace Precedence.Source

/-- A line and a column, both counted from 0; the column counts characters. -/
structure Position where
  line : Nat
  column : Nat
deriving DecidableEq, Inhabited

namespace Position

/-- The first position of a text. -/
def origin : Position where
  line := 0
  column := 0

/-- The position behind one more character: a newline begins the next line. -/
def advance (p : Position) (c : Char) : Position :=
  if c = '\n' then ⟨p.line + 1, 0⟩ else ⟨p.line, p.column + 1⟩

/-- The position behind every character that starts within the next `bytes` bytes. -/
def walk (p : Position) : List Char → Nat → Position
  | [], _ => p
  | _ :: _, 0 => p
  | c :: rest, bytes + 1 => walk (p.advance c) rest (bytes + 1 - c.utf8Size)

/-- The position of a byte offset in a text. Offsets past the end count as the end. -/
def locate (text : String) (offset : Nat) : Position :=
  origin.walk text.toList offset

@[simp] theorem walk_nil (p : Position) (n : Nat) : p.walk [] n = p := rfl

@[simp] theorem walk_zero (p : Position) (text : List Char) : p.walk text 0 = p := by
  cases text <;> rfl

end Position

end Precedence.Source
