/-!
# Spans

A `Span` is a half-open range of byte offsets into the text being parsed. Tokens and errors carry
one. Spans are ordered by where they start, then by where they stop.
-/

namespace Precedence.Source

/-- The byte offsets from `start` up to, but not including, `stop`. A span whose stop lies before
its start covers nothing. -/
structure Span where
  start : Nat
  stop : Nat
deriving DecidableEq, Inhabited

namespace Span

/-- The empty span at an offset. -/
def point (offset : Nat) : Span where
  start := offset
  stop := offset

/-- The span that covers both. -/
def merge (a b : Span) : Span where
  start := min a.start b.start
  stop := max a.stop b.stop

/-- Whether the span covers no byte. -/
def isEmpty (s : Span) : Bool :=
  s.stop ≤ s.start

/-- The number of bytes covered. -/
def length (s : Span) : Nat :=
  s.stop - s.start

/-- Whether a span comes before another: it starts earlier, or there and stops earlier. -/
def before (a b : Span) : Bool :=
  a.start < b.start || (a.start == b.start && a.stop < b.stop)

/-- The span in words. -/
def describe (s : Span) : String :=
  "offset " ++ toString s.start ++ " to " ++ toString s.stop

theorem merge_comm (a b : Span) : a.merge b = b.merge a := by
  simp [merge, Nat.min_comm, Nat.max_comm]

@[simp] theorem merge_self (a : Span) : a.merge a = a := by
  simp [merge]

end Span

end Precedence.Source
