import Precedence.Proofs.Source.Positions
import Precedence.Source.Report
import Mathlib.Data.Prod.Lex
import Mathlib.Order.Monotone.Defs

/-!
# The order of positions

Positions come one after another by their lines, and on one line by their columns. To pass a
character is to go on in this order: a newline restarts the columns, but on a later line. So the
positions of the boundaries of a text come in the order of their offsets, however many bytes the
characters between them take, and each belongs to one boundary only.

* `lt_foldl_advance`: some characters further on, the position is a later one.
* `strictMonoOn_locate`: later boundaries have later positions.
* `boundaries_in_order`: hence a position determines its boundary, and an error does not stop
  before it starts.
-/

namespace Precedence.Source

variable {text front part back : List Char} {m n : Nat}

/-- Two boundaries of a text have the characters between them. -/
theorem IsBoundary.exists_between (hm : IsBoundary text m) (hn : IsBoundary text n) (h : m < n) :
    ∃ front part back, text = front ++ part ++ back ∧ part ≠ [] ∧ m = byteLength front ∧
      n = byteLength (front ++ part) := by
  obtain ⟨front, back, rfl, rfl⟩ := hm
  obtain ⟨front', back', htext, rfl⟩ := hn
  rcases List.append_eq_append_iff.mp htext with ⟨part, rfl, rfl⟩ | ⟨part, rfl, rfl⟩
  · refine ⟨front, part, back', (List.append_assoc ..).symm, ?_, rfl, rfl⟩
    rintro rfl
    rw [List.append_nil] at h
    exact h.false
  · rw [byteLength_append] at h
    omega

namespace Position

/-! ## Later positions -/

/-- Line and column, where the lines are compared first. -/
def lineColumn (p : Position) : Nat ×ₗ Nat :=
  toLex (p.line, p.column)

theorem lineColumn_injective : Function.Injective lineColumn := by
  rintro ⟨line, column⟩ ⟨line', column'⟩ h
  obtain ⟨rfl, rfl⟩ := Prod.mk.inj (toLex.injective h)
  rfl

instance : PartialOrder Position :=
  PartialOrder.lift lineColumn lineColumn_injective

/-- A position is earlier than another if its line is, or on one line its column. -/
theorem lt_iff {p q : Position} :
    p < q ↔ p.line < q.line ∨ p.line = q.line ∧ p.column < q.column :=
  Prod.Lex.toLex_lt_toLex

/-- The position behind a character is later than the one in front of it. -/
theorem lt_advance (p : Position) (c : Char) : p < p.advance c := by
  rw [lt_iff, advance]
  split
  · exact .inl (Nat.lt_succ_self _)
  · exact .inr ⟨rfl, Nat.lt_succ_self _⟩

theorem le_foldl_advance (p : Position) (part : List Char) : p ≤ part.foldl advance p := by
  induction part generalizing p with
  | nil => exact le_rfl
  | cons c part ih => exact (lt_advance p c).le.trans (ih _)

/-- Some characters further on, the position is a later one. -/
theorem lt_foldl_advance (p : Position) (h : part ≠ []) : p < part.foldl advance p := by
  cases part with
  | nil => exact absurd rfl h
  | cons c part => exact (lt_advance p c).trans_le (le_foldl_advance _ part)

theorem behind_lt_behind (front : List Char) (h : part ≠ []) :
    behind front < behind (front ++ part) := by
  rw [← foldl_advance, ← foldl_advance, List.foldl_append]
  exact lt_foldl_advance _ h

/-! ## Positions of boundaries -/

/-- Later boundaries of a text have later positions. -/
theorem strictMonoOn_locate (input : String) :
    StrictMonoOn (locate input) {n | IsBoundary input.toList n} := by
  intro m hm n hn hlt
  obtain ⟨front, part, back, htext, hpart, rfl, rfl⟩ := hm.exists_between hn hlt
  rw [locate_append htext, locate_append (htext.trans (List.append_assoc ..))]
  exact behind_lt_behind front hpart

/-- **Positions come in the order of their boundaries.** Of two boundaries of a text, the later one
has the later position. So no two boundaries have the same position, and an error whose span starts
and stops at boundaries, in this order, does not stop at an earlier position than it starts. -/
theorem boundaries_in_order (input : String) :
    (∀ m n, IsBoundary input.toList m → IsBoundary input.toList n → m < n →
      locate input m < locate input n) ∧
    (∀ m n, IsBoundary input.toList m → IsBoundary input.toList n →
      locate input m = locate input n → m = n) ∧
    (∀ e : ParseError, e.input = input → IsBoundary input.toList e.span.start →
      IsBoundary input.toList e.span.stop → e.span.start ≤ e.span.stop → e.start ≤ e.stop) := by
  have hmono := strictMonoOn_locate input
  refine ⟨fun m n hm hn => hmono hm hn, fun m n hm hn => hmono.injOn hm hn, ?_⟩
  rintro e rfl hstart hstop hle
  exact hmono.monotoneOn hstart hstop hle

/-- Behind a newline the column is smaller, and the position later. -/
theorem boundaries_in_order_lines :
    IsBoundary "ab\né".toList 2 ∧ IsBoundary "ab\né".toList 5 ∧
      locate "ab\né" 2 = ⟨0, 2⟩ ∧ locate "ab\né" 5 = ⟨1, 1⟩ ∧
      locate "ab\né" 2 < locate "ab\né" 5 ∧
      (⟨.syntaxError, "", "ab\né", ⟨2, 5⟩⟩ : ParseError).start ≤
        (⟨.syntaxError, "", "ab\né", ⟨2, 5⟩⟩ : ParseError).stop := by
  have h2 : IsBoundary "ab\né".toList 2 := ⟨['a', 'b'], ['\n', 'é'], by decide +kernel, rfl⟩
  have h5 : IsBoundary "ab\né".toList 5 := ⟨['a', 'b', '\n', 'é'], [], by decide +kernel, rfl⟩
  obtain ⟨hlt, -, hle⟩ := boundaries_in_order "ab\né"
  exact ⟨h2, h5, by decide +kernel, by decide +kernel, hlt 2 5 h2 h5 (by decide),
    hle _ rfl h2 h5 (by decide)⟩

end Position

end Precedence.Source
