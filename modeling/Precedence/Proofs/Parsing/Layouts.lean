import Precedence.Proofs.Parsing.Partitions

/-!
# Texts that are laid out

A text can be laid out in pieces: tokens of certain symbols, with blanks of any kind in front of
each of them. `Recognizer.Cuts` says that a recognizer finds every piece where it stands, whatever
character stands before it. Then a scan finds all of them, at the offsets at which they are.

* `Cuts.leads`: a scan is led from the front of a layout to the text behind it.
* `Cuts.scan_eq`: with nothing but blanks behind it, the scan of the layout is its tokens.
-/

namespace Precedence

open Precedence.Source Precedence.Text

/-- The characters of a token of a symbol, and the blanks in front of it. -/
structure Piece where
  symbol : Nat
  blanks : List Char
  part : List Char

namespace Piece

/-- All of the characters of a piece. -/
def chars (p : Piece) : List Char :=
  p.blanks ++ p.part

/-- The text of pieces one behind the other. -/
def layout (ps : List Piece) : List Char :=
  ps.flatMap chars

/-- The tokens of pieces one behind the other, from an offset on. -/
def tokens : Nat → List Piece → List Token
  | _, [] => []
  | offset, p :: ps =>
    .taking p.symbol offset p.blanks p.part :: tokens (offset + byteLength p.chars) ps

theorem layout_cons (p : Piece) (ps : List Piece) :
    layout (p :: ps) = p.blanks ++ (p.part ++ layout ps) := by
  rw [layout, List.flatMap_cons, chars, List.append_assoc]
  rfl

theorem layout_append (ps qs : List Piece) : layout (ps ++ qs) = layout ps ++ layout qs :=
  List.flatMap_append

theorem tokens_append (offset : Nat) (ps qs : List Piece) :
    tokens offset (ps ++ qs) = tokens offset ps ++ tokens (offset + byteLength (layout ps)) qs := by
  induction ps generalizing offset with
  | nil => rfl
  | cons p ps ih =>
    rw [List.cons_append, tokens, tokens, ih, layout_cons, ← List.append_assoc, byteLength_append,
      Nat.add_assoc]
    rfl

theorem length_tokens (offset : Nat) (ps : List Piece) : (tokens offset ps).length = ps.length := by
  induction ps generalizing offset with
  | nil => rfl
  | cons p ps ih => rw [tokens, List.length_cons, ih, List.length_cons]

/-- A piece has its token behind the pieces in front of it. -/
theorem tokens_middle (offset : Nat) (ps qs : List Piece) (p : Piece) :
    tokens offset (ps ++ p :: qs) = tokens offset ps ++
      .taking p.symbol (offset + byteLength (layout ps)) p.blanks p.part ::
        tokens (offset + byteLength (layout (ps ++ [p]))) qs := by
  rw [tokens_append, tokens, layout_append, byteLength_append, layout, layout, List.flatMap_cons,
    List.flatMap_nil, List.append_nil, Nat.add_assoc]

end Piece

namespace Recognizer

open Piece (layout)

variable {r : Recognizer} {p : Piece} {ps : List Piece} {front rest : List Char}

/-- The recognizer finds each of the pieces in front of the others and the text behind them. -/
inductive Cuts (r : Recognizer) : List Piece → List Char → Prop
  | nil (rest : List Char) : Cuts r [] rest
  | cons {p : Piece} {ps : List Piece} {rest : List Char}
    (hblanks : ∀ x ∈ p.blanks, isBlank x = true)
    (hpart : ∃ d ds, p.part = d :: ds ∧ isBlank d = false)
    (hf : ∀ before, r.first? before (p.part ++ (layout ps ++ rest)) =
      some (p.symbol, p.part.length))
    (h : Cuts r ps rest) : Cuts r (p :: ps) rest

/-- **A scan is led along the tokens of a layout** to the text behind it. -/
theorem Cuts.leads (h : r.Cuts ps rest) (front : List Char) :
    r.Leads (.between front (layout ps ++ rest)) (Piece.tokens (byteLength front) ps)
      (.between (front ++ layout ps) rest) := by
  induction h generalizing front with
  | nil rest =>
    rw [Piece.layout, List.flatMap_nil, List.append_nil]
    exact .refl _
  | @cons p ps rest hblanks hpart hf _ ih =>
    obtain ⟨d, ds, hd, hblank⟩ := hpart
    have htext : layout (p :: ps) ++ rest = p.blanks ++ (p.part ++ (layout ps ++ rest)) := by
      rw [Piece.layout_cons, List.append_assoc, List.append_assoc]
    have hskip : (Cursor.between front (layout (p :: ps) ++ rest)).skipBlanks =
        .between (front ++ p.blanks) (p.part ++ (layout ps ++ rest)) := by
      rw [htext, hd]
      exact Cursor.skipBlanks_between_append front hblanks hblank
    have hbehind : (Cursor.between (front ++ p.blanks) (p.part ++ (layout ps ++ rest))).advance
        p.part.length = .between (front ++ p.chars) (layout ps ++ rest) := by
      rw [Cursor.advance_between, List.take_left, List.drop_left, Piece.chars, List.append_assoc]
    have htoken : tokenAt (Cursor.between front (layout (p :: ps) ++ rest)).skipBlanks p.symbol
        p.part.length (Cursor.between front (layout (p :: ps) ++ rest)).offset =
          .taking p.symbol (byteLength front) p.blanks p.part := by
      rw [tokenAt_between, htext, hd, List.takeWhile_append_of_pos hblanks,
        List.dropWhile_append_of_pos hblanks]
      simp [hblank]
    rw [Piece.tokens, ← htoken]
    refine .step ?_ ?_ ?_
    · rw [hskip, hd]
      exact List.cons_ne_nil _ _
    · rw [hskip]
      exact hf _
    · have hih := ih (front ++ p.chars)
      rw [byteLength_append, List.append_assoc] at hih
      rw [hskip, hbehind]
      exact hih

/-- **The scan of a layout** with blanks behind it. -/
theorem Cuts.scan_eq (hr : r.IsProgressive) (h : r.Cuts ps rest)
    (hrest : ∀ x ∈ rest, isBlank x = true) {input : String}
    (hinput : input.toList = layout ps ++ rest) :
    r.scan input = ⟨Piece.tokens 0 ps,
      .endless ⟨0, "", .point (byteLength input.toList), byteLength rest⟩⟩ := by
  have hleads := h.leads []
  rw [← hinput, List.nil_append] at hleads
  have hblank : (Cursor.between (layout ps) rest).skipBlanks.rest = [] := by
    rw [Cursor.rest_skipBlanks]
    show rest.dropWhile isBlank = []
    rw [← List.append_nil rest, List.dropWhile_append_of_pos hrest]
    rfl
  have hall : rest.takeWhile isBlank = rest := Cursor.takeWhile_eq_of_skipBlanks hblank
  rw [Leads.scan_eq hr hleads (.endless hblank), tokenAt_between, hall, List.take_zero,
    Token.taking_nil, ← hinput]
  rfl

end Recognizer

end Precedence
