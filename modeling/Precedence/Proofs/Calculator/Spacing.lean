import Precedence.Proofs.Calculator.Surroundings
import Precedence.Proofs.Parsing.Layouts

/-!
# Terminals with blanks between them

Terminals are found wherever they stand, with blanks of any kind between them or with none, as long
as no number and no name runs into what is behind it.

* `first?_of_standsBefore`: what is found where a terminal stands.
* `terminals_of_cuts`: a text that is laid out as terminals has these terminals.
-/

namespace Precedence

open Precedence.Source Precedence.Text Precedence.Number

namespace Calculator

open Piece (layout)

variable {x : Terminal} {blanks rest : List Char} {ps : List Piece}

namespace Terminal

/-- The terminal is well spelled, and no number and no name goes on with the text. -/
def StandsBefore (text : List Char) : Terminal → Prop
  | number word => IsNumeral word ∧ BeginsApart text
  | name word => IsName word ∧ BeginsApart text
  | _ => True

/-- The terminal in a layout, with blanks in front of it. -/
def piece (blanks : List Char) (x : Terminal) : Piece :=
  ⟨x.symbol, blanks, x.chars⟩

theorem StandsBefore.endsAt_nil (h : x.StandsBefore rest) : x.EndsAt [] := by
  cases x with
  | number word => exact ⟨h.1, stops_nil⟩
  | name word => exact ⟨h.1, stops_nil⟩
  | opening | closing | sign _ => trivial

end Terminal

theorem beginsApart_nil : BeginsApart [] := by
  simp [BeginsApart]

theorem beginsApart_cons {w : Char} (h : SetsApart w) (text : List Char) :
    BeginsApart (w :: text) := by
  intro w' hw'
  cases hw'
  exact h

/-- No number and no name goes on with a sign. -/
theorem setsApart_sign {op : Operation} (hop : op ≠ .subtract) :
    ∀ w ∈ op.sign.toList, SetsApart w := by
  cases op with
  | subtract => exact absurd rfl hop
  | add | multiply | divide | power =>
    intro w hw
    obtain rfl := List.mem_singleton.mp hw
    constructor <;> decide +kernel

/-- **A terminal is found where it stands.** -/
theorem first?_of_standsBefore (h : x.StandsBefore rest) (before : Option Char) :
    calculatorRecognizer.first? before (x.chars ++ rest) = some (x.symbol, x.chars.length) := by
  have hends := h.endsAt_nil
  have hne : x.chars ≠ [] := by
    obtain ⟨d, ds, hd, -⟩ := exists_chars_eq_cons hends
    rw [hd]
    exact List.cons_ne_nil _ _
  have hfirst : calculatorRecognizer.first? before (x.chars ++ []) = _ := first?_chars hends
  cases x with
  | number word => exact first?_again hne hfirst (Nat.le_refl _) h.2
  | name word => exact first?_again hne hfirst (Nat.le_refl _) h.2
  | opening | closing => rfl
  | sign op => cases op <;> rfl

/-- A terminal in front of a layout. -/
theorem cuts_piece (hblanks : ∀ w ∈ blanks, isBlank w = true)
    (hx : x.StandsBefore (layout ps ++ rest)) (h : calculatorRecognizer.Cuts ps rest) :
    calculatorRecognizer.Cuts (x.piece blanks :: ps) rest :=
  .cons hblanks (exists_chars_eq_cons hx.endsAt_nil)
    (fun before => first?_of_standsBefore hx before) h

/-- The terminals of the tokens of a layout. -/
theorem terminal?_tokens (ws : List (List Char × Terminal)) (offset : Nat) :
    (Piece.tokens offset (ws.map fun w => w.2.piece w.1)).map Token.terminal? =
      (ws.map Prod.snd).map some := by
  induction ws generalizing offset with
  | nil => rfl
  | cons w ws ih =>
    rw [List.map_cons, Piece.tokens, List.map_cons, ih, List.map_cons, List.map_cons]
    rw [w.2.terminal?_eq rfl rfl]

/-- **A text that is laid out as terminals has these terminals.** -/
theorem terminals_of_cuts {ws : List (List Char × Terminal)} {input : String}
    (h : calculatorRecognizer.Cuts (ws.map fun w => w.2.piece w.1) rest)
    (hrest : ∀ w ∈ rest, isBlank w = true)
    (hinput : input.toList = layout (ws.map fun w => w.2.piece w.1) ++ rest) :
    Terminals (calculatorRecognizer.scan input) (ws.map Prod.snd) := by
  rw [h.scan_eq isProgressive_calculatorRecognizer hrest hinput]
  exact ⟨terminal?_tokens ws 0, rfl⟩

end Calculator

end Precedence
