import Precedence.Proofs.Calculator.Answers
import Precedence.Proofs.Parsing.Readings

/-!
# Texts that word terminals

`Writes` says that a text spells terminals in front of any text that no number and no name goes on
with. Signs may stand close to the terminals around them, as the one inside of a fraction does, or
between blanks. The texts of larger phrases are made of those of smaller ones.

* `Tight.writes`: terminals without blanks between them.
* `Writes.group`, `Writes.negated`, `Writes.between`: parentheses, a minus sign in front, and the
  sign of an operation in the middle.
* `Writes.parse`: a phrase that has a value is parsed from each of its texts.
-/

namespace Precedence

open Precedence.Text Calculator

namespace Calculator

variable {x : Terminal} {xs ys : List Terminal} {text other rest : List Char} {ws : List Word}

/-- What a parse sees of a terminal. -/
def Terminal.word (x : Terminal) : Word :=
  (x.symbol, String.ofList x.chars)

theorem terminal?_of_word {t : Token} (h : t.word = x.word) : t.terminal? = some x :=
  x.terminal?_eq (congrArg Prod.fst h) (congrArg Prod.snd h)

theorem terminal?_of_words {ts : List Token} (h : ts.map Token.word = xs.map Terminal.word) :
    ts.map Token.terminal? = xs.map some := by
  induction xs generalizing ts with
  | nil =>
    rw [List.map_eq_nil_iff.mp h]
    rfl
  | cons x xs ih =>
    obtain ⟨t, ts, rfl, hfirst, hrest⟩ := List.map_eq_cons_iff.mp h
    rw [List.map_cons, List.map_cons, terminal?_of_word hfirst, ih hrest]

/-- The text spells the terminals, whatever is behind it that no number and no name goes on with. -/
def Writes (text : List Char) (xs : List Terminal) : Prop :=
  ∀ rest ws, BeginsApart rest → calculatorRecognizer.Spells rest ws →
    calculatorRecognizer.Spells (text ++ rest) (xs.map Terminal.word ++ ws)

theorem spells_terminal (hx : x.StandsBefore rest) (h : calculatorRecognizer.Spells rest ws) :
    calculatorRecognizer.Spells (x.chars ++ rest) (x.word :: ws) :=
  .word (exists_chars_eq_cons hx.endsAt_nil) (fun before => first?_of_standsBefore hx before) h

theorem BeginsApart.append (h : BeginsApart text) (hrest : BeginsApart rest) :
    BeginsApart (text ++ rest) := by
  cases text with
  | nil => exact hrest
  | cons w text => exact beginsApart_cons (h w rfl) (text ++ rest)

theorem Terminal.StandsBefore.append (h : x.StandsBefore text) (hrest : BeginsApart rest) :
    x.StandsBefore (text ++ rest) := by
  cases x with
  | number word => exact ⟨h.1, BeginsApart.append h.2 hrest⟩
  | name word => exact ⟨h.1, BeginsApart.append h.2 hrest⟩
  | opening | closing | sign _ => trivial

/-- Terminals without blanks between them. -/
theorem Tight.writes (h : Tight xs) : Writes (closed xs) xs := by
  induction xs with
  | nil => exact fun _ _ _ hws => hws
  | cons x xs ih =>
    intro rest ws hrest hws
    have hchars : closed (x :: xs) ++ rest = x.chars ++ (closed xs ++ rest) :=
      List.append_assoc x.chars (closed xs) rest
    rw [hchars]
    exact spells_terminal (h.1.append hrest) (ih h.2 rest ws hrest hws)

namespace Writes

/-- A text in parentheses. -/
theorem group (h : Writes text xs) :
    Writes (Value.parenthesized text) (.opening :: xs ++ [.closing]) := by
  intro rest ws _ hws
  have hclosing : calculatorRecognizer.Spells (')' :: rest) (Terminal.closing.word :: ws) :=
    spells_terminal (x := .closing) trivial hws
  have hinner := h _ _ (beginsApart_cons setsApart_closing rest) hclosing
  have hopening := spells_terminal (x := .opening) trivial hinner
  simpa [Value.parenthesized, Terminal.chars] using hopening

/-- A minus sign in front of a text. -/
theorem negated (h : Writes text xs) : Writes ('-' :: text) (.sign .subtract :: xs) :=
  fun rest ws hrest hws => spells_terminal (x := .sign .subtract) trivial (h rest ws hrest hws)

/-- The sign of an operation, with blanks around it, between two texts. -/
theorem between (op : Operation) (h : Writes text xs) (h' : Writes other ys) :
    Writes (text ++ (' ' :: op.sign.toList ++ [' ']) ++ other) (xs ++ .sign op :: ys) := by
  intro rest ws hrest hws
  have hblank : isBlank ' ' = true := by decide
  have hright := Recognizer.Spells.blank hblank (h' rest ws hrest hws)
  have hsign := Recognizer.Spells.blank hblank (spells_terminal (x := .sign op) trivial hright)
  have hleft := h _ _ (beginsApart_cons (setsApart_of_isBlank hblank) _) hsign
  simpa [Terminal.chars] using hleft

/-- A text that spells terminals is scanned as them. -/
theorem terminals (h : Writes text xs) :
    Terminals (calculatorRecognizer.scan (String.ofList text)) xs := by
  have hspells := h [] [] beginsApart_nil .nil
  rw [List.append_nil, List.append_nil, ← String.toList_ofList (l := text)] at hspells
  obtain ⟨htokens, hending⟩ := hspells.scan isProgressive_calculatorRecognizer
  exact ⟨terminal?_of_words htokens, hending⟩

/-- **A phrase that has a value is parsed from its text.** -/
theorem parse {e : Phrase .sum} (h : Writes text e.terminals) {v : Value}
    (hv : e.value kept = some v) {depth : Nat} (hdepth : e.tally.height < depth) :
    (algebra.setMaxDepth depth).parse (String.ofList text) = some (.ok (v, e.stats)) :=
  algebra_parse_of_phrase h.terminals hv hdepth

end Writes

end Calculator

end Precedence
