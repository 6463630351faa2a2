import Precedence.Proofs.Calculator.Spelling
import Precedence.Value.Rendering

/-!
# Texts of phrases

Phrases can be written down. `Phrase.IsWritten` says that a text spells the terminals of a phrase,
whatever follows it; the texts of larger phrases are made of those of smaller ones.

* `IsWritten.parse`: a phrase that has a value is parsed from each of its texts.
-/

namespace Precedence

open Precedence.Number Calculator

namespace Calculator.Phrase

/-- The text is one of the phrase: in front of any text at which words end, it spells the terminals
of the phrase. -/
def IsWritten {N : Level} (e : Phrase N) (text : List Char) : Prop :=
  ∀ rest ts, Stops rest → Spells rest ts → Spells (text ++ rest) (e.terminals ++ ts)

theorem isWritten_name {word : String} (h : IsName word) :
    (Phrase.name word).IsWritten word.toList :=
  fun _ _ hrest hts => .terminal (x := .name word) ⟨h, hrest⟩ hts

theorem isWritten_number {word : String} (h : IsNumeral word) :
    (Phrase.number word).IsWritten word.toList :=
  fun _ _ hrest hts => .terminal (x := .number word) ⟨h, hrest⟩ hts

namespace IsWritten

variable {M N : Level} {e : Phrase M} {text other : List Char}

theorem of_terminals_eq (h : e.IsWritten text) {e' : Phrase N} (he : e'.terminals = e.terminals) :
    e'.IsWritten text := by
  intro rest ts hrest hts
  rw [he]
  exact h rest ts hrest hts

/-- A phrase in parentheses. -/
theorem group {e : Phrase .sum} (h : e.IsWritten text) :
    (Phrase.group e).IsWritten (Value.parenthesized text) := by
  intro rest ts _ hts
  have hclosing : Spells (')' :: rest) (.closing :: ts) := .terminal (x := .closing) trivial hts
  have hopening : Spells ('(' :: (text ++ ')' :: rest))
      (.opening :: (e.terminals ++ .closing :: ts)) :=
    .terminal (x := .opening) trivial (h _ _ (stops_closing rest) hclosing)
  simpa [Value.parenthesized, Phrase.terminals] using hopening

/-- A minus sign in front of a phrase. -/
theorem negated {u : Phrase .signed} (h : u.IsWritten text) :
    (Phrase.negated u).IsWritten ('-' :: text) :=
  fun rest ts hrest hts => .terminal (x := .sign .subtract) trivial (h rest ts hrest hts)

/-- An operation between two phrases. -/
theorem applied (op : Operation) {a : Phrase (.left op)} {b : Phrase (.right op)}
    (ha : a.IsWritten text) (hb : b.IsWritten other) :
    (Phrase.applied op a b).IsWritten (text ++ (' ' :: op.sign.toList ++ [' ']) ++ other) := by
  intro rest ts hrest hts
  have hright := Spells.blank (hb rest ts hrest hts)
  have hsign := Spells.blank (.terminal (x := .sign op) trivial hright)
  have hleft := ha _ _ (stops_blank _) hsign
  simpa [Phrase.terminals_applied, Terminal.chars] using hleft

/-- The text of a phrase is scanned as its terminals. -/
theorem terminals (h : e.IsWritten text) :
    Terminals (calculatorRecognizer.scan (String.ofList text)) e.terminals := by
  have hspells := h [] [] stops_nil .nil
  rw [List.append_nil, List.append_nil] at hspells
  refine terminals_of_spells hspells ?_ ?_
  · rw [String.toList_ofList]
  · rw [String.toList_ofList]
    exact Nat.lt_succ_self _

/-- **A phrase that has a value is parsed from its text.** -/
theorem parse {e : Phrase .sum} (h : e.IsWritten text) {v : Value} (hv : e.value kept = some v)
    {depth : Nat} (hdepth : e.tally.height + 1 ≤ depth) :
    (algebra.setMaxDepth depth).parse (String.ofList text) = some (.ok (v, e.stats)) :=
  algebra_parse_of_phrase h.terminals hv hdepth

end IsWritten

end Calculator.Phrase

end Precedence
