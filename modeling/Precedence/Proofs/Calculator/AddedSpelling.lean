import Precedence.Proofs.Calculator.Addition
import Precedence.Value.Rendering

/-!
# Spelling with an operator more

How the words of values are spelled for `algebra` with one operator more. Operators stand between
blanks. Everything else is written with characters of operands, so that the new symbol can stand
nowhere in a run of them.

* `not_prefix_of_isTame`: where a run of such characters begins the symbol does not stand.
* `Spelled.group`, `Spelled.negated`, `Spelled.behind`, `Spelled.append`: the texts of larger values
  are spelled if those of smaller ones are.
-/

namespace Precedence

open Precedence.Number Precedence.Text Value

namespace Calculator

/-! ## Runs of characters of operands -/

/-- The text has nothing but characters of operands up to its first blank. -/
def IsTame (text : List Char) : Prop :=
  ∀ x ∈ text.takeWhile (!isBlank ·), isOperandChar x = true

theorem isTame_nil : IsTame [] := by
  simp [IsTame]

theorem isTame_blank (rest : List Char) : IsTame (' ' :: rest) := by
  rw [IsTame, List.takeWhile_cons_of_neg (by decide)]
  simp

theorem isTame_cons {x : Char} {rest : List Char} (hx : isOperandChar x = true)
    (h : IsTame rest) : IsTame (x :: rest) := by
  unfold IsTame
  rw [List.takeWhile_cons]
  split
  · intro y hy
    rcases List.mem_cons.mp hy with rfl | hy
    · exact hx
    · exact h y hy
  · simp

theorem isTame_append {part rest : List Char} (hpart : ∀ x ∈ part, isOperandChar x = true)
    (h : IsTame rest) : IsTame (part ++ rest) := by
  induction part with
  | nil => exact h
  | cons x part ih =>
    exact isTame_cons (hpart x List.mem_cons_self)
      (ih fun y hy => hpart y (List.mem_cons_of_mem x hy))

namespace Addition

variable {a : Addition} {r : Recognizer} {text other : List Char} {ws us : List Word}

/-- Text without blanks that a text begins with is part of its first run. -/
theorem prefix_takeWhile {part : List Char} (hpart : ∀ x ∈ part, isBlank x = false)
    (h : part <+: text) : part <+: text.takeWhile (!isBlank ·) := by
  obtain ⟨rest, rfl⟩ := h
  rw [List.takeWhile_append_of_pos fun x hx => by rw [hpart x hx]; rfl]
  exact List.prefix_append _ _

/-- **The symbol does not stand where operands do.** -/
theorem not_prefix_of_isTame (a : Addition) (h : IsTame text) : ¬ a.symbol.toList <+: text := by
  intro hprefix
  obtain ⟨x, hx, hforeign⟩ := a.isFresh.exists_foreign
  have htame := h x ((prefix_takeWhile a.isFresh.not_blank hprefix).subset hx)
  exact Bool.false_ne_true (hforeign.symm.trans htame)

/-- The symbol does not stand where the sign of an operation and a blank do. -/
theorem not_prefix_sign (a : Addition) (op : Operation) (rest : List Char) :
    ¬ a.symbol.toList <+: op.sign.toList ++ ' ' :: rest := by
  obtain ⟨d, hd, hblank⟩ : ∃ d, op.sign.toList = [d] ∧ isBlank d = false := by
    cases op <;> exact ⟨_, rfl, by decide⟩
  intro hprefix
  have hrun := prefix_takeWhile a.isFresh.not_blank hprefix
  rw [hd, List.cons_append, List.takeWhile_cons_of_pos (by rw [hblank]; rfl), List.nil_append,
    List.takeWhile_cons_of_neg (by decide)] at hrun
  obtain ⟨x, xs, hcons⟩ := a.exists_cons
  rw [hcons, List.cons_prefix_cons, List.prefix_nil] at hrun
  refine a.isFresh.sign_ne op ?_
  rw [← String.toList_inj, hd, hcons, hrun.1, hrun.2]

/-! ## Spelling -/

/-- The recognizer finds the words in the text, in front of any text at which words end, and the
first run of the text is one of operands. -/
structure Spelled (r : Recognizer) (text : List Char) (ws : List Word) : Prop where
  isTame : ∀ rest, IsTame rest → IsTame (text ++ rest)
  spells : ∀ rest us, Stops rest → IsTame rest → r.Spells rest us →
    r.Spells (text ++ rest) (ws ++ us)

/-- With nothing behind the text the words are all that is found. -/
theorem Spelled.whole (h : Spelled r text ws) : r.Spells text ws := by
  have hspells := h.spells [] [] stops_nil isTame_nil .nil
  rwa [List.append_nil, List.append_nil] at hspells

theorem spelled_nil : Spelled r [] [] where
  isTame _ h := h
  spells _ _ _ _ h := h

/-- A terminal of an operand is spelled in front of a text at which it ends. -/
theorem spells_terminal (hr : a.grammar.recognizer = .ok r) {x : Terminal} {rest : List Char}
    (hx : x.EndsAt rest) (htame : IsTame (x.chars ++ rest)) (h : r.Spells rest us) :
    r.Spells (x.chars ++ rest) ((x.symbol, String.ofList x.chars) :: us) := by
  refine .word (exists_chars_eq_cons hx) (fun before => ?_) h
  rw [first?_of_not_starts hr (a.not_prefix_of_isTame htame), first?_chars hx]

theorem isOperandChar_of_isDigit {x : Char} (h : x.isDigit = true) : isOperandChar x = true := by
  obtain ⟨hlow, hhigh⟩ := toNat_of_isDigit h
  have hrest : nameRest.contains x = true := by
    rw [CharSet.contains, nameRest, CharSet.holds, if_neg (by omega), decide_eq_true hhigh,
      Bool.true_or]
  rw [isOperandChar, hrest]
  rfl

theorem isOperandChar_of_isName {word : String} (h : IsName word) :
    ∀ x ∈ word.toList, isOperandChar x = true := by
  obtain ⟨c, cs, hl, hc, hcs⟩ := h
  have hstart : nameRest.contains c = true := by
    simp only [CharSet.contains, nameStart, nameRest, CharSet.holds] at hc ⊢
    grind
  intro x hx
  rw [hl] at hx
  rcases List.mem_cons.mp hx with rfl | hx
  · rw [isOperandChar, hstart]
    rfl
  · rw [isOperandChar, hcs x hx]
    rfl

theorem spelled_name (hr : a.grammar.recognizer = .ok r) {word : String} (h : IsName word) :
    Spelled r word.toList [(2, word)] where
  isTame rest := isTame_append (isOperandChar_of_isName h)
  spells rest us hrest htame hus := by
    have hword := spells_terminal (x := .name word) hr ⟨h, hrest⟩
      (isTame_append (isOperandChar_of_isName h) htame) hus
    simpa [Terminal.chars, Terminal.symbol] using hword

theorem spelled_number (hr : a.grammar.recognizer = .ok r) {word : String} (h : IsDigits word) :
    Spelled r word.toList [(1, word)] where
  isTame rest := isTame_append fun x hx => isOperandChar_of_isDigit (h.digits x hx)
  spells rest us hrest htame hus := by
    have hword := spells_terminal (x := .number word) hr ⟨.inl h, hrest⟩
      (isTame_append (fun x hx => isOperandChar_of_isDigit (h.digits x hx)) htame) hus
    simpa [Terminal.chars, Terminal.symbol] using hword

/-- A text in parentheses. -/
theorem Spelled.group (hr : a.grammar.recognizer = .ok r) (h : Spelled r text ws) :
    Spelled r (parenthesized text) ((4, "(") :: ws ++ [(3, ")")]) := by
  have htame : ∀ rest, IsTame rest → IsTame ('(' :: (text ++ ')' :: rest)) := fun rest hrest =>
    isTame_cons (by decide) (h.isTame _ (isTame_cons (by decide) hrest))
  refine ⟨fun rest hrest => ?_, fun rest us _ hrest hus => ?_⟩
  · simpa [parenthesized] using htame rest hrest
  · have hclosing : r.Spells (')' :: rest) ((3, ")") :: us) :=
      spells_terminal (x := .closing) hr trivial (isTame_cons (by decide) hrest) hus
    have hinner := h.spells _ _ (stops_closing rest) (isTame_cons (by decide) hrest) hclosing
    have hopening : r.Spells ('(' :: (text ++ ')' :: rest))
        ((4, "(") :: (ws ++ (3, ")") :: us)) :=
      spells_terminal (x := .opening) hr trivial (htame rest hrest) hinner
    simpa [parenthesized] using hopening

/-- A minus sign in front of a text. -/
theorem Spelled.negated (hr : a.grammar.recognizer = .ok r) (h : Spelled r text ws) :
    Spelled r ('-' :: text) ((5, "-") :: ws) where
  isTame rest hrest := isTame_cons (by decide) (h.isTame rest hrest)
  spells rest us hstops hrest hus :=
    spells_terminal (x := .sign .subtract) hr trivial
      (isTame_cons (by decide) (h.isTame rest hrest)) (h.spells rest us hstops hrest hus)

/-- An operator between blanks is found. -/
theorem Places.first? (hr : a.grammar.recognizer = .ok r) {op : Operator} {i : Nat}
    (h : a.Places op i) (before : Option Char) (rest : List Char) :
    r.first? before (op.symbol.toList ++ ' ' :: rest) = some (i, op.symbol.toList.length) := by
  cases h with
  | kept op =>
    have hsign : op.operator.symbol = op.sign := by cases op <;> rfl
    have hfound : calculatorRecognizer.first? before (op.sign.toList ++ ' ' :: rest) =
        some ((Terminal.sign op).symbol, op.sign.toList.length) :=
      first?_chars (x := .sign op) trivial
    rw [hsign, first?_of_not_starts hr (a.not_prefix_sign op rest), hfound]
  | added => exact first?_symbol hr _

/-- An operator with blanks around it, in front of a text. -/
theorem Spelled.behind (hr : a.grammar.recognizer = .ok r) {op : Operator} {i : Nat}
    (hop : a.Places op i) (h : Spelled r text ws) :
    Spelled r (' ' :: op.symbol.toList ++ [' '] ++ text) ((i, op.symbol) :: ws) := by
  have hpart : ∃ d ds, op.symbol.toList = d :: ds ∧ isBlank d = false := by
    cases hop with
    | kept op => cases op <;> exact ⟨_, _, rfl, by decide⟩
    | added =>
      obtain ⟨d, ds, hcons⟩ := a.exists_cons
      exact ⟨d, ds, hcons, a.isFresh.not_blank d (hcons ▸ List.mem_cons_self)⟩
  refine ⟨fun rest _ => isTame_blank _, fun rest us hstops hrest hus => ?_⟩
  have hright := Recognizer.Spells.blank (x := ' ') (by decide) (h.spells rest us hstops hrest hus)
  have hsign := Recognizer.Spells.blank (x := ' ') (by decide)
    (.word hpart (fun before => hop.first? hr before _) hright)
  simpa using hsign

/-- One text behind another one, if it is empty or begins with a blank. -/
theorem Spelled.append (h : Spelled r text ws) (h' : Spelled r other us)
    (hother : other = [] ∨ ∃ rest, other = ' ' :: rest) :
    Spelled r (text ++ other) (ws ++ us) := by
  refine ⟨fun rest hrest => ?_, fun rest us' hstops hrest hus => ?_⟩
  · rw [List.append_assoc]
    exact h.isTame _ (h'.isTame rest hrest)
  · rw [List.append_assoc, List.append_assoc]
    refine h.spells _ _ ?_ (h'.isTame rest hrest) (h'.spells rest us' hstops hrest hus)
    obtain rfl | ⟨more, rfl⟩ := hother
    · exact hstops
    · exact stops_blank _

/-- An operator between two texts, with blanks around it. -/
theorem Spelled.applied (hr : a.grammar.recognizer = .ok r) {op : Operator} {i : Nat}
    (hop : a.Places op i) (h : Spelled r text ws) (h' : Spelled r other us) :
    Spelled r (text ++ (' ' :: op.symbol.toList ++ [' ']) ++ other)
      (ws ++ (i, op.symbol) :: us) := by
  rw [List.append_assoc]
  exact h.append (h'.behind hr hop) (.inr ⟨_, rfl⟩)

end Addition

end Calculator

end Precedence
