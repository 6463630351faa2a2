import Precedence.Proofs.Parsing.Frame
import Precedence.Proofs.Parsing.Priorities

/-!
# More literal texts

A table gets more symbols that are recognized by literal texts. Where none of the new texts stands,
its recognizer finds what it found before, although the new texts are tried among the others. A
single new text is found where it stands, unless a text that is at least as long stands there, too.

* `first?_of_not_starts`: what is found where no new text stands.
* `scan_of_not_infix`: the tokens of a text that no new text occurs in.
* `knows_scan`: all tokens are of symbols of the table.
* `first?_of_starts`: what is found where the only new text stands.
-/

namespace Precedence

open Precedence.Source Precedence.Text

namespace Recognizer

variable {es es' : List Entry} {e : Entry} {own : String} {index i : Nat} {r r' : Recognizer}
variable {before : Option Char} {chars text : List Char} {sofar texts : List (Nat × List Char)}

/-! ## Larger tables -/

/-- All entries are recognized by their own literal texts. -/
def AreLiteral (es : List Entry) : Prop :=
  ∀ e ∈ es, e.pattern? = some (.literal e.id)

/-- The new texts are put among the others, with the indices behind them. -/
theorem literals_append (index : Nat) (sofar : List (Nat × List Char)) (es es' : List Entry) :
    literals index sofar (es ++ es') =
      literals (index + es.length) (literals index sofar es) es' := by
  induction es generalizing index sofar with
  | nil => rfl
  | cons e es ih =>
    have hindex : index + 1 + es.length = index + (e :: es).length := by
      rw [List.length_cons]
      omega
    rw [List.cons_append, literals, literals]
    split
    · rw [ih, hindex]
    · rw [ih, hindex]

theorem classes_of_areLiteral (h : AreLiteral es) : classes index es = .ok [] := by
  induction es generalizing index with
  | nil => rfl
  | cons e es ih =>
    rw [classes, h e List.mem_cons_self]
    exact ih fun e' he' => h e' (List.mem_cons_of_mem e he')

/-- The new texts are no token classes. -/
theorem classes_append (h : AreLiteral es') :
    classes index (es ++ es') = classes index es := by
  induction es generalizing index with
  | nil => exact classes_of_areLiteral h
  | cons e es ih =>
    rw [List.cons_append, classes, classes]
    split
    · rw [ih]
    · rw [ih]

/-! ## What is tried first -/

theorem firstText?_cons_of_starts (h : chars <+: text) :
    firstText? ((i, chars) :: texts) text = some (i, chars.length) := by
  simp [firstText?, h]

theorem firstText?_cons_of_not_starts (h : ¬ chars <+: text) :
    firstText? ((i, chars) :: texts) text = firstText? texts text := by
  simp [firstText?, h]

theorem firstText?_insertLiteral_of_not_starts (h : ¬ chars <+: text) :
    firstText? (insertLiteral i chars texts) text = firstText? texts text := by
  induction texts with
  | nil => exact firstText?_cons_of_not_starts h
  | cons x texts ih =>
    rw [insertLiteral]
    split
    · by_cases hx : x.2 <+: text
      · rw [firstText?_cons_of_starts hx, firstText?_cons_of_starts hx]
      · rw [firstText?_cons_of_not_starts hx, firstText?_cons_of_not_starts hx, ih]
    · exact firstText?_cons_of_not_starts h

theorem firstText?_literals_of_not_starts (hes : AreLiteral es)
    (h : ∀ e ∈ es, ¬ e.id.toList <+: text) :
    firstText? (literals index sofar es) text = firstText? sofar text := by
  induction es generalizing index sofar with
  | nil => rfl
  | cons e es ih =>
    rw [literals, hes e List.mem_cons_self]
    exact (ih (fun e' he' => hes e' (List.mem_cons_of_mem e he')) fun e' he' =>
      h e' (List.mem_cons_of_mem e he')).trans
        (firstText?_insertLiteral_of_not_starts (h e List.mem_cons_self))

theorem firstText?_insertLiteral_of_starts (h : chars <+: text)
    (hlongest : ∀ x ∈ texts, x.2 <+: text → byteLength x.2 < byteLength chars) :
    firstText? (insertLiteral i chars texts) text = some (i, chars.length) := by
  induction texts with
  | nil => exact firstText?_cons_of_starts h
  | cons x texts ih =>
    rw [insertLiteral]
    split
    · rename_i hle
      have hx : ¬ x.2 <+: text := fun hx =>
        absurd (hlongest x List.mem_cons_self hx) (Nat.not_lt.mpr hle)
      rw [firstText?_cons_of_not_starts hx]
      exact ih fun y hy => hlongest y (List.mem_cons_of_mem x hy)
    · exact firstText?_cons_of_starts h

/-- What the recognizer of the larger table tries first. -/
theorem first?_append (hr : ofEntries es = .ok r) (hr' : ofEntries (es ++ es') = .ok r')
    (hes' : AreLiteral es') (before : Option Char) (text : List Char) :
    ∃ later : Option (Nat × Nat),
      r.first? before text = (firstText? (literals 0 [] es) text).or later ∧
        r'.first? before text =
          (firstText? (literals es.length (literals 0 [] es) es') text).or later := by
  obtain ⟨regexes, hc, hfirst⟩ := exists_first?_eq hr
  obtain ⟨regexes', hc', hfirst'⟩ := exists_first?_eq hr'
  rw [classes_append hes', hc] at hc'
  cases hc'
  rw [literals_append, Nat.zero_add] at hfirst'
  exact ⟨_, hfirst before text, hfirst' before text⟩

/-- **Where no new text stands what was found is found.** -/
theorem first?_of_not_starts (hr : ofEntries es = .ok r) (hr' : ofEntries (es ++ es') = .ok r')
    (hes' : AreLiteral es') (h : ∀ e ∈ es', ¬ e.id.toList <+: text) :
    r'.first? before text = r.first? before text := by
  obtain ⟨later, hfirst, hfirst'⟩ := first?_append hr hr' hes' before text
  rw [hfirst, hfirst', firstText?_literals_of_not_starts hes' h]

/-- **Where the only new text stands it is found,** if all others that stand there are shorter. -/
theorem first?_of_starts (hr : ofEntries es = .ok r) (hr' : ofEntries (es ++ [e]) = .ok r')
    (he : e.pattern? = some (.literal e.id)) (h : e.id.toList <+: text)
    (hlongest : ∀ x ∈ literals 0 [] es, x.2 <+: text → byteLength x.2 < byteLength e.id.toList) :
    r'.first? before text = some (es.length, e.id.toList.length) := by
  obtain ⟨later, -, hfirst'⟩ :=
    first?_append hr hr' (List.forall_mem_singleton.mpr he) before text
  have hliterals : literals es.length (literals 0 [] es) [e] =
      insertLiteral es.length e.id.toList (literals 0 [] es) := by
    rw [literals, he]
    rfl
  rw [hfirst', hliterals, firstText?_insertLiteral_of_starts h hlongest]
  rfl

/-! ## Tokens -/

/-- The text behind a token is a part of the text behind the blanks in front of it. -/
theorem rest_suffix_of_next {c behind : Cursor} {t : Token} (h : r.next c = .ok (t, behind)) :
    behind.rest <:+ c.skipBlanks.rest := by
  rw [next] at h
  split at h
  · cases h
    exact List.suffix_refl _
  · split at h
    · cases h
    · cases h
      rw [Cursor.rest_advance]
      exact List.drop_suffix _ _

/-- What is found at a place is the end or what a pattern is for. -/
theorem symbol_of_next {c behind : Cursor} {t : Token} (h : r.next c = .ok (t, behind)) :
    t.symbol = 0 ∨ ∃ before text n, r.first? before text = some (t.symbol, n) := by
  rw [next] at h
  split at h
  · cases h
    exact .inl rfl
  · split at h
    · cases h
    · rename_i symbol n hfirst
      cases h
      exact .inr ⟨_, _, n, hfirst⟩

theorem knows_scanFrom {known : Nat → Prop} (hend : known 0)
    (h : ∀ before text symbol n, r.first? before text = some (symbol, n) → known symbol)
    (steps : Nat) (c : Cursor) : (r.scanFrom steps c).Knows known := by
  induction steps generalizing c with
  | zero => exact ⟨List.forall_mem_nil _, fun symbol hsymbol => by cases hsymbol⟩
  | succ steps ih =>
    rw [scanFrom]
    cases hn : r.next c with
    | error span => exact ⟨List.forall_mem_nil _, fun symbol hsymbol => by cases hsymbol⟩
    | ok found =>
      obtain ⟨t, behind⟩ := found
      have ht : known t.symbol := by
        rcases symbol_of_next hn with h0 | ⟨before, text, n, hfirst⟩
        · exact h0 ▸ hend
        · exact h before text t.symbol n hfirst
      obtain ⟨htokens, hending⟩ := ih behind
      simp only
      split
      · refine ⟨List.forall_mem_nil _, fun symbol hsymbol => ?_⟩
        cases hsymbol
        exact ht
      · exact ⟨List.forall_mem_cons.mpr ⟨ht, htokens⟩, hending⟩

/-- **All tokens are of symbols of the table,** if that has one for the end of the text. -/
theorem knows_scan (hr : ofEntries es = .ok r) (hes : es ≠ []) (input : String) :
    (r.scan input).Knows (· < es.length) := by
  refine knows_scanFrom (List.length_pos_iff.mpr hes) (fun before text symbol n hfirst => ?_) _ _
  obtain ⟨p, hp, -⟩ := exists_pattern_of_first? hr hfirst
  obtain ⟨e, he, -⟩ := Option.bind_eq_some_iff.mp hp
  exact (List.getElem?_eq_some_iff.mp he).1

/-- Recognizers that find the same at all places of a text find the same tokens. -/
theorem scanFrom_congr {c : Cursor}
    (h : ∀ before rest, rest <:+ c.rest → r'.first? before rest = r.first? before rest)
    (steps : Nat) : r'.scanFrom steps c = r.scanFrom steps c := by
  induction steps generalizing c with
  | zero => rfl
  | succ steps ih =>
    have hsuffix : c.skipBlanks.rest <:+ c.rest :=
      Cursor.rest_skipBlanks c ▸ List.dropWhile_suffix isBlank
    have hnext : r'.next c = r.next c := by
      rw [next, next, h _ _ hsuffix]
    rw [scanFrom, scanFrom, hnext]
    cases hn : r.next c with
    | error span => rfl
    | ok found =>
      obtain ⟨t, behind⟩ := found
      have hbehind : behind.rest <:+ c.rest := (rest_suffix_of_next hn).trans hsuffix
      simp only [ih fun before rest hrest => h before rest (hrest.trans hbehind)]

/-- **A text that no new text occurs in has the same tokens.** -/
theorem scan_of_not_infix (hr : ofEntries es = .ok r) (hr' : ofEntries (es ++ es') = .ok r')
    (hes' : AreLiteral es') {input : String}
    (h : ∀ e ∈ es', ¬ e.id.toList <:+: input.toList) : r'.scan input = r.scan input := by
  refine scanFrom_congr (fun before rest hrest => ?_) _
  refine first?_of_not_starts hr hr' hes' fun e he hstart => h e he ?_
  exact hstart.isInfix.trans hrest.isInfix

end Recognizer

end Precedence
