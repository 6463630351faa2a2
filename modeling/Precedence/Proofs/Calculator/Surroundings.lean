import Precedence.Proofs.Calculator.Spelling

/-!
# Texts in parentheses

What a scan finds in a text does not depend on what surrounds it, if a closing parenthesis follows:
no number and no name goes on with one, and no pattern of the calculators asks what stands before a
place.

* `exists_leads_before_closing`: the terminals of a text are found again in front of a parenthesis.
* `exists_leads_group`: so a text in parentheses has its own terminals between two more.
-/

namespace Precedence

open Precedence.Source Precedence.Pattern Precedence.Text

namespace Calculator

variable {before before' : Option Char} {text rest rest' : List Char} {c c' : Cursor}
variable {ts : List Token}

/-! ## Characters that separate -/

/-- A character that no number and no name goes on with. -/
def SetsApart (w : Char) : Prop :=
  numberRegex.avoids w = true ∧ nameRegex.avoids w = true

/-- What begins with such a character, or is empty. -/
def BeginsApart (text : List Char) : Prop :=
  ∀ w ∈ text.head?, SetsApart w

theorem setsApart_closing : SetsApart ')' := by
  constructor <;> decide +kernel

/-- A character of a set lies in one of its runs. -/
theorem exists_run {n : Nat} {runs : List (Nat × Nat)} (h : CharSet.holds n runs = true) :
    ∃ run ∈ runs, run.1 ≤ n ∧ n ≤ run.2 := by
  induction runs with
  | nil => cases h
  | cons run runs ih =>
    rw [CharSet.holds] at h
    split at h
    · cases h
    · rename_i hfirst
      rcases Bool.or_eq_true_iff.mp h with hlast | h
      · exact ⟨run, List.mem_cons_self, Nat.not_lt.mp hfirst, of_decide_eq_true hlast⟩
      · obtain ⟨other, hmem, hother⟩ := ih h
        exact ⟨other, List.mem_cons_of_mem run hmem, hother⟩

/-- A character of one set is none of another one whose runs lie apart. -/
theorem not_contains_of_apart {s t : CharSet} {w : Char}
    (h : ∀ a ∈ s.runs, ∀ b ∈ t.runs, a.2 < b.1 ∨ b.2 < a.1) (hw : s.contains w = true) :
    t.contains w = false := by
  refine Bool.eq_false_iff.mpr fun ht => ?_
  obtain ⟨a, ha, hfirst, hlast⟩ := exists_run hw
  obtain ⟨b, hb, hfirst', hlast'⟩ := exists_run ht
  have := h a ha b hb
  omega

/-- No number and no name goes on with a blank. -/
theorem setsApart_of_isBlank {w : Char} (hw : isBlank w = true) : SetsApart w := by
  have hdigit := not_contains_of_apart (t := decimalDigits) (by decide +kernel) hw
  have hpoint := not_contains_of_apart (t := .single '.') (by decide +kernel) hw
  have hexponent := not_contains_of_apart (t := ⟨[(69, 69), (101, 101)]⟩) (by decide +kernel) hw
  have hminus := not_contains_of_apart (t := .single '-') (by decide +kernel) hw
  have hstart := not_contains_of_apart (t := nameStart) (by decide +kernel) hw
  have hrest := not_contains_of_apart (t := nameRest) (by decide +kernel) hw
  constructor
  · simp only [numberRegex, digitsRegex, Regex.char, Regex.avoids, hdigit, hpoint, hexponent,
      hminus, Bool.not_false, Bool.and_self]
  · simp only [nameRegex, Regex.avoids, hstart, hrest, Bool.not_false, Bool.and_self]

/-! ## What is found at a place -/

/-- A pattern finds in a beginning of a text what it finds in the text, if that fits into it. -/
theorem matchLength?_regex_again {r : Regex} (hr : ∀ w, SetsApart w → r.avoids w = true)
    (hle : ∀ n, r.matchLength? before (text ++ rest) = some n → n ≤ text.length)
    (hrest' : BeginsApart rest') :
    r.matchLength? before' (text ++ rest') = r.matchLength? before (text ++ rest) := by
  have hclosing := hr ')' setsApart_closing
  rw [← Regex.matchLength?_of_append hclosing hle,
    Regex.matchLength?_before hclosing before before']
  cases rest' with
  | nil => rw [List.append_nil]
  | cons w rest' => exact Regex.matchLength?_append (hr w (hrest' w rfl)) text rest'

theorem matchLength?_again {rule : Nat × Rule} (hrule : rule ∈ calculatorRecognizer.rules)
    (h : text ≠ [])
    (hle : ∀ n, rule.2.matchLength? before (text ++ rest) = some n → n ≤ text.length)
    (hrest' : BeginsApart rest') :
    rule.2.matchLength? before' (text ++ rest') = rule.2.matchLength? before (text ++ rest) := by
  obtain ⟨d, ds, rfl⟩ := List.exists_cons_of_ne_nil h
  have hliteral : ∀ x : Char, (Rule.text [x]).matchLength? before' (d :: ds ++ rest') =
      (Rule.text [x]).matchLength? before (d :: ds ++ rest) := by
    intro x
    simp [Rule.matchLength?]
  simp only [calculatorRecognizer, List.mem_cons, List.not_mem_nil, or_false] at hrule
  rcases hrule with rfl | rfl | rfl | rfl | rfl | rfl | rfl | rfl | rfl
  · exact hliteral _
  · exact hliteral _
  · exact hliteral _
  · exact hliteral _
  · exact hliteral _
  · exact hliteral _
  · exact hliteral _
  · exact matchLength?_regex_again (fun _ hw => hw.1) hle hrest'
  · exact matchLength?_regex_again (fun _ hw => hw.2) hle hrest'

/-- Rules that find in a text what fits into a beginning of it find it again where the text goes on
in another way behind that. -/
theorem findSome?_again {rules : List (Nat × Rule)} {symbol n : Nat}
    (hrules : ∀ rule ∈ rules, rule ∈ calculatorRecognizer.rules) (h : text ≠ [])
    (hf : rules.findSome? (fun rule =>
      (rule.2.matchLength? before (text ++ rest)).map fun n => (rule.1, n)) = some (symbol, n))
    (hn : n ≤ text.length) (hrest' : BeginsApart rest') :
    rules.findSome? (fun rule =>
      (rule.2.matchLength? before' (text ++ rest')).map fun n => (rule.1, n)) =
        some (symbol, n) := by
  induction rules with
  | nil => cases hf
  | cons rule rules ih =>
    have hrule := hrules rule List.mem_cons_self
    rw [List.findSome?_cons] at hf ⊢
    cases hm : rule.2.matchLength? before (text ++ rest) with
    | none =>
      have hle : ∀ n, rule.2.matchLength? before (text ++ rest) = some n → n ≤ text.length := by
        simp [hm]
      rw [matchLength?_again hrule h hle hrest', hm]
      rw [hm] at hf
      exact ih (fun rule hmem => hrules rule (List.mem_cons_of_mem _ hmem)) hf
    | some m =>
      rw [hm] at hf
      cases hf
      have hle : ∀ n, rule.2.matchLength? before (text ++ rest) = some n → n ≤ text.length := by
        simpa [hm] using hn
      rw [matchLength?_again hrule h hle hrest', hm]
      rfl

/-- What is found in a text is found again where the text goes on in another way behind it. -/
theorem first?_again {symbol n : Nat} (h : text ≠ [])
    (hf : calculatorRecognizer.first? before (text ++ rest) = some (symbol, n))
    (hn : n ≤ text.length) (hrest' : BeginsApart rest') :
    calculatorRecognizer.first? before' (text ++ rest') = some (symbol, n) :=
  findSome?_again (fun _ => id) h hf hn hrest'

theorem le_length_of_first? {symbol n : Nat}
    (h : calculatorRecognizer.first? before text = some (symbol, n)) : n ≤ text.length := by
  obtain ⟨rule, -, hrule⟩ := List.exists_of_findSome?_eq_some h
  obtain ⟨m, hm, hn⟩ := Option.map_eq_some_iff.mp hrule
  cases hn
  cases hr : rule.2 with
  | text chars =>
    rw [hr] at hm
    simp only [Rule.matchLength?] at hm
    split at hm
    · cases hm
      rename_i hp
      exact (List.isPrefixOf_iff_prefix.mp hp).length_le
    · cases hm
  | regex r =>
    rw [hr] at hm
    exact Regex.matchLength?_le hm

/-! ## Parts of a scan -/

/-- A terminal, with blanks in front of it. -/
theorem exists_leads_terminal {x : Terminal}
    (h : c.rest.dropWhile isBlank = x.chars ++ rest) (hx : x.EndsAt rest) :
    ∃ t c', calculatorRecognizer.Leads c [t] c' ∧ c'.rest = rest ∧ t.terminal? = some x ∧
      t.span = ⟨c'.offset - byteLength x.chars, c'.offset⟩ := by
  have hrest : c.skipBlanks.rest = x.chars ++ rest := by rw [Cursor.rest_skipBlanks, h]
  have hne : c.skipBlanks.rest ≠ [] := by
    obtain ⟨d, ds, hd, -⟩ := exists_chars_eq_cons hx
    rw [hrest, hd]
    exact List.cons_ne_nil _ _
  refine ⟨_, _, .step hne (by rw [hrest]; exact first?_chars hx) (.refl _), ?_, ?_, ?_⟩
  · rw [Cursor.rest_advance, hrest, List.drop_left]
  · refine x.terminal?_eq rfl ?_
    rw [Recognizer.tokenAt, hrest, List.take_left]
  · rw [Cursor.offset_advance, hrest, List.take_left, Nat.add_sub_cancel]
    simp only [Recognizer.tokenAt, Cursor.offset_advance, hrest, List.take_left]

theorem terminal?_congr {t t' : Token} (hs : t.symbol = t'.symbol) (ht : t.text = t'.text) :
    t.terminal? = t'.terminal? := by
  rw [Token.terminal?, Token.terminal?, hs, ht]

/-- What is found at a place depends on the offset of the place and on what is taken there. -/
theorem tokenAt_congr {symbol n consumed : Nat} (ho : c'.offset = c.offset)
    (ht : c'.rest.take n = c.rest.take n) :
    Recognizer.tokenAt c' symbol n consumed = Recognizer.tokenAt c symbol n consumed := by
  simp only [Recognizer.tokenAt, Cursor.offset_advance, ho, ht]

/-- One token of a beginning of a text is found again. The beginning goes on with `q` behind the
token. -/
theorem first?_skipBlanks_again {symbol n : Nat} {front q : List Char}
    (hs : c.skipBlanks.rest ≠ [])
    (hf : calculatorRecognizer.first? c.skipBlanks.before c.skipBlanks.rest = some (symbol, n))
    (hc : c.rest = front ++ rest) (hq : (c.skipBlanks.advance n).rest = q ++ rest)
    (hrest' : BeginsApart rest') (hc' : c'.rest = front ++ rest') :
    calculatorRecognizer.first? c'.skipBlanks.before c'.skipBlanks.rest = some (symbol, n) ∧
      c'.skipBlanks.rest.take n = c.skipBlanks.rest.take n ∧
      (c'.skipBlanks.advance n).rest = q ++ rest' ∧
      (c'.offset = c.offset → c'.skipBlanks.offset = c.skipBlanks.offset) := by
  obtain ⟨blanks, d, behind, hblank, hblanks, hd, hskip⟩ := Cursor.exists_blanks hs
  obtain ⟨_, hoffset⟩ := Cursor.skipBlanks_of_append hblank hblanks hd
  rw [hskip] at hf
  rw [Cursor.rest_advance, hskip] at hq
  have hn := isProgressive_calculatorRecognizer.pos _ _ _ _ hf
  let token := (d :: behind).take n
  have hlength : token.length = n := List.length_take_of_le (le_length_of_first? hf)
  have hsplit : d :: behind = token ++ q ++ rest := by
    rw [List.append_assoc, ← hq, List.take_append_drop]
  have hne : token ++ q ≠ [] := by
    intro hnil
    rw [(List.append_eq_nil_iff.mp hnil).1] at hlength
    exact absurd hlength (Nat.ne_of_lt hn)
  -- The beginning consists of the blanks, the token, and `q`.
  have hfront : front = blanks ++ (token ++ q) := by
    refine (List.append_left_inj rest).mp ?_
    rw [← hc, hblank, hsplit]
    simp only [List.append_assoc]
  obtain ⟨x, xs, hx⟩ := List.exists_cons_of_ne_nil hne
  obtain rfl : d = x := by
    rw [hx] at hsplit
    exact (List.cons.inj hsplit).1
  rw [hfront, hx, List.append_assoc, List.cons_append] at hc'
  obtain ⟨hskip', hoffset'⟩ := Cursor.skipBlanks_of_append hc' hblanks hd
  rw [← List.cons_append, ← hx] at hskip'
  refine ⟨?_, ?_, ?_, fun ho => ?_⟩
  · rw [hskip']
    exact first?_again hne (hsplit ▸ hf) (by simp [hlength]) hrest'
  · rw [hskip', hskip, List.append_assoc, ← hlength, List.take_left, hlength]
  · rw [Cursor.rest_advance, hskip', List.append_assoc, ← hlength, List.drop_left]
  · rw [hoffset', hoffset, ho]

/-- **The tokens of a beginning of a text are found again** where the text goes on in another way
behind it. At the same offset they are the same tokens. -/
theorem exists_leads_again {c₁ : Cursor} {front : List Char}
    (h : calculatorRecognizer.Leads c ts c₁) (hc : c.rest = front ++ c₁.rest)
    (hrest' : BeginsApart rest') (hc' : c'.rest = front ++ rest') :
    ∃ ts' c₁', calculatorRecognizer.Leads c' ts' c₁' ∧ c₁'.rest = rest' ∧
      ts'.map Token.terminal? = ts.map Token.terminal? ∧
      (c'.offset = c.offset → ts' = ts ∧ c₁'.offset = c₁.offset) := by
  induction h generalizing c' front with
  | refl c =>
    obtain rfl : front = [] := List.self_eq_append_left.mp hc
    exact ⟨[], c', .refl c', hc', rfl, fun ho => ⟨rfl, ho⟩⟩
  | @step c c₁ symbol n ts hs hf h ih =>
    obtain ⟨q, hq⟩ := h.rest_suffix
    obtain ⟨hf', htake, hq', hskipped⟩ :=
      first?_skipBlanks_again hs hf hc hq.symm hrest' hc'
    obtain ⟨ts', c₁', hleads, hrest₁, hts, hsame⟩ := ih hq.symm hq'
    have hne' : c'.skipBlanks.rest ≠ [] := by
      intro hnil
      rw [hnil] at hf'
      have hle : n ≤ 0 := le_length_of_first? hf'
      exact absurd (isProgressive_calculatorRecognizer.pos _ _ _ _ hf') (Nat.not_lt.mpr hle)
    refine ⟨_ :: ts', c₁', .step hne' hf' hleads, hrest₁, ?_, fun ho => ?_⟩
    · rw [List.map_cons, List.map_cons, hts]
      congr 1
      exact terminal?_congr rfl (congrArg String.ofList htake)
    · obtain ⟨rfl, hoffset₁⟩ := hsame (by
        rw [Cursor.offset_advance, Cursor.offset_advance, hskipped ho, htake])
      rw [tokenAt_congr (hskipped ho) htake, ho]
      exact ⟨rfl, hoffset₁⟩

/-- **The terminals of a text are found again in front of a closing parenthesis.** -/
theorem exists_leads_before_closing {c₁ : Cursor} (h : calculatorRecognizer.Leads c ts c₁)
    (hends : c₁.skipBlanks.rest = []) (hc' : c'.rest = c.rest ++ ')' :: rest) :
    ∃ ts' c'', calculatorRecognizer.Leads c' ts' c'' ∧
      c''.rest.dropWhile isBlank = ')' :: rest ∧
      ts'.map Token.terminal? = ts.map Token.terminal? := by
  obtain ⟨front, hfront⟩ := h.rest_suffix
  have hall : c₁.rest.takeWhile isBlank = c₁.rest := by
    have hsplit := c₁.takeWhile_append_skipBlanks
    rwa [hends, List.append_nil] at hsplit
  have hblank : ∀ x ∈ c₁.rest, isBlank x = true := by
    rw [← hall]
    exact List.all_eq_true.mp List.all_takeWhile
  have hparts : BeginsApart (c₁.rest ++ ')' :: rest) := by
    intro w hw
    cases hblanks : c₁.rest with
    | nil =>
      rw [hblanks] at hw
      cases hw
      exact setsApart_closing
    | cons d ds =>
      rw [hblanks] at hw
      cases hw
      exact setsApart_of_isBlank (hblank w (by simp [hblanks]))
  rw [← hfront, List.append_assoc] at hc'
  obtain ⟨ts', c'', hleads, hrest, hts, -⟩ := exists_leads_again h hfront.symm hparts hc'
  refine ⟨ts', c'', hleads, ?_, hts⟩
  rw [hrest, List.dropWhile_append, ← Cursor.rest_skipBlanks, hends]
  rfl

/-! ## Parentheses -/

/-- A scan that gets to the end of the text ends where nothing but blanks is left. -/
theorem Terminals.skipBlanks_eq {scan : Scan} {xs : List Terminal} (h : Terminals scan xs)
    (he : calculatorRecognizer.EndsAt c scan.ending) : c.skipBlanks.rest = [] := by
  have hending := h.ending
  generalize scan.ending = ending at he hending
  cases he with
  | endless hs => exact hs
  | unrecognized _ _ => cases hending

/-- A text in parentheses has its own terminals between two more. -/
theorem exists_leads_group {input : String} {xs : List Terminal}
    (h : Terminals (calculatorRecognizer.scan input) xs)
    (hc : c.rest.dropWhile isBlank = '(' :: (input.toList ++ ')' :: rest)) :
    ∃ ts c', calculatorRecognizer.Leads c ts c' ∧ c'.rest = rest ∧
      ts.map Token.terminal? = (Terminal.opening :: xs ++ [Terminal.closing]).map some := by
  obtain ⟨t, c₁, hopening, hrest₁, ht, -⟩ := exists_leads_terminal (x := .opening) hc trivial
  obtain ⟨c₀, hleads, hends⟩ :=
    Recognizer.exists_leads_scan isProgressive_calculatorRecognizer input
  obtain ⟨ts, c₂, htext, hclosing, hts⟩ :=
    exists_leads_before_closing hleads (h.skipBlanks_eq hends) hrest₁
  obtain ⟨t', c₃, hlast, hrest₃, ht', -⟩ :=
    exists_leads_terminal (x := .closing) hclosing trivial
  refine ⟨[t] ++ (ts ++ [t']), c₃, hopening.trans (htext.trans hlast), hrest₃, ?_⟩
  have htokens : ts.map Token.terminal? = xs.map some := hts.trans h.tokens
  simp [ht, ht', htokens]

/-- A scan that is led to the end has the terminals that it was led along. -/
theorem terminals_of_leads {xs : List Terminal} {input : String}
    (h : calculatorRecognizer.Leads ⟨none, input.toList, 0⟩ ts c') (hc' : c'.rest = [])
    (hts : ts.map Token.terminal? = xs.map some) :
    Terminals (calculatorRecognizer.scan input) xs ∧
      (calculatorRecognizer.scan input).tokens = ts := by
  have hblank : c'.skipBlanks.rest = [] := by
    rw [Cursor.rest_skipBlanks, hc']
    rfl
  rw [h.scan_eq isProgressive_calculatorRecognizer (.endless hblank)]
  exact ⟨⟨hts, rfl⟩, rfl⟩

end Calculator

end Precedence
