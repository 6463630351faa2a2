import Precedence.Grammar.Scan
import Precedence.Proofs.Parsing.Recognizers
import Precedence.Proofs.Parsing.Termination

/-!
# Scans

What holds of the tokens of a scan and of its end, for recognizers that take a character with every
match and have no pattern for the end of the text. `scanFrom_of_first?` is one step of such a scan,
and `Leads` any number of them: it leads from one place to another along the tokens between them.

* `exists_leads_scan`, `Leads.scan_eq`: a scan finds the tokens along which it is led from the
  beginning of the text to where it ends.
-/

namespace Precedence

open Precedence.Source Precedence.Text

namespace Cursor

theorem rest_advance (c : Cursor) (n : Nat) : (c.advance n).rest = c.rest.drop n := by
  induction n generalizing c with
  | zero => rfl
  | succ n ih =>
    unfold advance
    cases h : c.rest with
    | nil => simp [h]
    | cons x rest => simp [ih]

theorem offset_advance (c : Cursor) (n : Nat) :
    (c.advance n).offset = c.offset + byteLength (c.rest.take n) := by
  induction n generalizing c with
  | zero => simp [advance]
  | succ n ih =>
    unfold advance
    cases h : c.rest with
    | nil => simp
    | cons x rest => simp [ih, Nat.add_assoc]

/-- The end of the text stays where it is. -/
theorem offset_add_byteLength_advance (c : Cursor) (n : Nat) :
    (c.advance n).offset + byteLength (c.advance n).rest = c.offset + byteLength c.rest := by
  have hsplit := byteLength_append (c.rest.take n) (c.rest.drop n)
  rw [List.take_append_drop] at hsplit
  rw [offset_advance, rest_advance]
  omega

theorem rest_skipBlanks (c : Cursor) : c.skipBlanks.rest = c.rest.dropWhile isBlank := by
  rw [skipBlanks, rest_advance]
  induction c.rest with
  | nil => rfl
  | cons x rest ih =>
    by_cases hx : isBlank x = true
    · rw [blankCount, if_pos hx, List.drop_succ_cons, ih, List.dropWhile_cons_of_pos hx]
    · rw [blankCount, if_neg hx, List.dropWhile_cons_of_neg hx]
      rfl

theorem takeWhile_append_skipBlanks (c : Cursor) :
    c.rest.takeWhile isBlank ++ c.skipBlanks.rest = c.rest := by
  rw [rest_skipBlanks, List.takeWhile_append_dropWhile]

/-- A place with something else than blanks behind it. -/
theorem exists_blanks {c : Cursor} (h : c.skipBlanks.rest ≠ []) :
    ∃ blanks d rest, c.rest = blanks ++ d :: rest ∧ (∀ x ∈ blanks, isBlank x = true) ∧
      isBlank d = false ∧ c.skipBlanks.rest = d :: rest := by
  obtain ⟨d, rest, hd⟩ := List.exists_cons_of_ne_nil h
  refine ⟨c.rest.takeWhile isBlank, d, rest, ?_, List.all_eq_true.mp List.all_takeWhile, ?_, hd⟩
  · rw [← hd, c.takeWhile_append_skipBlanks]
  · rw [rest_skipBlanks] at h hd
    have hnot := List.head_dropWhile_not isBlank h
    simpa [hd] using hnot

/-- Blanks are skipped up to the first other character. -/
theorem skipBlanks_of_append {c : Cursor} {blanks rest : List Char} {d : Char}
    (h : c.rest = blanks ++ d :: rest) (hb : ∀ x ∈ blanks, isBlank x = true)
    (hd : isBlank d = false) :
    c.skipBlanks.rest = d :: rest ∧ c.skipBlanks.offset = c.offset + byteLength blanks := by
  have hcount : ∀ blanks : List Char, (∀ x ∈ blanks, isBlank x = true) →
      blankCount (blanks ++ d :: rest) = blanks.length := by
    intro blanks hb
    induction blanks with
    | nil => simp [blankCount, hd]
    | cons x blanks ih =>
      rw [List.cons_append, blankCount, if_pos (hb x List.mem_cons_self),
        ih fun y hy => hb y (List.mem_cons_of_mem x hy), List.length_cons]
  rw [skipBlanks, h, hcount blanks hb, rest_advance, offset_advance, h, List.drop_left,
    List.take_left]
  exact ⟨rfl, rfl⟩

theorem byteLength_pos {text : List Char} (h : text ≠ []) : 0 < byteLength text := by
  cases text with
  | nil => exact absurd rfl h
  | cons x rest =>
    rw [byteLength_cons]
    exact Nat.add_pos_left (Char.utf8Size_pos x) _

end Cursor

namespace Recognizer

/-- No rule of the recognizer is for the end of the text, and every match takes a character. -/
structure IsProgressive (r : Recognizer) : Prop where
  ne_end : ∀ rule ∈ r.rules, rule.1 ≠ 0
  pos : ∀ before text symbol n, r.first? before text = some (symbol, n) → 0 < n

variable {r : Recognizer} {steps : Nat} {c : Cursor}

/-- A match takes some of the text. -/
theorem isEmpty_span_tokenAt {start : Cursor} {symbol n consumed : Nat} (hn : 0 < n)
    (hs : start.rest ≠ []) : (tokenAt start symbol n consumed).span.isEmpty = false := by
  have hlt : start.offset < (start.advance n).offset := by
    rw [Cursor.offset_advance]
    refine Nat.lt_add_of_pos_right (Cursor.byteLength_pos ?_)
    intro h
    rcases List.take_eq_nil_iff.mp h with rfl | h
    · exact absurd hn (Nat.lt_irrefl 0)
    · exact hs h
  exact decide_eq_false (Nat.not_le.mpr hlt)

/-- Where nothing but blanks is left the token for the end is next. -/
theorem next_of_blank (h : c.skipBlanks.rest = []) :
    r.next c = .ok (tokenAt c.skipBlanks 0 0 c.offset, c.skipBlanks) := by
  simp [next, h]

/-- What is found first behind the blanks is next. -/
theorem next_of_first? {symbol n : Nat} (h : c.skipBlanks.rest ≠ [])
    (hf : r.first? c.skipBlanks.before c.skipBlanks.rest = some (symbol, n)) :
    r.next c = .ok (tokenAt c.skipBlanks symbol n c.offset, c.skipBlanks.advance n) := by
  simp [next, h, hf]

/-- Where no pattern matches nothing is next. -/
theorem next_of_first?_eq_none (h : c.skipBlanks.rest ≠ [])
    (hf : r.first? c.skipBlanks.before c.skipBlanks.rest = none) :
    r.next c = .error ⟨c.skipBlanks.offset,
      c.skipBlanks.offset + byteLength c.skipBlanks.rest⟩ := by
  simp [next, h, hf]

/-- Where nothing but blanks is left a scan ends with the token for the end. -/
theorem scanFrom_of_blank (h : c.skipBlanks.rest = []) :
    r.scanFrom (steps + 1) c = ⟨[], .endless (tokenAt c.skipBlanks 0 0 c.offset)⟩ := by
  rw [scanFrom, next_of_blank h]
  simp [tokenAt, Span.isEmpty, Cursor.advance]

/-- One step of a scan. -/
theorem scanFrom_of_first? (hr : r.IsProgressive) {symbol n : Nat} (h : c.skipBlanks.rest ≠ [])
    (hf : r.first? c.skipBlanks.before c.skipBlanks.rest = some (symbol, n)) :
    r.scanFrom (steps + 1) c =
      ⟨tokenAt c.skipBlanks symbol n c.offset ::
          (r.scanFrom steps (c.skipBlanks.advance n)).tokens,
        (r.scanFrom steps (c.skipBlanks.advance n)).ending⟩ := by
  rw [scanFrom, next_of_first? h hf]
  simp [isEmpty_span_tokenAt (hr.pos _ _ _ _ hf) h]

/-- A scan stops where no pattern matches. -/
theorem scanFrom_of_first?_eq_none (h : c.skipBlanks.rest ≠ [])
    (hf : r.first? c.skipBlanks.before c.skipBlanks.rest = none) :
    r.scanFrom (steps + 1) c = ⟨[], .unrecognized ⟨c.skipBlanks.offset,
      c.skipBlanks.offset + byteLength c.skipBlanks.rest⟩⟩ := by
  rw [scanFrom, next_of_first?_eq_none h hf]

/-! ## From place to place -/

/-- A scan that is at one place finds the tokens and is then at the other place. -/
inductive Leads (r : Recognizer) : Cursor → List Token → Cursor → Prop
  | refl (c : Cursor) : Leads r c [] c
  | step {c c' : Cursor} {symbol n : Nat} {ts : List Token} (hs : c.skipBlanks.rest ≠ [])
    (hf : r.first? c.skipBlanks.before c.skipBlanks.rest = some (symbol, n))
    (h : Leads r (c.skipBlanks.advance n) ts c') :
    Leads r c (tokenAt c.skipBlanks symbol n c.offset :: ts) c'

/-- What a scan finds at the place where it ends. -/
inductive EndsAt (r : Recognizer) (c : Cursor) : Ending → Prop
  | endless (hs : c.skipBlanks.rest = []) :
    EndsAt r c (.endless (tokenAt c.skipBlanks 0 0 c.offset))
  | unrecognized (hs : c.skipBlanks.rest ≠ [])
    (hf : r.first? c.skipBlanks.before c.skipBlanks.rest = none) :
    EndsAt r c (.unrecognized ⟨c.skipBlanks.offset,
      c.skipBlanks.offset + byteLength c.skipBlanks.rest⟩)

variable {c' c'' : Cursor} {ts us : List Token} {ending : Ending} {t : Token} {text : List Char}

theorem Leads.trans (h : r.Leads c ts c') (h' : r.Leads c' us c'') :
    r.Leads c (ts ++ us) c'' := by
  induction h with
  | refl c => exact h'
  | step hs hf _ ih => exact .step hs hf (ih h')

/-- Between some of the tokens and the others there is a place. -/
theorem Leads.exists_of_append (h : r.Leads c (ts ++ us) c'') :
    ∃ c', r.Leads c ts c' ∧ r.Leads c' us c'' := by
  induction ts generalizing c with
  | nil => exact ⟨c, .refl c, h⟩
  | cons t ts ih =>
    cases h with
    | step hs hf h =>
      obtain ⟨c', hts, hus⟩ := ih h
      exact ⟨c', .step hs hf hts, hus⟩

theorem offset_add_skipBlanks_advance (c : Cursor) (n : Nat) :
    (c.skipBlanks.advance n).offset + byteLength (c.skipBlanks.advance n).rest =
      c.offset + byteLength c.rest := by
  rw [Cursor.offset_add_byteLength_advance, Cursor.skipBlanks,
    Cursor.offset_add_byteLength_advance]

/-- The end of the text stays where it is. -/
theorem Leads.offset (h : r.Leads c ts c') :
    c'.offset + byteLength c'.rest = c.offset + byteLength c.rest := by
  induction h with
  | refl c => rfl
  | step _ _ _ ih => rw [ih, offset_add_skipBlanks_advance]

/-- What is left behind some tokens is the last part of the text. -/
theorem Leads.rest_suffix (h : r.Leads c ts c') : c'.rest <:+ c.rest := by
  induction h with
  | refl c => exact List.suffix_refl _
  | step _ _ _ ih =>
    rw [Cursor.rest_advance, Cursor.rest_skipBlanks] at ih
    exact ih.trans ((List.drop_suffix _ _).trans (List.dropWhile_suffix _))

/-- Every token takes a character. -/
theorem Leads.length_le (hr : r.IsProgressive) (h : r.Leads c ts c') :
    ts.length + c'.rest.length ≤ c.rest.length := by
  induction h with
  | refl c => simp
  | @step c c' symbol n ts hs hf _ ih =>
    have hn := hr.pos _ _ _ _ hf
    have hpos := List.length_pos_iff.mpr hs
    have hblanks : c.skipBlanks.rest.length ≤ c.rest.length := by
      rw [Cursor.rest_skipBlanks]
      exact (List.dropWhile_sublist _).length_le
    rw [Cursor.rest_advance, List.length_drop] at ih
    rw [List.length_cons]
    omega

/-- A scan is where it is led to after as many steps as there are tokens. -/
theorem Leads.scanFrom (hr : r.IsProgressive) (h : r.Leads c ts c') (steps : Nat) :
    r.scanFrom (steps + ts.length) c =
      ⟨ts ++ (r.scanFrom steps c').tokens, (r.scanFrom steps c').ending⟩ := by
  induction h with
  | refl c => rfl
  | step hs hf _ ih =>
    rw [List.length_cons, ← Nat.add_assoc, scanFrom_of_first? hr hs hf, ih]
    rfl

theorem EndsAt.scanFrom (h : r.EndsAt c ending) (steps : Nat) :
    r.scanFrom (steps + 1) c = ⟨[], ending⟩ := by
  cases h with
  | endless hs => exact scanFrom_of_blank hs
  | unrecognized hs hf => exact scanFrom_of_first?_eq_none hs hf

/-- A scan leads to the place where it ends. -/
theorem exists_leads_scanFrom (hr : r.IsProgressive) (h : c.rest.length < steps) :
    ∃ c', r.Leads c (r.scanFrom steps c).tokens c' ∧ r.EndsAt c' (r.scanFrom steps c).ending := by
  induction steps generalizing c with
  | zero => exact absurd h (Nat.not_lt_zero _)
  | succ steps ih =>
    by_cases hs : c.skipBlanks.rest = []
    · rw [scanFrom_of_blank hs]
      exact ⟨c, .refl c, .endless hs⟩
    cases hf : r.first? c.skipBlanks.before c.skipBlanks.rest with
    | none =>
      rw [scanFrom_of_first?_eq_none hs hf]
      exact ⟨c, .refl c, .unrecognized hs hf⟩
    | some m =>
      obtain ⟨symbol, n⟩ := m
      have hlength := (Leads.step hs hf (.refl _)).length_le hr
      rw [List.length_singleton] at hlength
      obtain ⟨c', hleads, hends⟩ := ih (c := c.skipBlanks.advance n) (by omega)
      rw [scanFrom_of_first? hr hs hf]
      exact ⟨c', .step hs hf hleads, hends⟩

/-- **A scan leads from the beginning of the text to where it ends.** -/
theorem exists_leads_scan (hr : r.IsProgressive) (text : String) :
    ∃ c', r.Leads ⟨none, text.toList, 0⟩ (r.scan text).tokens c' ∧
      r.EndsAt c' (r.scan text).ending :=
  exists_leads_scanFrom hr (Nat.lt_succ_self _)

/-- A scan finds what it is led along. -/
theorem Leads.scan_eq (hr : r.IsProgressive) {text : String}
    (h : r.Leads ⟨none, text.toList, 0⟩ ts c') (he : r.EndsAt c' ending) :
    r.scan text = ⟨ts, ending⟩ := by
  have hlength : ts.length + c'.rest.length ≤ text.toList.length := h.length_le hr
  obtain ⟨steps, hsteps⟩ : ∃ steps, text.toList.length + 1 = steps + 1 + ts.length :=
    ⟨text.toList.length - ts.length, by omega⟩
  rw [Recognizer.scan, hsteps, h.scanFrom hr, he.scanFrom, List.append_nil]

/-- What a scan is led along from the beginning of the text comes first among its tokens. -/
theorem Leads.exists_tokens (hr : r.IsProgressive) {text : String}
    (h : r.Leads ⟨none, text.toList, 0⟩ ts c') : ∃ us, (r.scan text).tokens = ts ++ us := by
  obtain ⟨c'', hrest, hends⟩ := exists_leads_scanFrom hr (Nat.lt_succ_self c'.rest.length)
  rw [(h.trans hrest).scan_eq hr hends]
  exact ⟨_, rfl⟩

/-! ## Tokens -/

/-- Every token is what the first pattern that matches takes from a text. -/
theorem Leads.exists_first? (h : r.Leads c ts c') (ht : t ∈ ts) :
    ∃ before text n, r.first? before text = some (t.symbol, n) ∧
      t.text = String.ofList (text.take n) := by
  induction h with
  | refl c => exact absurd ht List.not_mem_nil
  | step hs hf _ ih =>
    rcases List.mem_cons.mp ht with rfl | ht
    · exact ⟨_, _, _, hf, rfl⟩
    · exact ih ht

/-- Every token of a scan is what a rule for its symbol takes from a text. -/
theorem exists_rule_of_mem_scan (hr : r.IsProgressive) {text : String}
    (h : t ∈ (r.scan text).tokens) :
    ∃ rule before chars n, (t.symbol, rule) ∈ r.rules ∧ rule.matchLength? before chars = some n ∧
      t.text = String.ofList (chars.take n) := by
  obtain ⟨c', hleads, -⟩ := exists_leads_scan hr text
  obtain ⟨before, chars, n, hf, ht⟩ := hleads.exists_first? h
  obtain ⟨rule, hmem, hn⟩ := exists_rule_of_first? hf
  exact ⟨rule, before, chars, n, hmem, hn, ht⟩

/-- No token in front of the end of a scan is of the symbol for the end. -/
theorem symbol_ne_of_mem_scan (hr : r.IsProgressive) {text : String}
    (h : t ∈ (r.scan text).tokens) : t.symbol ≠ 0 := by
  obtain ⟨rule, _, _, _, hmem, -⟩ := exists_rule_of_mem_scan hr h
  exact hr.ne_end (t.symbol, rule) hmem

/-- Only the end of the text, which is empty, is found any number of times. -/
theorem of_endless_scan (hr : r.IsProgressive) {text : String}
    (h : (r.scan text).ending = .endless t) : t.symbol = 0 ∧ t.text = "" := by
  obtain ⟨c', -, hends⟩ := exists_leads_scan hr text
  rw [h] at hends
  cases hends
  exact ⟨rfl, rfl⟩

theorem symbol_eq_of_scan (hr : r.IsProgressive) {text : String} {symbol : Nat}
    (h : (r.scan text).ending.symbol? = some symbol) : symbol = 0 := by
  cases hending : (r.scan text).ending with
  | endless t =>
    rw [hending] at h
    rw [← Option.some.inj h, (of_endless_scan hr hending).1]
  | unrecognized span =>
    rw [hending] at h
    cases h

end Recognizer

end Precedence
