import Precedence.Proofs.Parsing.Places

/-!
# Texts and their tokens

To recognize again and again, each time behind the token before, comes to an end and cuts a text
into its tokens, the blanks in front of them, and a rest that has no token.

* `runs_iff_scan`: to recognize again and again comes to an end, and finds what a scan finds.
* `Leads.tiles`: the tokens and the blanks in front of them are all of the text that is behind them.
* `Tiles.ordered`, `Tiles.stop_eq`, `Tiles.consumedBy_eq`: such tokens come one behind the other, and
  what they consume adds up to where they stop.
* `exists_isPartition_scan`: so a scan partitions a text.
-/

namespace Precedence

open Precedence.Source Precedence.Text

namespace Cursor

/-- The place in a text between its front and the rest. -/
def between (front rest : List Char) : Cursor :=
  ⟨front.getLast?, rest, byteLength front⟩

theorem advance_between (front text : List Char) (n : Nat) :
    (between front text).advance n = between (front ++ text.take n) (text.drop n) := by
  induction n generalizing front text with
  | zero => simp [advance]
  | succ n ih =>
    cases text with
    | nil => simp [advance, between]
    | cons x rest =>
      have hplace : between (front ++ [x]) rest =
          ⟨some x, rest, byteLength front + x.utf8Size⟩ := by
        simp [between, byteLength_append]
      have hstep := ih (front ++ [x]) rest
      rw [hplace, List.append_assoc] at hstep
      exact hstep

/-- To skip blanks is to go on to the first other character. -/
theorem skipBlanks_between (front text : List Char) :
    (between front text).skipBlanks =
      between (front ++ text.takeWhile isBlank) (text.dropWhile isBlank) := by
  have hdrop : text.drop (blankCount text) = text.dropWhile isBlank := by
    have hrest := rest_skipBlanks (between front text)
    rw [skipBlanks, rest_advance] at hrest
    exact hrest
  have htake : text.take (blankCount text) = text.takeWhile isBlank := by
    have hsplit := List.take_append_drop (blankCount text) text
    rw [hdrop] at hsplit
    exact List.append_cancel_right (hsplit.trans List.takeWhile_append_dropWhile.symm)
  unfold skipBlanks
  rw [advance_between]
  show between (front ++ text.take (blankCount text)) (text.drop (blankCount text)) = _
  rw [htake, hdrop]

/-- Blanks are skipped up to the first other character. -/
theorem skipBlanks_between_append {blanks behind : List Char} {d : Char} (front : List Char)
    (hblanks : ∀ x ∈ blanks, isBlank x = true) (hd : isBlank d = false) :
    (between front (blanks ++ d :: behind)).skipBlanks =
      between (front ++ blanks) (d :: behind) := by
  rw [skipBlanks_between, List.takeWhile_append_of_pos hblanks,
    List.dropWhile_append_of_pos hblanks]
  simp [hd]

/-- Where only blanks are left all of them are skipped. -/
theorem takeWhile_eq_of_skipBlanks {c : Cursor} (h : c.skipBlanks.rest = []) :
    c.rest.takeWhile isBlank = c.rest := by
  have hsplit := c.takeWhile_append_skipBlanks
  rwa [h, List.append_nil] at hsplit

end Cursor

/-! ## Tokens that make up a text -/

/-- The token that takes a part of a text, with blanks in front of it from an offset on. -/
def Token.taking (symbol offset : Nat) (blanks part : List Char) : Token where
  symbol := symbol
  text := String.ofList part
  span := ⟨offset + byteLength blanks, offset + byteLength (blanks ++ part)⟩
  consumed := byteLength (blanks ++ part)

/-- The token for the end is at the end of a text, behind all blanks. -/
theorem Token.taking_nil (front blanks : List Char) :
    taking 0 (byteLength front) blanks [] =
      ⟨0, "", .point (byteLength (front ++ blanks)), byteLength blanks⟩ := by
  unfold taking Span.point
  rw [List.append_nil, byteLength_append]

/-- A text from an offset on is made of tokens that are not empty, with nothing but blanks in front
of each of them. -/
inductive Tiles : Nat → List Token → List Char → Prop
  | nil (offset : Nat) : Tiles offset [] []
  | cons {offset symbol : Nat} {blanks part rest : List Char} {ts : List Token}
    (hblanks : ∀ x ∈ blanks, isBlank x = true) (hne : part ≠ [])
    (h : Tiles (offset + byteLength (blanks ++ part)) ts rest) :
    Tiles offset (.taking symbol offset blanks part :: ts) (blanks ++ part ++ rest)

/-- The number of bytes that tokens consume together. -/
def consumedBy (ts : List Token) : Nat :=
  ts.foldr (fun t n => t.consumed + n) 0

theorem consumedBy_cons (t : Token) (ts : List Token) :
    consumedBy (t :: ts) = t.consumed + consumedBy ts := rfl

namespace Tiles

variable {offset : Nat} {t : Token} {ts us : List Token} {text : List Char}

/-- **What tokens consume adds up to the length of the text.** -/
theorem consumedBy_eq (h : Tiles offset ts text) : consumedBy ts = byteLength text := by
  induction h with
  | nil offset => rfl
  | cons _ _ _ ih =>
    rw [consumedBy_cons, ih, byteLength_append (_ ++ _)]
    rfl

/-- **What tokens consume adds up to where the last one stops.** -/
theorem stop_eq (h : Tiles offset (us ++ t :: ts) text) :
    t.span.stop = offset + consumedBy (us ++ [t]) := by
  induction us generalizing offset text with
  | nil =>
    cases h
    rfl
  | cons u us ih =>
    obtain _ | ⟨-, -, h⟩ := h
    rw [ih h, List.cons_append, consumedBy_cons, ← Nat.add_assoc]
    rfl

theorem text_ne_empty (h : Tiles offset ts text) (ht : t ∈ ts) : t.text ≠ "" := by
  induction h with
  | nil offset => exact absurd ht List.not_mem_nil
  | cons _ hne _ ih =>
    rcases List.mem_cons.mp ht with rfl | ht
    · exact fun hempty => hne (String.ofList_eq_empty_iff.mp hempty)
    · exact ih ht

theorem le_start (h : Tiles offset ts text) (ht : t ∈ ts) : offset ≤ t.span.start := by
  induction h with
  | nil offset => exact absurd ht List.not_mem_nil
  | cons _ _ _ ih =>
    rcases List.mem_cons.mp ht with rfl | ht
    · exact Nat.le_add_right _ _
    · exact Nat.le_trans (Nat.le_add_right _ _) (ih ht)

/-- **Tokens come one behind the other.** -/
theorem ordered (h : Tiles offset ts text) :
    ts.Pairwise fun a b => a.span.stop ≤ b.span.start := by
  induction h with
  | nil offset => exact .nil
  | cons _ _ h ih => exact .cons (fun b hb => h.le_start hb) ih

end Tiles

/-- What comes behind the front of a text where there is no token left: the token for the end if
all that is left is blank, or else the text from the first other character on, where recognition
fails. -/
inductive StopsAt (fails : Option Char → List Char → Prop) (front : List Char) :
    List Char → Ending → Prop
  | blank {rest : List Char} (h : ∀ x ∈ rest, isBlank x = true) :
    StopsAt fails front rest
      (.endless ⟨0, "", .point (byteLength (front ++ rest)), byteLength rest⟩)
  | unrecognized {blanks behind : List Char} {d : Char}
    (hblanks : ∀ x ∈ blanks, isBlank x = true) (hd : isBlank d = false)
    (hfails : fails (front ++ blanks).getLast? (d :: behind)) :
    StopsAt fails front (blanks ++ d :: behind)
      (.unrecognized
        ⟨byteLength (front ++ blanks), byteLength (front ++ (blanks ++ d :: behind))⟩)

/-- The token for the end comes exactly where all that is left is blank. -/
theorem StopsAt.isEndless_iff {fails : Option Char → List Char → Prop} {front rest : List Char}
    {ending : Ending} (h : StopsAt fails front rest ending) :
    (∃ t, ending = .endless t) ↔ ∀ x ∈ rest, isBlank x = true := by
  cases h with
  | blank h => exact ⟨fun _ => h, fun _ => ⟨_, rfl⟩⟩
  | @unrecognized blanks behind d _ hd _ =>
    constructor
    · rintro ⟨t, ht⟩
      cases ht
    · intro hall
      have hblank := hall d (List.mem_append_right blanks List.mem_cons_self)
      cases hd.symm.trans hblank

/-- The tokens of a text and what comes behind them: the first part of the text is made of the
tokens, and there are none in the rest. -/
structure IsPartition (fails : Option Char → List Char → Prop) (text : List Char)
    (tokens : List Token) (ending : Ending) (covered rest : List Char) : Prop where
  text_eq : text = covered ++ rest
  tiles : Tiles 0 tokens covered
  /-- Every token is a part of the text between two boundaries of characters. -/
  parts : ∀ t ∈ tokens, t.text ≠ "" ∧ t.span.Cuts text t.text.toList
  ordered : tokens.Pairwise fun a b => a.span.stop ≤ b.span.start
  /-- What is consumed up to a token adds up to where it stops. -/
  reached : ∀ us t vs, tokens = us ++ t :: vs → consumedBy (us ++ [t]) = t.span.stop
  consumed : consumedBy tokens = byteLength covered
  stops : StopsAt fails covered rest ending

/-! ## To recognize again and again -/

namespace Recognizer

variable {r : Recognizer} {c c' : Cursor} {ts us : List Token} {ending : Ending}
variable {front text : List Char}

/-- To recognize again and again from a place on, each time behind the token before, finds the
tokens and then the token for the end, or a text that is not recognized. -/
inductive Runs (r : Recognizer) : Cursor → List Token → Ending → Prop
  | token {c c' : Cursor} {t : Token} {ts : List Token} {ending : Ending}
    (hn : r.next c = .ok (t, c')) (ht : t.isEnd = false) (h : Runs r c' ts ending) :
    Runs r c (t :: ts) ending
  | last {c c' : Cursor} {t : Token} (hn : r.next c = .ok (t, c')) (ht : t.isEnd = true) :
    Runs r c [] (.endless t)
  | unrecognized {c : Cursor} {span : Span} (hn : r.next c = .error span) :
    Runs r c [] (.unrecognized span)

/-- There is at most one way to go on. -/
theorem Runs.unique {ending' : Ending} (h : r.Runs c ts ending) (h' : r.Runs c us ending') :
    ts = us ∧ ending = ending' := by
  induction h generalizing us with
  | token hn ht _ ih =>
    obtain ⟨hn', ht', h'⟩ | ⟨hn', ht'⟩ | hn' := h'
    · cases hn.symm.trans hn'
      obtain ⟨rfl, rfl⟩ := ih h'
      exact ⟨rfl, rfl⟩
    · cases hn.symm.trans hn'
      cases ht.symm.trans ht'
    · cases hn.symm.trans hn'
  | last hn ht =>
    obtain ⟨hn', ht', -⟩ | ⟨hn', -⟩ | hn' := h'
    · cases hn.symm.trans hn'
      cases ht.symm.trans ht'
    · cases hn.symm.trans hn'
      exact ⟨rfl, rfl⟩
    · cases hn.symm.trans hn'
  | unrecognized hn =>
    obtain ⟨hn', -, -⟩ | ⟨hn', -⟩ | hn' := h'
    · cases hn.symm.trans hn'
    · cases hn.symm.trans hn'
    · cases hn.symm.trans hn'
      exact ⟨rfl, rfl⟩

theorem EndsAt.runs (h : r.EndsAt c ending) : r.Runs c [] ending := by
  cases h with
  | endless hs => exact .last (next_of_blank hs) rfl
  | unrecognized hs hf => exact .unrecognized (next_of_first?_eq_none hs hf)

/-- Where a scan is led the tokens are found one after the other. -/
theorem Leads.runs (hr : r.IsProgressive) (h : r.Leads c ts c') (he : r.EndsAt c' ending) :
    r.Runs c ts ending := by
  induction h with
  | refl c => exact he.runs
  | step hs hf _ ih =>
    obtain ⟨rule, hmem, -⟩ := exists_rule_of_first? hf
    exact .token (next_of_first? hs hf) (by simpa [Token.isEnd, tokenAt] using hr.ne_end _ hmem)
      (ih he)

/-- **To recognize again and again comes to an end,** and finds what a scan finds. -/
theorem runs_iff_scan (hr : r.IsProgressive) (input : String) :
    r.Runs ⟨none, input.toList, 0⟩ ts ending ↔ r.scan input = ⟨ts, ending⟩ := by
  obtain ⟨c', hleads, hends⟩ := exists_leads_scan hr input
  have hruns := hleads.runs hr hends
  constructor
  · intro h
    obtain ⟨hts, hending⟩ := hruns.unique h
    rw [← hts, ← hending]
  · intro h
    rwa [h] at hruns

/-- The token that begins behind the blanks at a place. -/
theorem tokenAt_between (front text : List Char) (symbol n : Nat) :
    tokenAt (Cursor.between front text).skipBlanks symbol n (Cursor.between front text).offset =
      .taking symbol (byteLength front) (text.takeWhile isBlank)
        ((text.dropWhile isBlank).take n) := by
  unfold tokenAt Token.taking
  rw [Cursor.skipBlanks_between, Cursor.advance_between]
  simp only [Cursor.between, byteLength_append, Nat.add_assoc, Nat.add_sub_cancel_left]

/-- **The tokens and the blanks in front of them are all of the text** that is behind them. -/
theorem Leads.tiles (hr : r.IsProgressive) (h : r.Leads (.between front text) ts c') :
    ∃ covered rest, text = covered ++ rest ∧ c' = .between (front ++ covered) rest ∧
      Tiles (byteLength front) ts covered := by
  generalize hc : Cursor.between front text = c at h
  induction h generalizing front text with
  | refl c => exact ⟨[], text, rfl, by rw [List.append_nil, hc], .nil _⟩
  | @step c c' symbol n ts hs hf h ih =>
    subst hc
    have hbehind : (Cursor.between front text).skipBlanks.advance n =
        .between (front ++ (text.takeWhile isBlank ++ (text.dropWhile isBlank).take n))
          ((text.dropWhile isBlank).drop n) := by
      rw [Cursor.skipBlanks_between, Cursor.advance_between, List.append_assoc]
    have hpart : (text.dropWhile isBlank).take n ≠ [] := by
      rw [Cursor.rest_skipBlanks] at hs
      intro hnil
      rcases List.take_eq_nil_iff.mp hnil with rfl | hnil
      · exact absurd (hr.pos _ _ _ _ hf) (Nat.lt_irrefl 0)
      · exact hs hnil
    obtain ⟨covered, rest, hsplit, hc', htiles⟩ := ih hbehind.symm
    rw [byteLength_append front] at htiles
    rw [tokenAt_between]
    refine ⟨_, rest, ?_, ?_, .cons (List.all_eq_true.mp List.all_takeWhile) hpart htiles⟩
    · rw [List.append_assoc, List.append_assoc, ← hsplit, List.take_append_drop,
        List.takeWhile_append_dropWhile]
    · rw [hc', List.append_assoc]

/-- **Where a scan ends** only blanks are left, or something else that no pattern matches. -/
theorem EndsAt.stopsAt (h : r.EndsAt (.between front text) ending) :
    StopsAt (fun before text => r.first? before text = none) front text ending := by
  generalize hc : Cursor.between front text = c at h
  cases h with
  | endless hs =>
    subst hc
    have hblanks : text.takeWhile isBlank = text := Cursor.takeWhile_eq_of_skipBlanks hs
    have hall : ∀ x ∈ text, isBlank x = true := by
      rw [← hblanks]
      exact List.all_eq_true.mp List.all_takeWhile
    rw [tokenAt_between, hblanks, List.take_zero, Token.taking_nil]
    exact .blank hall
  | unrecognized hs hf =>
    subst hc
    obtain ⟨blanks, d, behind, htext, hblanks, hd, -⟩ := Cursor.exists_blanks hs
    obtain rfl : text = blanks ++ d :: behind := htext
    have hstop : byteLength (front ++ blanks) + byteLength (d :: behind) =
        byteLength (front ++ (blanks ++ d :: behind)) := by
      rw [← List.append_assoc, byteLength_append (front ++ blanks)]
    rw [Cursor.skipBlanks_between_append front hblanks hd] at hf ⊢
    simp only [Cursor.between, hstop] at hf ⊢
    exact .unrecognized hblanks hd hf

/-- **A scan partitions a text.** -/
theorem exists_isPartition_scan (hr : r.IsProgressive) (input : String) :
    ∃ covered rest, IsPartition (fun before text => r.first? before text = none) input.toList
      (r.scan input).tokens (r.scan input).ending covered rest := by
  obtain ⟨c', hleads, hends⟩ := exists_leads_scan hr input
  have hstart : r.Leads (.between [] input.toList) (r.scan input).tokens c' := hleads
  obtain ⟨covered, rest, htext, rfl, htiles⟩ := hstart.tiles hr
  refine ⟨covered, rest, htext, htiles,
    fun t ht => ⟨htiles.text_ne_empty ht, (cuts_of_mem_scan hr ht).2⟩, htiles.ordered,
    fun us t vs hts => ?_, htiles.consumedBy_eq, hends.stopsAt⟩
  rw [hts] at htiles
  rw [htiles.stop_eq, byteLength_nil, Nat.zero_add]

end Recognizer

end Precedence
