import Precedence.Proofs.Parsing.Scans

/-!
# Places in a text

A span cuts a part out of a text if it starts and stops at the ends of the part. The spans that a
scan hands out do: those of tokens, that of two tokens next to each other, and that of a text that
no pattern matches.

* `cuts_of_mem_scan`: every token cuts its own text out of the text that is scanned.
* `point_of_scan`, `cuts_of_unrecognized_scan`: the end of a scan is the end of the text, or the
  rest of it from a character on that is no blank.
-/

namespace Precedence

open Precedence.Source Precedence.Text

namespace Source

/-- The span covers the part of the text, and starts and stops at character boundaries. -/
def Span.Cuts (span : Span) (text part : List Char) : Prop :=
  ∃ front back, text = front ++ part ++ back ∧ span.start = byteLength front ∧
    span.stop = byteLength (front ++ part)

variable {span : Span} {text part : List Char}

theorem Span.Cuts.start_le_stop (h : span.Cuts text part) : span.start ≤ span.stop := by
  obtain ⟨front, back, -, hstart, hstop⟩ := h
  rw [hstart, hstop, byteLength_append]
  exact Nat.le_add_right _ _

theorem Span.Cuts.stop_le (h : span.Cuts text part) : span.stop ≤ byteLength text := by
  obtain ⟨front, back, rfl, -, hstop⟩ := h
  rw [hstop, byteLength_append (front ++ part)]
  exact Nat.le_add_right _ _

/-- The text has the part where the span says. -/
theorem Span.Cuts.slice?_eq (h : span.Cuts text part) :
    slice? text span.start span.stop = some part := by
  have hle := h.start_le_stop
  obtain ⟨front, back, rfl, hstart, hstop⟩ := h
  rw [slice?, if_pos hle, hstart, List.append_assoc, dropBytes_byteLength, Option.bind_some, hstop,
    byteLength_append, Nat.add_sub_cancel_left, takeBytes_byteLength]

/-- What stands in front of an offset does not depend on what comes behind. -/
theorem takeBytes_append {part rest : List Char} {n : Nat} (h : n ≤ byteLength part) :
    takeBytes (part ++ rest) n = takeBytes part n := by
  induction part generalizing n with
  | nil =>
    obtain rfl : n = 0 := Nat.le_zero.mp h
    rw [takeBytes_zero, takeBytes_zero]
  | cons c part ih =>
    cases n with
    | zero => rw [takeBytes_zero, takeBytes_zero]
    | succ n =>
      rw [byteLength_cons] at h
      rw [List.cons_append, takeBytes, takeBytes, ih (by omega)]

/-- An error shows the part that its span covers. -/
theorem ParseError.fragment_of_cuts {e : ParseError} (h : e.span.Cuts e.input.toList part) :
    e.fragment = String.ofList part := by
  rw [fragment, fragmentChars, h.slice?_eq, Option.getD_some]

/-- The empty span at the end of a text. -/
theorem Span.cuts_point (text : List Char) : (Span.point (byteLength text)).Cuts text [] :=
  ⟨text, [], by simp, rfl, by rw [List.append_nil]; rfl⟩

end Source

/-! ## Cursors -/

namespace Cursor

variable {text part : List Char} {c c' : Cursor}

/-- The place lies in the text. -/
def IsIn (text : List Char) (c : Cursor) : Prop :=
  ∃ front, text = front ++ c.rest ∧ c.offset = byteLength front

theorem isIn_start (text : List Char) : IsIn text ⟨none, text, 0⟩ :=
  ⟨[], rfl, rfl⟩

theorem IsIn.advance (h : c.IsIn text) (n : Nat) : (c.advance n).IsIn text := by
  obtain ⟨front, rfl, hoffset⟩ := h
  refine ⟨front ++ c.rest.take n, ?_, ?_⟩
  · rw [rest_advance, List.append_assoc, List.take_append_drop]
  · rw [offset_advance, hoffset, byteLength_append]

theorem IsIn.skipBlanks (h : c.IsIn text) : c.skipBlanks.IsIn text :=
  h.advance _

/-- Two places cut out what stands between them. -/
theorem IsIn.cuts (h : c.IsIn text) (h' : c'.IsIn text) (hrest : c.rest = part ++ c'.rest) :
    (Span.mk c.offset c'.offset).Cuts text part := by
  obtain ⟨front, rfl, hoffset⟩ := h
  obtain ⟨front', htext, hoffset'⟩ := h'
  rw [hrest, ← List.append_assoc] at htext
  obtain rfl := List.append_cancel_right htext
  exact ⟨front, c'.rest, by rw [hrest, List.append_assoc], hoffset, hoffset'⟩

theorem offset_le_advance (c : Cursor) (n : Nat) : c.offset ≤ (c.advance n).offset := by
  rw [offset_advance]
  exact Nat.le_add_right _ _

theorem offset_le_skipBlanks (c : Cursor) : c.offset ≤ c.skipBlanks.offset :=
  c.offset_le_advance _

/-- Where nothing is left is the end of the text. -/
theorem IsIn.offset_of_nil (h : c.IsIn text) (hrest : c.rest = []) :
    c.offset = byteLength text := by
  obtain ⟨front, rfl, hoffset⟩ := h
  rw [hrest, List.append_nil, hoffset]

end Cursor

/-! ## Scans -/

namespace Recognizer

variable {r : Recognizer} {c c' : Cursor} {ts : List Token} {t a b : Token} {text : List Char}

theorem Leads.isIn (h : r.Leads c ts c') (hc : c.IsIn text) : c'.IsIn text := by
  induction h with
  | refl c => exact hc
  | step _ _ _ ih => exact ih (hc.skipBlanks.advance _)

theorem Leads.offset_le (h : r.Leads c ts c') : c.offset ≤ c'.offset := by
  induction h with
  | refl c => exact Nat.le_refl _
  | @step c c' symbol n ts _ _ _ ih =>
    exact Nat.le_trans c.offset_le_skipBlanks
      (Nat.le_trans (c.skipBlanks.offset_le_advance n) ih)

/-- A scan that finds one token is at the place behind it. -/
theorem Leads.of_singleton (h : r.Leads c [t] c') :
    t.span = ⟨c.skipBlanks.offset, c'.offset⟩ ∧
      c.skipBlanks.rest = t.text.toList ++ c'.rest := by
  obtain _ | ⟨hs, hf, h⟩ := h
  obtain _ | _ := h
  refine ⟨rfl, ?_⟩
  rw [tokenAt, String.toList_ofList, Cursor.rest_advance, List.take_append_drop]

/-- A token cuts its text out of the text that is scanned. -/
theorem Leads.cuts_singleton (h : r.Leads c [t] c') (hc : c.IsIn text) :
    t.span.Cuts text t.text.toList := by
  obtain ⟨hspan, hrest⟩ := h.of_singleton
  rw [hspan]
  exact hc.skipBlanks.cuts (h.isIn hc) hrest

/-- Two tokens next to each other, and the blanks between them. -/
theorem Leads.cuts_pair (h : r.Leads c [a, b] c') (hc : c.IsIn text) :
    ∃ blanks, (∀ x ∈ blanks, isBlank x = true) ∧
      (a.span.merge b.span).Cuts text (a.text.toList ++ blanks ++ b.text.toList) := by
  have hsplit : r.Leads c ([a] ++ [b]) c' := h
  obtain ⟨c₁, ha, hb⟩ := hsplit.exists_of_append
  obtain ⟨hspan, hrest⟩ := ha.of_singleton
  obtain ⟨hspan', hrest'⟩ := hb.of_singleton
  have hblanks : c₁.rest.takeWhile isBlank ++ c₁.skipBlanks.rest = c₁.rest :=
    c₁.takeWhile_append_skipBlanks
  refine ⟨c₁.rest.takeWhile isBlank, List.all_eq_true.mp List.all_takeWhile, ?_⟩
  -- The first token ends before the second one begins, so the spans are merged from end to end.
  have hmerge : a.span.merge b.span = ⟨c.skipBlanks.offset, c'.offset⟩ := by
    have hle := (ha.cuts_singleton hc).start_le_stop
    have hle' := (hb.cuts_singleton (ha.isIn hc)).start_le_stop
    have hskip := c₁.offset_le_skipBlanks
    rw [hspan] at hle ⊢
    rw [hspan'] at hle' ⊢
    have hstart : c.skipBlanks.offset ≤ c₁.skipBlanks.offset := Nat.le_trans hle hskip
    have hstop : c₁.offset ≤ c'.offset := Nat.le_trans hskip hle'
    simp only [Span.merge, Nat.min_eq_left hstart, Nat.max_eq_right hstop]
  rw [hmerge]
  refine hc.skipBlanks.cuts (h.isIn hc) ?_
  rw [List.append_assoc, List.append_assoc, ← hrest', hblanks]
  exact hrest

/-- Every token lies between the two places, and takes some of the text. -/
theorem Leads.of_mem (hr : r.IsProgressive) (h : r.Leads c ts c') (ht : t ∈ ts) :
    c.offset ≤ t.span.start ∧ t.span.start < t.span.stop ∧ t.span.stop ≤ c'.offset := by
  induction h with
  | refl c => exact absurd ht List.not_mem_nil
  | @step c c' symbol n ts hs hf h ih =>
    have hskip := c.offset_le_skipBlanks
    have hadvance := c.skipBlanks.offset_le_advance n
    rcases List.mem_cons.mp ht with rfl | ht
    · have hpos : (tokenAt c.skipBlanks symbol n c.offset).span.isEmpty = false :=
        isEmpty_span_tokenAt (hr.pos _ _ _ _ hf) hs
      exact ⟨hskip, Nat.not_le.mp (of_decide_eq_false hpos), h.offset_le⟩
    · obtain ⟨hle, hlt, hle'⟩ := ih ht
      exact ⟨by omega, hlt, hle'⟩

variable {input : String}

/-- **Every token cuts its own text out of the text that is scanned.** -/
theorem cuts_of_mem_scan (hr : r.IsProgressive) (ht : t ∈ (r.scan input).tokens) :
    t.span.start < t.span.stop ∧ t.span.Cuts input.toList t.text.toList := by
  obtain ⟨c', hleads, -⟩ := exists_leads_scan hr input
  refine ⟨(hleads.of_mem hr ht).2.1, ?_⟩
  obtain ⟨us, vs, hts⟩ := List.append_of_mem ht
  rw [hts] at hleads
  obtain ⟨c₁, hus, hvs⟩ := hleads.exists_of_append
  have hsplit : r.Leads c₁ ([t] ++ vs) c' := hvs
  obtain ⟨c₂, h, -⟩ := hsplit.exists_of_append
  exact h.cuts_singleton (hus.isIn (Cursor.isIn_start _))

/-- Two tokens next to each other cut out their texts and the blanks between them. -/
theorem cuts_merge_of_scan (hr : r.IsProgressive) (h : [a, b] <:+: (r.scan input).tokens) :
    ∃ blanks, (∀ x ∈ blanks, isBlank x = true) ∧
      (a.span.merge b.span).Cuts input.toList (a.text.toList ++ blanks ++ b.text.toList) := by
  obtain ⟨c', hleads, -⟩ := exists_leads_scan hr input
  obtain ⟨us, vs, hts⟩ := h
  rw [← hts, List.append_assoc] at hleads
  obtain ⟨c₁, hus, hvs⟩ := hleads.exists_of_append
  obtain ⟨c₂, h, -⟩ := hvs.exists_of_append
  exact h.cuts_pair (hus.isIn (Cursor.isIn_start _))

/-- A text that is scanned to its end ends with the token at its end. -/
theorem point_of_scan (hr : r.IsProgressive) (h : (r.scan input).ending = .endless t) :
    t.span = Span.point (byteLength input.toList) := by
  obtain ⟨c', hleads, hends⟩ := exists_leads_scan hr input
  rw [h] at hends
  obtain ⟨hs⟩ | _ := hends
  have hoffset := (hleads.isIn (Cursor.isIn_start _)).skipBlanks.offset_of_nil hs
  rw [tokenAt, Cursor.advance, hoffset]
  rfl

/-- A text that is not scanned to its end has something else than a blank where no pattern matches,
and is cut off from there. -/
theorem cuts_of_unrecognized_scan (hr : r.IsProgressive) {span : Span}
    (h : (r.scan input).ending = .unrecognized span) :
    ∃ d rest, isBlank d = false ∧ span.Cuts input.toList (d :: rest) ∧
      span.stop = byteLength input.toList := by
  obtain ⟨c', hleads, hends⟩ := exists_leads_scan hr input
  rw [h] at hends
  obtain _ | ⟨hs, -⟩ := hends
  obtain ⟨blanks, d, rest, -, -, hd, hrest⟩ := Cursor.exists_blanks hs
  obtain ⟨front, htext, hoffset⟩ := (hleads.isIn (Cursor.isIn_start _)).skipBlanks
  have hstop : c'.skipBlanks.offset + byteLength c'.skipBlanks.rest = byteLength input.toList := by
    rw [hoffset, htext, byteLength_append]
  refine ⟨d, rest, hd, ⟨front, [], ?_, hoffset, ?_⟩, hstop⟩
  · rw [htext, hrest, List.append_nil]
  · rw [hoffset, hrest, byteLength_append]

end Recognizer

end Precedence
