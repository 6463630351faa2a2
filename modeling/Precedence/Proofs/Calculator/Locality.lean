import Precedence.Proofs.Calculator.Blame
import Precedence.Proofs.Calculator.Surroundings

/-!
# No look behind the token to blame

When a calculator blames a token for standing where it does, nothing behind the token takes part. So
the tokens up to that one, found again in front of a blank, give the same error.

* `exists_tokens_again`: the beginning of a text up to a token has its tokens in front of any blank.
* `parse_blame_again`: a text that goes on with a blank behind the blamed token fails alike.
-/

namespace Precedence

open Precedence.Source Precedence.Text Calculator

/-- No token of the scan, and not the one at its end, is at the span. -/
def Scan.LiesApart (span : Span) (scan : Scan) : Prop :=
  (∀ t ∈ scan.tokens, t.span ≠ span) ∧ ∀ t, scan.ending = .endless t → t.span ≠ span

theorem Scan.LiesApart.of_next {span : Span} {scan : Scan} (h : scan.LiesApart span) {t : Token}
    (hn : scan.next = .ok t) : t.span ≠ span ∧ scan.behind.LiesApart span := by
  obtain ⟨tokens, ending⟩ := scan
  cases tokens with
  | cons u us =>
    cases hn
    exact ⟨h.1 t List.mem_cons_self, fun v hv => h.1 v (List.mem_cons_of_mem t hv), h.2⟩
  | nil =>
    cases ending with
    | unrecognized span' => cases hn
    | endless u =>
      cases hn
      have hspan := h.2 t rfl
      refine ⟨hspan, fun v hv => absurd hv List.not_mem_nil, fun v hv => ?_⟩
      cases hv
      exact hspan

/-- Two texts that begin with the same tokens. Of errors only those that blame a token at the span
are compared, and behind the beginning no token is at it. -/
def Comparison.upTo (span : Span) : Comparison where
  placed := True
  Abreast a a' := ∃ ts us us', a.tokens = ts ++ us ∧ a'.tokens = ts ++ us' ∧
    Scan.LiesApart span ⟨us, a.ending⟩
  Gone a := a.LiesApart span
  Past t := t.span ≠ span
  Excused e := ¬ (e.kind.BlamesToken ∧ e.span = span)
  next_of_abreast {a a'} h := by
    obtain ⟨tokens, ending⟩ := a
    obtain ⟨tokens', ending'⟩ := a'
    obtain ⟨ts, us, us', rfl, rfl, hus⟩ := h
    cases ts with
    | nil => exact .inl hus
    | cons t ts =>
      exact .inr (.inl ⟨t, t, rfl, rfl, .refl True t, ts, us, us', rfl, rfl, hus⟩)
  next_of_gone h hn := h.of_next hn
  excused_of_gone {a e} _ he := by
    rintro ⟨hkind, hspan⟩
    obtain ⟨t, ht, hspan'⟩ := he hkind
    exact ht (hspan'.symm.trans hspan)

namespace Calculator

variable {input : String} {t : Token} {p : List Char} {ts : List Token}

/-- In front of any blank the text is scanned into the tokens. -/
def ScansTo (p : List Char) (ts : List Token) : Prop :=
  ∀ w rest, isBlank w = true →
    ∃ c, calculatorRecognizer.Leads ⟨none, p ++ w :: rest, 0⟩ ts c ∧ c.rest = w :: rest

/-- With nothing but a blank behind it the text is scanned to its end. -/
theorem ScansTo.ends (h : ScansTo p ts) :
    (calculatorRecognizer.scan (String.ofList (p ++ [' ']))).ending.symbol? = some 0 := by
  obtain ⟨c, hleads, hrest⟩ := h ' ' [] (by decide)
  rw [← String.toList_ofList (l := p ++ [' '])] at hleads
  have hblank : c.skipBlanks.rest = [] := by
    rw [Cursor.rest_skipBlanks, hrest]
    decide
  rw [hleads.scan_eq isProgressive_calculatorRecognizer (.endless hblank)]
  rfl

/-- **The beginning of a text up to a token has its tokens in front of any blank.** Nothing behind
the token is at its span. -/
theorem exists_tokens_again (ht : t ∈ (calculatorRecognizer.scan input).tokens) :
    ∃ ts us p behind, input.toList = p ++ behind ∧ byteLength p = t.span.stop ∧
      (calculatorRecognizer.scan input).tokens = ts ++ us ∧
      Scan.LiesApart t.span ⟨us, (calculatorRecognizer.scan input).ending⟩ ∧ ScansTo p ts := by
  have hr := isProgressive_calculatorRecognizer
  obtain ⟨c', hleads, hends⟩ := Recognizer.exists_leads_scan hr input
  obtain ⟨vs, us, htokens⟩ := List.append_of_mem ht
  rw [htokens, ← List.singleton_append, ← List.append_assoc] at hleads
  obtain ⟨c₂, hts, hus⟩ := hleads.exists_of_append
  obtain ⟨c₁, hvs, hone⟩ := hts.exists_of_append
  have hstart := Cursor.isIn_start input.toList
  obtain ⟨p, hinput, hoffset⟩ := hts.isIn hstart
  obtain ⟨hspan, -⟩ := hone.of_singleton
  have hlt := (hone.of_mem hr List.mem_cons_self).2.1
  have hstop : t.span.stop = c₂.offset := by rw [hspan]
  refine ⟨vs ++ [t], us, p, c₂.rest, hinput, hoffset.symm.trans hstop.symm, ?_, ⟨?_, ?_⟩, ?_⟩
  · rw [htokens, List.append_assoc, List.singleton_append]
  · intro u hu heq
    obtain ⟨hle, -, -⟩ := hus.of_mem hr hu
    rw [heq] at hle
    omega
  · intro u hu heq
    rw [← heq, Recognizer.point_of_scan hr hu] at hlt
    exact absurd hlt (Nat.lt_irrefl _)
  · intro w rest hw
    have happart : BeginsApart (w :: rest) := by
      intro x hx
      cases hx
      exact setsApart_of_isBlank hw
    have hagain : (⟨none, p ++ w :: rest, 0⟩ : Cursor).rest = p ++ w :: rest := rfl
    obtain ⟨ts', c₂', hleads', hrest, -, hsame⟩ := exists_leads_again hts hinput happart hagain
    obtain ⟨rfl, -⟩ := hsame rfl
    exact ⟨c₂', hleads', hrest⟩

/-- **A text that goes on with a blank behind the blamed token fails alike,** whatever follows. -/
theorem parse_blame_again {g : Grammar Value} (hg : g = arithmetic ∨ g = algebra) {e : ParseError}
    (hp : g.parse input = some (.error e)) (hkind : e.kind.BlamesToken) :
    ∃ ts p behind, input.toList = p ++ behind ∧ byteLength p = e.span.stop ∧ ScansTo p ts ∧
      ∀ w rest, isBlank w = true → ∃ e', g.parse (String.ofList (p ++ w :: rest)) =
        some (.error e') ∧ e'.kind = e.kind ∧ e'.message = e.message ∧ e'.span = e.span := by
  obtain ⟨perform, hg'⟩ := exists_calculates hg
  obtain ⟨t, ht, hspan⟩ : ∃ t ∈ (calculatorRecognizer.scan input).tokens, e.span = t.span := by
    have hexplains := (explains_of_parse hg hp).2
    revert hexplains hkind
    cases e.kind <;> intro hkind hexplains <;> first | exact hexplains | exact hkind.elim
  obtain ⟨ts, us, p, behind, hinput, hstop, hts, happart, hagain⟩ := exists_tokens_again ht
  refine ⟨ts, p, behind, hinput, hstop.trans (congrArg Span.stop hspan.symm), hagain, ?_⟩
  intro w rest hw
  obtain ⟨c, hleads, -⟩ := hagain w rest hw
  rw [← String.toList_ofList (l := p ++ w :: rest)] at hleads
  obtain ⟨us', hts'⟩ := hleads.exists_tokens isProgressive_calculatorRecognizer
  have hcompares : (Comparison.upTo t.span).Compares g g (g.context input)
      (g.context (String.ofList (p ++ w :: rest))) :=
    Comparison.compares rfl (goesInStep hg) (Nat.le_refl _)
      fun hlt => absurd hlt (Nat.lt_irrefl _)
  obtain ⟨s, hlost | ⟨result, s', hp', hmatches⟩⟩ := hcompares.parse hg'.recognizer
    hg'.recognizer (hg'.endIsInert _) (hg'.endIsInert _) ⟨ts, us, us', hts, hts', happart⟩ hp
  · cases hlost with
    | excused he => exact absurd ⟨hkind, hspan⟩ he
  · cases hmatches with
    | failure hfails =>
      obtain ⟨kind, message, hsame⟩ := hfails
      exact ⟨_, hp', rfl, rfl, hsame trivial⟩

end Calculator

end Precedence
