import Precedence.Proofs.Calculator.Locality
import Precedence.Proofs.Calculator.Viability

/-!
# The first token that cannot continue

An error that says that a text does not go on as it does names the first token that cannot stand
where it does. Up to that token the text can be completed, and behind it nothing helps.

* `exists_completion`: what stands in front of the token is completed by names, closing parentheses
  and the sign of a sum.
* `syntax_error_is_first`: both sides of the token.
-/

namespace Precedence

open Precedence.Source Precedence.Text

namespace Calculator

variable {input : String} {e : ParseError} {ts : List Token} {c : Cursor}
variable {xs ys : List Terminal} {blanks text : List Char}

/-! ## Texts of fillers -/

/-- The text of terminals, with a blank in front of each. -/
def fill (ys : List Terminal) : List Char :=
  ys.flatMap fun y => ' ' :: y.chars

theorem stops_fill (ys : List Terminal) : Stops (fill ys) := by
  cases ys with
  | nil => exact stops_nil
  | cons y ys => exact stops_blank _

theorem spells_fill (h : ys ⊆ fillers) : Spells (fill ys) ys := by
  induction ys with
  | nil => exact .nil
  | cons y ys ih =>
    obtain ⟨hy, hys⟩ := List.cons_subset.mp h
    refine .blank (.terminal ?_ (ih hys))
    simp only [fillers, List.mem_cons, List.not_mem_nil, or_false] at hy
    obtain rfl | rfl | rfl := hy
    · exact ⟨by decide, stops_fill ys⟩
    · trivial
    · trivial

/-- Fillers behind blanks are set apart from what stands in front of them. -/
theorem beginsApart_fill (hb : ∀ x ∈ blanks, isBlank x = true) :
    BeginsApart (blanks ++ fill ys) := by
  intro w hw
  refine setsApart_of_isBlank ?_
  cases blanks with
  | cons x blanks =>
    cases hw
    exact hb _ List.mem_cons_self
  | nil =>
    cases ys with
    | nil => cases hw
    | cons y ys =>
      cases hw
      decide

/-- A text that is scanned up to blanks, behind which it spells terminals. -/
theorem terminals_append (h : calculatorRecognizer.Leads ⟨none, input.toList, 0⟩ ts c)
    (hts : ts.map Token.terminal? = xs.map some) (hc : c.rest = blanks ++ text)
    (hb : ∀ x ∈ blanks, isBlank x = true) (hy : Spells text ys) :
    Terminals (calculatorRecognizer.scan input) (xs ++ ys) := by
  have hr := isProgressive_calculatorRecognizer
  have hlength : ts.length + c.rest.length ≤ input.toList.length := h.length_le hr
  rw [hc, List.length_append] at hlength
  obtain ⟨steps, hsteps⟩ : ∃ steps, input.toList.length + 1 = steps + ts.length :=
    ⟨input.toList.length + 1 - ts.length, by omega⟩
  have hskip : c.rest.dropWhile isBlank = text.dropWhile isBlank := by
    rw [hc, List.dropWhile_append_of_pos hb]
  have hlt : text.length < steps := by omega
  obtain ⟨htokens, hending⟩ := terminals_of_spells hy hskip hlt
  rw [Recognizer.scan, hsteps, h.scanFrom hr]
  exact ⟨by rw [List.map_append, hts, htokens, List.map_append], hending⟩

/-! ## Completions -/

/-- A text that is scanned into a viable beginning, up to blanks, has a completion. -/
theorem exists_completion_of_viable {p rest : List Char}
    (h : calculatorRecognizer.Leads ⟨none, input.toList, 0⟩ ts c)
    (hts : ts.map Token.terminal? = xs.map some) (hviable : Viable .sum xs)
    (hinput : input.toList = p ++ rest) (hc : c.rest = blanks ++ rest)
    (hb : ∀ x ∈ blanks, isBlank x = true) :
    ∃ t depth v stats,
      (algebra.setMaxDepth depth).parse (String.ofList (p ++ t)) = some (.ok (v, stats)) := by
  obtain ⟨ys, e, v, -, hys, hterminals, hv, -⟩ := hviable
  obtain ⟨front, hfront⟩ : ∃ front, front ++ c.rest = input.toList := h.rest_suffix
  have hp : p = front ++ blanks := by
    refine (List.append_left_inj rest).mp ?_
    rw [← hinput, ← hfront, hc, List.append_assoc]
  have hagain : (⟨none, (String.ofList (p ++ fill ys)).toList, 0⟩ : Cursor).rest =
      front ++ (blanks ++ fill ys) := by
    rw [String.toList_ofList, hp, List.append_assoc]
  obtain ⟨ts', c', hleads, hrest, hts', -⟩ :=
    exists_leads_again h hfront.symm (beginsApart_fill hb) hagain
  have hall := terminals_append hleads (hts'.trans hts) hrest hb (spells_fill hys)
  rw [← hterminals] at hall
  exact ⟨fill ys, e.tally.height + 1, v, e.stats, (Grammar.parse_eq_ok_iff_phrase
    (calculates_algebra _)).mpr ⟨e, hall, hv, Nat.le_refl _, rfl⟩⟩

/-- The token that comes next starts where the blanks behind the tokens that were read end. -/
theorem start_of_faces {scan : Scan} {s : Session} {t : Token} {c' : Cursor}
    (ht : s.Faces scan t) (hrest : calculatorRecognizer.Leads c s.upcoming c')
    (hend : calculatorRecognizer.EndsAt c' scan.ending) : t.span.start = c.skipBlanks.offset := by
  rcases ht with ⟨-, ts, hu⟩ | ⟨⟨u, hu', -, hspan⟩, hu⟩
  · rw [hu] at hrest
    cases hrest
    rfl
  · rw [hu] at hrest
    rw [hu'] at hend
    cases hrest
    cases hend
    rw [hspan]
    rfl

/-- In a text that is scanned to its end, what stands in front of the token has a completion. -/
theorem exists_completion_of_ends (h : parseSymbolic input = some (.error e))
    (hkind : e.kind.IsSyntactic)
    (hends : (calculatorRecognizer.scan input).ending.symbol? = some 0) :
    ∃ p t depth v stats, takeBytes input.toList e.span.start = some p ∧
      (algebra.setMaxDepth depth).parse (String.ofList (p ++ t)) = some (.ok (v, stats)) := by
  have hg := calculates_algebra algebra.maxDepth
  rw [Grammar.setMaxDepth_maxDepth] at hg
  obtain ⟨n, s', hn⟩ := (Grammar.parse_eq_iff hg.recognizer (hg.endIsInert input)).mp h
  obtain ⟨xs, s, t, hviable, hahead, hs, hfaces, hspan⟩ := Grammar.sticks_whole hg algebra_symbols
    ⟨hends, Nat.le_refl 0⟩ (Session.within_start _ _) e s' hn hkind
  -- The tokens that were read, and those that are ahead.
  obtain ⟨ts, hts⟩ := hs.upcoming
  obtain ⟨c', hleads, hend⟩ :=
    Recognizer.exists_leads_scan isProgressive_calculatorRecognizer input
  rw [← hts] at hleads
  obtain ⟨c, hread, hrest⟩ := hleads.exists_of_append
  have hterminals : ts.map Token.terminal? = xs.map some := by
    have hahead' : (calculatorRecognizer.scan input).tokens.map Token.terminal? =
        xs.map some ++ s.upcoming.map Token.terminal? := hahead
    rw [← hts, List.map_append] at hahead'
    exact List.append_cancel_right hahead'
  have hstart : e.span.start = c.skipBlanks.offset := by
    rw [hspan]
    exact start_of_faces hfaces hrest hend
  obtain ⟨p, hinput, hoffset⟩ := (hread.isIn (Cursor.isIn_start _)).skipBlanks
  obtain ⟨text, depth, v, stats, hparse⟩ := exists_completion_of_viable hread hterminals hviable
    hinput c.takeWhile_append_skipBlanks.symm (List.all_eq_true.mp List.all_takeWhile)
  refine ⟨p, text, depth, v, stats, ?_, hparse⟩
  rw [hstart, hoffset, hinput, takeBytes_byteLength]

theorem blamesToken_or_of_isSyntactic {kind : ErrorKind} (h : kind.IsSyntactic) :
    kind.BlamesToken ∨ kind = .unexpectedEnd := by
  cases kind with
  | syntaxError | unexpectedToken | expectedToken => exact .inl trivial
  | unexpectedEnd => exact .inr rfl
  | _ => exact h.elim

/-- **What stands in front of the token that an error names has a completion.** -/
theorem exists_completion (h : parseSymbolic input = some (.error e)) (hkind : e.kind.IsSyntactic) :
    ∃ p t depth v stats, takeBytes input.toList e.span.start = some p ∧
      (algebra.setMaxDepth depth).parse (String.ofList (p ++ t)) = some (.ok (v, stats)) := by
  rcases blamesToken_or_of_isSyntactic hkind with hblames | hend
  · -- In front of a blank, behind which nothing follows, the token gives the same error.
    obtain ⟨ts, q, behind, hinput, hstop, hscans, hagain⟩ :=
      parse_blame_again (.inr rfl) h hblames
    obtain ⟨e', he', hkind', -, hspan'⟩ := hagain ' ' [] (by decide)
    obtain ⟨p, t, depth, v, stats, hp, hparse⟩ :=
      exists_completion_of_ends he' (hkind' ▸ hkind) hscans.ends
    obtain ⟨-, hle, -⟩ := error_shows (.inr h)
    refine ⟨p, t, depth, v, stats, ?_, hparse⟩
    rw [hspan', String.toList_ofList, takeBytes_append (hstop ▸ hle)] at hp
    rw [hinput, takeBytes_append (hstop ▸ hle), hp]
  · have hexplains := (explains_of_parse (.inr rfl) h).2
    rw [hend] at hexplains
    obtain ⟨t, ht, -⟩ := hexplains
    refine exists_completion_of_ends h hkind ?_
    rw [ht]
    exact congrArg some ((ends_scan input).symbol_eq t ⟨t, ht, rfl, rfl⟩)

/-- **An error that says that a text does not go on as it does names the first token that cannot
continue.** What stands in front of the token has a completion, under some limit to the nesting; and
every text that goes on with a blank behind the token fails alike. -/
theorem syntax_error_is_first (h : parseSymbolic input = some (.error e))
    (hkind : e.kind.IsSyntactic) :
    (∃ p t depth v stats, takeBytes input.toList e.span.start = some p ∧
        (algebra.setMaxDepth depth).parse (String.ofList (p ++ t)) = some (.ok (v, stats))) ∧
      (e.kind ≠ .unexpectedEnd → ∃ p, takeBytes input.toList e.span.stop = some p ∧
        ∀ w rest, isBlank w = true → ∃ e', parseSymbolic (String.ofList (p ++ w :: rest)) =
          some (.error e') ∧ e'.kind = e.kind ∧ e'.message = e.message ∧ e'.span = e.span) := by
  refine ⟨exists_completion h hkind, fun hne => ?_⟩
  have hblames := (blamesToken_or_of_isSyntactic hkind).resolve_right hne
  obtain ⟨-, p, behind, hinput, hstop, -, hagain⟩ := parse_blame_again (.inr rfl) h hblames
  exact ⟨p, by rw [← hstop, hinput, takeBytes_byteLength], hagain⟩

/-- Both sides of a parenthesis that closes nothing. -/
theorem syntax_error_is_first_closing :
    (∃ p t depth v stats, takeBytes "-(1 + ) 2".toList 6 = some p ∧
        (algebra.setMaxDepth depth).parse (String.ofList (p ++ t)) = some (.ok (v, stats))) ∧
      ∃ p, takeBytes "-(1 + ) 2".toList 7 = some p ∧ ∀ w rest, isBlank w = true →
        ∃ e, parseSymbolic (String.ofList (p ++ w :: rest)) = some (.error e) ∧
          e.kind = .syntaxError ∧ e.message = "syntax error" ∧ e.span = ⟨6, 7⟩ := by
  have h : parseSymbolic "-(1 + ) 2" =
      some (.error ⟨.syntaxError, "syntax error", "-(1 + ) 2", ⟨6, 7⟩⟩) :=
    error?_eq_some_iff.mp (by decide +kernel)
  obtain ⟨hfirst, hagain⟩ := syntax_error_is_first h trivial
  exact ⟨hfirst, hagain (by decide)⟩

end Calculator

end Precedence
