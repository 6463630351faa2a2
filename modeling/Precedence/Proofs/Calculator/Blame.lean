import Precedence.Proofs.Calculator.Parallels
import Precedence.Proofs.Calculator.Failures
import Precedence.Proofs.Calculator.Spelling
import Precedence.Proofs.Parsing.Places

/-!
# Where the errors of the calculators point

Every error of a calculator points at a part of its own text, and its kind says at which: at one
token, at a minus sign and the number that it is joined with, at the end of the text, or at the rest
of it that no pattern matches.

* `error_shows`: what an error shows of the text, by its kind.
-/

namespace Precedence

open Precedence.Source Precedence.Text Calculator

/-- What errors of a kind point at, among the tokens of a scan and its end. -/
def Scan.PointsAt (scan : Scan) (span : Span) : ErrorKind → Prop
  | .unrecognizedInput => scan.ending = .unrecognized span
  | .unexpectedEnd => ∃ t, scan.ending = .endless t ∧ span = t.span
  | .syntaxError | .unexpectedToken | .expectedToken => ∃ t ∈ scan.tokens, span = t.span
  | .tooDeep =>
    (∃ t ∈ scan.tokens, span = t.span) ∨ ∃ t, scan.ending = .endless t ∧ span = t.span
  | .literal =>
    (∃ t ∈ scan.tokens, t.terminal? = some (.number t.text) ∧ span = t.span) ∨
      ∃ sign number, [sign, number] <:+: scan.tokens ∧
        sign.terminal? = some (.sign .subtract) ∧
        number.terminal? = some (.number number.text) ∧ span = sign.span.merge number.span
  | .arithmetic => ∃ t ∈ scan.tokens, ∃ op, t.terminal? = some (.sign op) ∧ span = t.span
  | .grammar => False

/-- The error is one for the text, and points at what its kind says. -/
def Scan.Explains (scan : Scan) (input : String) (e : ParseError) : Prop :=
  e.input = input ∧ scan.PointsAt e.span e.kind

/-- The error is that of a number which does not read as one, alone or behind the minus sign in
front of it. -/
def Scan.Refuses (scan : Scan) (e : ParseError) : Prop :=
  ∃ number ∈ scan.tokens, number.terminal? = some (.number number.text) ∧
    ∃ cause : NumberError, e.message = cause.message ∧
      (e.span = number.span ∧ Value.readNumber number.text = .error cause ∨
        ∃ sign, [sign, number] <:+: scan.tokens ∧ sign.terminal? = some (.sign .subtract) ∧
          e.span = sign.span.merge number.span ∧
          Value.readNumber ("-" ++ number.text) = .error cause)

/-- The error is explained by the scan, and that of a literal by a number in it. -/
structure Scan.Accounts (scan : Scan) (input : String) (e : ParseError) : Prop where
  explains : scan.Explains input e
  refuses : e.kind = .literal → scan.Refuses e

theorem Token.symbol_ne_of_terminal? {t : Token} {x : Terminal} (h : t.terminal? = some x) :
    t.symbol ≠ 0 := by
  intro h0
  rw [terminal?, h0] at h
  cases h

theorem Scan.Ends.mem_of_terminal? {scan : Scan} (hscan : scan.Ends) {t : Token} {x : Terminal}
    {ts : List Token} (ht : t.terminal? = some x) (h : t :: ts <:+ scan.tokens ∨ scan.EndsWith t) :
    t :: ts <:+ scan.tokens := by
  rcases h with h | h
  · exact h
  · exact absurd (hscan.symbol_eq t h) (Token.symbol_ne_of_terminal? ht)

namespace Grammar

open Outcome
open Session (Within)

section Denotations

variable {g : Grammar Value} {perform : Operation → Value → Value → Option Value} {input : String}
variable {scan : Scan} {s : Session} {t : Token} {n : Nat}

theorem accounts_takeExpected (hscan : scan.Ends) (hs : s.Within scan) (id : String) :
    Blames (scan.Accounts input)
      (g.act (g.context input) n (.takeExpected (g.context input) id) s) := by
  refine blames_takeExpected id hs (fun _ h => ⟨⟨rfl, h⟩, nofun⟩) (fun t s₁ message hp hend => ?_)
    fun t s₁ message hp hend => ?_
  · rcases hs.of_peek hp with ⟨hmem, -⟩ | ⟨⟨u, hu, -, hspan⟩, -⟩
    · exact absurd (of_decide_eq_true hend) (hscan.symbol_ne t hmem)
    · exact ⟨⟨rfl, u, hu, hspan⟩, nofun⟩
  · rcases hs.of_peek hp with ⟨hmem, -⟩ | ⟨hends, -⟩
    · exact ⟨⟨rfl, t, hmem, rfl⟩, nofun⟩
    · exact absurd (hscan.symbol_eq t hends) (of_decide_eq_false hend)

/-- A minus sign blames itself, or itself with the number behind it, or the number. -/
theorem accounts_minus (hg : Calculates g perform) (hscan : scan.Ends)
    (hn : g.BlamesWithin (g.context input) scan (scan.Accounts input) n) (hs : s.Within scan)
    (ht : t.terminal? = some (.sign .subtract)) (hmem : t :: s.upcoming <:+ scan.tokens) :
    Blames (scan.Accounts input) (g.act (g.context input) n (minus (g.context input) t) s) := by
  -- The number is the token behind the sign.
  have hpair : ∀ {number s₁}, s.peek (g.context input) = (.ok number, s₁) → number.symbol = 1 →
      [t, number] <:+: scan.tokens ∧ number.terminal? = some (.number number.text) := by
    intro number s₁ hp hsymbol
    have hnumber := Token.terminal?_number hsymbol
    refine ⟨?_, hnumber⟩
    rcases hs.of_peek hp with ⟨-, ts, hu⟩ | ⟨hends, -⟩
    · rw [hu] at hmem
      exact (List.prefix_append [t, number] ts).isInfix.trans hmem.isInfix
    · exact absurd (hscan.symbol_eq _ hends) (Token.symbol_ne_of_terminal? hnumber)
  refine blames_minus hg rfl hs (fun _ h => ⟨⟨rfl, h⟩, nofun⟩)
    (fun message => ⟨⟨rfl, t, hmem.subset List.mem_cons_self, .subtract, ht, rfl⟩, nofun⟩)
    (fun number s₁ cause hp hsymbol hcause => ?_) (fun number s₁ cause hp hsymbol hcause => ?_)
    (fun number s₁ s₂ following s₃ m hp _ htake hp' _ _ hs₃ => hn.resume m signPower s₃ hs₃)
    fun next s₁ hp _ hs₁ => hn.expression signPower s₁ hs₁
  · obtain ⟨hpair, hnumber⟩ := hpair hp hsymbol
    exact ⟨⟨rfl, .inr ⟨t, number, hpair, ht, hnumber, rfl⟩⟩, fun _ => ⟨number,
      hpair.subset (by simp), hnumber, cause, rfl, .inr ⟨t, hpair, ht, rfl, hcause⟩⟩⟩
  · obtain ⟨hpair, hnumber⟩ := hpair hp hsymbol
    have hmem' := hpair.subset (a := number) (by simp)
    exact ⟨⟨rfl, .inl ⟨number, hmem', hnumber, rfl⟩⟩,
      fun _ => ⟨number, hmem', hnumber, cause, rfl, .inl ⟨rfl, hcause⟩⟩⟩

/-- What begins an operand blames what its kind of error says. -/
theorem accounts_nudAction (hg : Calculates g perform) (hscan : scan.Ends)
    (hn : g.BlamesWithin (g.context input) scan (scan.Accounts input) n) (hs : s.Within scan)
    (h : t :: s.upcoming <:+ scan.tokens ∨ scan.EndsWith t) :
    Blames (scan.Accounts input)
      (g.act (g.context input) n (g.nudAction (g.context input) t) s) := by
  refine blames_nudAction hg (fun hend => ?_) (fun hend => ?_) (fun cause ht hcause => ?_)
    (fun _ => ?_) fun ht => accounts_minus hg hscan hn hs ht (hscan.mem_of_terminal? ht h)
  · rcases h with hmem | ⟨u, hu, -, hspan⟩
    · exact absurd (of_decide_eq_true hend) (hscan.symbol_ne t (hmem.subset List.mem_cons_self))
    · exact ⟨⟨rfl, u, hu, hspan⟩, nofun⟩
  · rcases h with hmem | hends
    · exact ⟨⟨rfl, t, hmem.subset List.mem_cons_self, rfl⟩, nofun⟩
    · exact absurd (hscan.symbol_eq t hends) (of_decide_eq_false hend)
  · have hmem := (hscan.mem_of_terminal? ht h).subset List.mem_cons_self
    exact ⟨⟨rfl, .inl ⟨t, hmem, ht, rfl⟩⟩,
      fun _ => ⟨t, hmem, ht, cause, rfl, .inl ⟨rfl, hcause⟩⟩⟩
  · refine blames_parentheses (hn.expression 0 s hs) fun v s₁ hv => ?_
    have hkept := Session.isKept_within (c := g.context input) scan
    exact accounts_takeExpected hscan ((keeps g hkept n).expression _ _ _ hv hs) ")"

/-- The errors of a calculator, if what its operations do blames what it should. -/
theorem blamed_of_led (hg : Calculates g perform) (hscan : scan.Ends)
    {operator? : Operation → Option Operator} {led : Operation → Led Value}
    (hsymbols : g.symbols = calculatorSymbols operator? led)
    (hled : ∀ n op t left s, g.BlamesWithin (g.context input) scan (scan.Accounts input) n →
      s.Within scan → t ∈ scan.tokens → t.terminal? = some (.sign op) →
      Blames (scan.Accounts input)
        (g.act (g.context input) n (led op (g.context input) t left) s)) :
    g.Blamed (g.context input) scan (scan.Accounts input) where
  unrecognized _ h := ⟨⟨rfl, h⟩, nofun⟩
  tooDeep t h := by
    refine ⟨⟨rfl, h.imp (fun ht => ⟨t, ht, rfl⟩) ?_⟩, nofun⟩
    rintro ⟨u, hu, -, hspan⟩
    exact ⟨u, hu, hspan⟩
  unexpected t ht := ⟨⟨rfl, t, ht, rfl⟩, nofun⟩
  nud _ _ _ := accounts_nudAction hg hscan
  led n t left s hn hs ht hpower := by
    obtain ⟨op, hop⟩ := hg.exists_sign_of_power hpower
    rw [ledAction_eq hsymbols hop]
    exact hled n op t left s hn hs ht hop
  power t ht := by
    rw [hg.power, Token.power, Token.terminal?, hscan.symbol_eq t ht]
    rfl
  isEnd t ht := decide_eq_true (hscan.symbol_eq t ht)

end Denotations

/-- The errors of both calculators point at what their kinds say. -/
theorem blamed {g : Grammar Value} (hg : g = arithmetic ∨ g = algebra) {input : String}
    {scan : Scan} (hscan : scan.Ends) :
    g.Blamed (g.context input) scan (scan.Accounts input) := by
  obtain ⟨perform, hg'⟩ := exists_calculates hg
  rcases hg with h | h
  · refine blamed_of_led hg' hscan (h ▸ arithmetic_symbols) fun n op t left s hn hs hmem ht => ?_
    exact blames_computed (hn.expression op.rightPower s hs) fun _ =>
      ⟨⟨rfl, t, hmem, op, ht, rfl⟩, nofun⟩
  · refine blamed_of_led hg' hscan (h ▸ algebra_symbols) fun n op t left s hn hs _ _ => ?_
    exact blames_betweenLed (hn.expression op.operator.rightPower s hs)

end Grammar

namespace Calculator

theorem ends_scan (input : String) : (calculatorRecognizer.scan input).Ends where
  symbol_ne _ := Recognizer.symbol_ne_of_mem_scan isProgressive_calculatorRecognizer
  symbol_eq t h := by
    obtain ⟨u, hu, hsymbol, -⟩ := h
    rw [hsymbol, (Recognizer.of_endless_scan isProgressive_calculatorRecognizer hu).1]

/-- The text of a token that is an operation is its sign. -/
theorem text_of_sign {input : String} {t : Token} {op : Operation}
    (ht : t ∈ (calculatorRecognizer.scan input).tokens) (hop : t.terminal? = some (.sign op)) :
    t.text = op.sign := by
  have hsymbol : t.symbol = (Terminal.sign op).symbol := by
    unfold Token.terminal? at hop
    split at hop <;> cases hop <;> assumption
  obtain ⟨before, chars, n, hn, htext⟩ :=
    exists_matchLength?_of_mem (.text op.sign.toList) ht (by rw [hsymbol]; cases op <;> decide)
  rw [Rule.matchLength?] at hn
  split at hn
  · rename_i hprefix
    obtain ⟨behind, rfl⟩ := List.isPrefixOf_iff_prefix.mp hprefix
    cases hn
    rw [htext, List.take_left, String.ofList_toList]
  · cases hn

/-- What an error shows of the text, by its kind. -/
def Shows (input : String) (e : ParseError) : Prop :=
  let tokens := (calculatorRecognizer.scan input).tokens
  match e.kind with
  | .unrecognizedInput => e.span.stop = byteLength input.toList ∧
      ∃ d rest, isBlank d = false ∧ e.fragment = String.ofList (d :: rest)
  | .unexpectedEnd => e.span = Span.point (byteLength input.toList)
  | .syntaxError | .unexpectedToken | .expectedToken =>
    ∃ t ∈ tokens, e.span = t.span ∧ e.fragment = t.text
  | .tooDeep =>
    (∃ t ∈ tokens, e.span = t.span ∧ e.fragment = t.text) ∨
      e.span = Span.point (byteLength input.toList)
  | .literal =>
    (∃ t ∈ tokens, t.terminal? = some (.number t.text) ∧ e.span = t.span ∧ e.fragment = t.text) ∨
      ∃ sign number blanks, [sign, number] <:+: tokens ∧
        sign.terminal? = some (.sign .subtract) ∧
        number.terminal? = some (.number number.text) ∧
        e.span = sign.span.merge number.span ∧ (∀ x ∈ blanks, isBlank x = true) ∧
        e.fragment = String.ofList (sign.text.toList ++ blanks ++ number.text.toList)
  | .arithmetic => ∃ t ∈ tokens, ∃ op, t.terminal? = some (.sign op) ∧ e.span = t.span ∧
      e.fragment = op.sign
  | .grammar => False

section Shown

variable {input : String} {e : ParseError}

/-- An error at a token shows the text of the token. -/
theorem cuts_of_token (he : e.input = input) {t : Token}
    (ht : t ∈ (calculatorRecognizer.scan input).tokens) (hspan : e.span = t.span) :
    e.span.Cuts input.toList t.text.toList ∧ e.fragment = t.text := by
  have hcuts : e.span.Cuts input.toList t.text.toList := by
    rw [hspan]
    exact (Recognizer.cuts_of_mem_scan isProgressive_calculatorRecognizer ht).2
  refine ⟨hcuts, ?_⟩
  rw [ParseError.fragment_of_cuts (he ▸ hcuts), String.ofList_toList]

/-- An error at the end of a scan shows nothing. -/
theorem cuts_of_end {t : Token} (ht : (calculatorRecognizer.scan input).ending = .endless t)
    (hspan : e.span = t.span) :
    e.span = Span.point (byteLength input.toList) ∧ e.span.Cuts input.toList [] := by
  rw [hspan, Recognizer.point_of_scan isProgressive_calculatorRecognizer ht]
  exact ⟨rfl, Span.cuts_point _⟩

/-- What an error points at is a part of the text. -/
theorem shows_of_explains (h : (calculatorRecognizer.scan input).Explains input e) :
    (∃ part, e.span.Cuts input.toList part) ∧ Shows input e := by
  obtain ⟨he, hpoints⟩ := h
  have hr := isProgressive_calculatorRecognizer
  cases hkind : e.kind with
  | unrecognizedInput =>
    rw [hkind] at hpoints
    obtain ⟨d, rest, hd, hcuts, hstop⟩ := Recognizer.cuts_of_unrecognized_scan hr hpoints
    refine ⟨⟨_, hcuts⟩, ?_⟩
    simp only [Shows, hkind]
    exact ⟨hstop, d, rest, hd, ParseError.fragment_of_cuts (he ▸ hcuts)⟩
  | unexpectedEnd =>
    rw [hkind] at hpoints
    obtain ⟨t, ht, hspan⟩ := hpoints
    obtain ⟨hpoint, hcuts⟩ := cuts_of_end ht hspan
    refine ⟨⟨_, hcuts⟩, ?_⟩
    simp only [Shows, hkind]
    exact hpoint
  | syntaxError | unexpectedToken | expectedToken =>
    rw [hkind] at hpoints
    obtain ⟨t, ht, hspan⟩ := hpoints
    obtain ⟨hcuts, hfragment⟩ := cuts_of_token he ht hspan
    refine ⟨⟨_, hcuts⟩, ?_⟩
    simp only [Shows, hkind]
    exact ⟨t, ht, hspan, hfragment⟩
  | tooDeep =>
    rw [hkind] at hpoints
    simp only [Shows, hkind]
    rcases hpoints with ⟨t, ht, hspan⟩ | ⟨t, ht, hspan⟩
    · obtain ⟨hcuts, hfragment⟩ := cuts_of_token he ht hspan
      exact ⟨⟨_, hcuts⟩, .inl ⟨t, ht, hspan, hfragment⟩⟩
    · obtain ⟨hpoint, hcuts⟩ := cuts_of_end ht hspan
      exact ⟨⟨_, hcuts⟩, .inr hpoint⟩
  | literal =>
    rw [hkind] at hpoints
    simp only [Shows, hkind]
    rcases hpoints with ⟨t, ht, hnumber, hspan⟩ | ⟨sign, number, hpair, hsign, hnumber, hspan⟩
    · obtain ⟨hcuts, hfragment⟩ := cuts_of_token he ht hspan
      exact ⟨⟨_, hcuts⟩, .inl ⟨t, ht, hnumber, hspan, hfragment⟩⟩
    · obtain ⟨blanks, hblanks, hcuts⟩ := Recognizer.cuts_merge_of_scan hr hpair
      rw [← hspan] at hcuts
      exact ⟨⟨_, hcuts⟩, .inr ⟨sign, number, blanks, hpair, hsign, hnumber, hspan, hblanks,
        ParseError.fragment_of_cuts (he ▸ hcuts)⟩⟩
  | arithmetic =>
    rw [hkind] at hpoints
    obtain ⟨t, ht, op, hop, hspan⟩ := hpoints
    obtain ⟨hcuts, hfragment⟩ := cuts_of_token he ht hspan
    refine ⟨⟨_, hcuts⟩, ?_⟩
    simp only [Shows, hkind]
    exact ⟨t, ht, op, hop, hspan, hfragment.trans (text_of_sign ht hop)⟩
  | grammar =>
    rw [hkind] at hpoints
    exact hpoints.elim

end Shown

theorem accounts_of_parse {g : Grammar Value} (hg : g = arithmetic ∨ g = algebra) {input : String}
    {e : ParseError} (hp : g.parse input = some (.error e)) :
    (calculatorRecognizer.scan input).Accounts input e := by
  obtain ⟨perform, hg'⟩ := exists_calculates hg
  exact (Grammar.blamed hg (ends_scan input)).parse hg'.recognizer (hg'.endIsInert input) hp

theorem explains_of_parse {g : Grammar Value} (hg : g = arithmetic ∨ g = algebra) {input : String}
    {e : ParseError} (hp : g.parse input = some (.error e)) :
    (calculatorRecognizer.scan input).Explains input e :=
  (accounts_of_parse hg hp).explains

/-- **Every error of a calculator points at real text of its own input**, and shows of it what its
kind says. -/
theorem error_shows {input : String} {e : ParseError}
    (h : evaluate input = some (.error e) ∨ parseSymbolic input = some (.error e)) :
    e.input = input ∧ e.span.start ≤ e.span.stop ∧ e.span.stop ≤ byteLength input.toList ∧
      (∃ part, e.span.Cuts input.toList part ∧ e.fragment = String.ofList part) ∧
      Shows input e := by
  have hexplains : (calculatorRecognizer.scan input).Explains input e :=
    h.elim (explains_of_parse (.inl rfl)) (explains_of_parse (.inr rfl))
  obtain ⟨⟨part, hcuts⟩, hshows⟩ := shows_of_explains hexplains
  refine ⟨hexplains.1, hcuts.start_le_stop, hcuts.stop_le, ⟨part, hcuts, ?_⟩, hshows⟩
  exact ParseError.fragment_of_cuts (hexplains.1 ▸ hcuts)

theorem error_shows_quotient :
    ∃ e, evaluate "1 / 0" = some (.error e) ∧ e.kind = .arithmetic ∧ Shows "1 / 0" e := by
  have h : evaluate "1 / 0" =
      some (.error ⟨.arithmetic, "division by zero", "1 / 0", ⟨2, 3⟩⟩) :=
    error?_eq_some_iff.mp (by decide +kernel)
  obtain ⟨-, -, -, -, hshows⟩ := error_shows (.inl h)
  exact ⟨_, h, rfl, hshows⟩

end Calculator

end Precedence
