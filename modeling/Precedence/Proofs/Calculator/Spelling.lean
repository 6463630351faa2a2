import Precedence.Proofs.Calculator.Recognition
import Precedence.Proofs.Number.Decimals
import Precedence.Proofs.Pattern.Avoidance

/-!
# Spellings

How terminals are written. A text that spells terminals, with blanks between them as one likes, is
scanned as these terminals.

* `terminals_of_spells`: the scan of such a text.
* `isName_of_terminals`, `unsigned_of_terminals`: the names of any scan are spelled as names, and
  its numbers have no sign.
-/

namespace Precedence

open Precedence.Pattern Precedence.Text Precedence.Number

namespace Calculator

/-! ## Words -/

/-- A letter or an underscore, and then letters, digits and underscores. -/
def IsName (text : String) : Prop :=
  ∃ c cs, text.toList = c :: cs ∧ nameStart.contains c = true ∧
    ∀ d ∈ cs, nameRest.contains d = true

instance (text : String) : Decidable (IsName text) :=
  match h : text.toList with
  | [] => isFalse fun ⟨_, _, hl, _⟩ => List.cons_ne_nil _ _ (hl.symm.trans h)
  | c :: cs => decidable_of_iff (nameStart.contains c = true ∧ cs.all nameRest.contains = true)
    ⟨fun hn => ⟨c, cs, h, hn.1, List.all_eq_true.mp hn.2⟩, fun ⟨d, ds, hl, hd, hds⟩ => by
      cases h.symm.trans hl
      exact ⟨hd, List.all_eq_true.mpr hds⟩⟩

/-- Numbers and names end where such a text begins. -/
def Stops (text : List Char) : Prop :=
  ∀ c ∈ text.head?, c = ' ' ∨ c = ')'

theorem stops_nil : Stops [] := by
  simp [Stops]

theorem stops_blank (text : List Char) : Stops (' ' :: text) := by
  simp [Stops]

theorem stops_closing (text : List Char) : Stops (')' :: text) := by
  simp [Stops]

theorem toNat_of_nameStart {c : Char} (h : nameStart.contains c = true) :
    65 ≤ c.toNat ∧ c.toNat ≤ 122 := by
  simp only [CharSet.contains, nameStart, CharSet.holds] at h
  grind

theorem contains_decimalDigits {c : Char} (h : c.isDigit = true) :
    decimalDigits.contains c = true := by
  obtain ⟨hlow, hhigh⟩ := toNat_of_isDigit h
  rw [CharSet.contains, decimalDigits, CharSet.holds, if_neg (by omega), decide_eq_true hhigh,
    Bool.true_or]

theorem not_contains_decimalDigits {c : Char} (h : 57 < c.toNat ∧ c.toNat < 0x660) :
    decimalDigits.contains c = false := by
  obtain ⟨hlow, hhigh⟩ := h
  rw [CharSet.contains, decimalDigits, CharSet.holds, if_neg (by omega),
    decide_eq_false (by omega), CharSet.holds, if_pos hhigh]
  rfl

/-- Between the space and the control characters of Latin-1 there are no blanks. -/
theorem not_isBlank {c : Char} (h : 32 < c.toNat ∧ c.toNat < 0x85) : isBlank c = false := by
  obtain ⟨hlow, hhigh⟩ := h
  rw [isBlank, CharSet.contains, blanks, CharSet.holds, if_neg (by omega),
    decide_eq_false (by omega), CharSet.holds, if_neg (by omega), decide_eq_false (by omega),
    CharSet.holds, if_pos hhigh]
  rfl

/-- What may follow the digits of a number begins with a point or an exponent. -/
theorem paths_fraction :
    ∃ fraction x y, numberRegex = .seq digitsRegex fraction ∧ ∀ p, fraction.paths p =
      [.take (.single '.') x, .take ⟨[(69, 69), (101, 101)]⟩ y, .stop] :=
  ⟨_, _, _, rfl, fun _ => rfl⟩

variable {before : Option Char} {c : Char} {cs rest : List Char}

/-- What begins with digits can only take one, and then further ones. -/
theorem paths_digits (second : Regex) : ([Regex.seq digitsRegex second].flatMap
    (Regex.paths ⟨before, some c⟩)).eraseDups =
      [.take decimalDigits (.seq (Regex.star decimalDigits) second)] := rfl

theorem takeWhile_digits (second : Regex) : [Path.take decimalDigits second].takeWhile
    (· != .stop) = [.take decimalDigits second] := rfl

/-- A character up to the digits that is no point is neither a point nor an exponent. -/
theorem after?_eq_none_of_le {x y : Regex} (hc : c.toNat ≤ 57) (hpoint : c ≠ '.') : ∀ path ∈
    [Path.take (.single '.') x, .take ⟨[(69, 69), (101, 101)]⟩ y, .stop], path.after? c = none := by
  intro path hpath
  simp only [List.mem_cons, List.not_mem_nil, or_false] at hpath
  rcases hpath with rfl | rfl | rfl
  · simp [Path.after?, CharSet.contains_single, hpoint]
  · have h69 : c.toNat < 69 := by omega
    simp [Path.after?, CharSet.contains, CharSet.holds, h69]
  · rfl

/-- A number takes its digits. -/
theorem matchLength?_numberRegex (hc : c.isDigit = true) (hcs : ∀ d ∈ cs, d.isDigit = true)
    (hrest : Stops rest) :
    numberRegex.matchLength? before (c :: (cs ++ rest)) = some (cs.length + 1) := by
  obtain ⟨fraction, x, y, hnumber, hpaths⟩ := paths_fraction
  rw [hnumber, Regex.matchLength?, Regex.advance_cons_of_paths (paths_digits fraction),
    takeWhile_digits,
    Regex.afterChar_cons (contains_decimalDigits hc) (by simp)]
  simp only
  rw [Regex.advance_seq_star hpaths (by simp), Nat.zero_add, Nat.add_comm]
  · intro d hd
    obtain ⟨-, -, hpoint, -⟩ := not_isDigit_special (hcs d hd)
    exact ⟨contains_decimalDigits (hcs d hd),
      after?_eq_none_of_le (toNat_of_isDigit (hcs d hd)).2 hpoint⟩
  · intro d hd
    rcases hrest d hd with rfl | rfl
    · exact ⟨by decide +kernel, after?_eq_none_of_le (by decide) (by decide)⟩
    · exact ⟨by decide +kernel, after?_eq_none_of_le (by decide) (by decide)⟩

/-- Where no digit stands there is no number. -/
theorem matchLength?_numberRegex_eq_none (hc : decimalDigits.contains c = false) :
    numberRegex.matchLength? before (c :: rest) = none := by
  obtain ⟨fraction, -, -, hnumber, -⟩ := paths_fraction
  rw [hnumber, Regex.matchLength?, Regex.advance_cons_of_paths (paths_digits fraction),
    takeWhile_digits,
    Regex.afterChar_eq_nil (by simp [Path.after?, hc])]
  rfl

/-- What a number goes on with behind a digit, behind a point, and behind a digit behind that. -/
theorem paths_decimal :
    ∃ whole decimal loop x, (∀ p, ([numberRegex].flatMap (Regex.paths p)).eraseDups =
        [.take decimalDigits whole]) ∧
      (∀ p, whole.paths p = .take decimalDigits whole ::
        [.take (.single '.') decimal, .take ⟨[(69, 69), (101, 101)]⟩ x, .stop]) ∧
      (∀ p, ([whole].flatMap (Regex.paths p)).eraseDups = .take decimalDigits whole ::
        [.take (.single '.') decimal, .take ⟨[(69, 69), (101, 101)]⟩ x, .stop]) ∧
      (∀ p, ([decimal].flatMap (Regex.paths p)).eraseDups = [.take decimalDigits loop]) ∧
      ∀ p, loop.paths p =
        .take decimalDigits loop :: [.take ⟨[(69, 69), (101, 101)]⟩ x, .stop] :=
  ⟨_, _, _, _, fun _ => rfl, fun _ => rfl, fun _ => rfl, fun _ => rfl, fun _ => rfl⟩

/-- Digits, a point and digits are all taken. -/
theorem matchLength?_decimal (before : Option Char) {f : Char} {ds fs : List Char}
    (hds : ∀ d ∈ c :: ds, d.isDigit = true) (hfs : ∀ d ∈ f :: fs, d.isDigit = true) :
    numberRegex.matchLength? before (c :: (ds ++ '.' :: f :: fs)) =
      some (ds.length + fs.length + 3) := by
  obtain ⟨whole, decimal, loop, x, hfirst, hwhole, hpoint, hdecimal, hloop⟩ := paths_decimal
  have hdigit : ∀ d : Char, d.isDigit = true → decimalDigits.contains d = true ∧ ∀ path ∈
      [Path.take (.single '.') decimal, .take ⟨[(69, 69), (101, 101)]⟩ x, .stop],
      path.after? d = none := by
    intro d hd
    obtain ⟨-, -, hpoint, -⟩ := not_isDigit_special hd
    exact ⟨contains_decimalDigits hd, after?_eq_none_of_le (toNat_of_isDigit hd).2 hpoint⟩
  have hafter : Regex.afterChar '.' [Path.take decimalDigits whole, .take (.single '.') decimal,
      .take ⟨[(69, 69), (101, 101)]⟩ x] = [decimal] := by
    have hdot : (Path.take decimalDigits whole).after? '.' = none := by
      rw [Path.after?, show decimalDigits.contains '.' = false by decide +kernel]
      rfl
    rw [Regex.afterChar_eq, List.filterMap_cons_none hdot]
    rfl
  have hc := (hdigit c (hds c List.mem_cons_self)).1
  have hf := (hdigit f (hfs f List.mem_cons_self)).1
  -- The first digit, and those up to the point.
  rw [Regex.matchLength?, Regex.advance_cons_of_paths (hfirst _), takeWhile_digits,
    Regex.afterChar_cons hc (by simp)]
  simp only
  obtain ⟨b, m, h⟩ := Regex.exists_advance_loop hwhole (by simp)
    (fun d hd => hdigit d (hds d (List.mem_cons_of_mem c hd))) ('.' :: f :: fs)
  -- The point, and the first digit behind it.
  rw [h, Regex.advance_cons_of_paths (hpoint _),
    show [Path.take decimalDigits whole, .take (.single '.') decimal,
        .take ⟨[(69, 69), (101, 101)]⟩ x, .stop].takeWhile (· != .stop) =
      [.take decimalDigits whole, .take (.single '.') decimal,
        .take ⟨[(69, 69), (101, 101)]⟩ x] from rfl, hafter]
  simp only
  rw [Regex.advance_cons_of_paths (hdecimal _), takeWhile_digits,
    Regex.afterChar_cons hf (by simp)]
  simp only
  -- The other digits, up to the end.
  have hfs' : ∀ d ∈ fs, decimalDigits.contains d = true ∧ ∀ path ∈
      [Path.take ⟨[(69, 69), (101, 101)]⟩ x, .stop], path.after? d = none := by
    intro d hd
    obtain ⟨hd, hpaths⟩ := hdigit d (hfs d (List.mem_cons_of_mem f hd))
    exact ⟨hd, fun path hpath => hpaths path (List.mem_cons_of_mem _ hpath)⟩
  obtain ⟨b', m', h'⟩ := Regex.exists_advance_loop hloop (by simp) hfs' []
  rw [List.append_nil] at h'
  rw [h', Regex.advance_loop_stop hloop (by simp) (by simp)]
  congr 1
  omega

/-- A numeral takes its characters. -/
theorem matchLength?_numeral (before : Option Char) {word : String} (h : IsNumeral word)
    (hrest : Stops rest) :
    numberRegex.matchLength? before (word.toList ++ rest) = some word.toList.length := by
  rcases h with ⟨hne, hd⟩ | ⟨whole, fraction, ht, ⟨hne, hw⟩, hne', hf⟩
  · obtain ⟨c, cs, hl⟩ := List.exists_cons_of_ne_nil hne
    rw [hl] at hd ⊢
    exact matchLength?_numberRegex (hd c List.mem_cons_self)
      (fun d hd' => hd d (List.mem_cons_of_mem c hd')) hrest
  · obtain ⟨c, cs, rfl⟩ := List.exists_cons_of_ne_nil hne
    obtain ⟨f, fs, rfl⟩ := List.exists_cons_of_ne_nil hne'
    have hmatch := matchLength?_decimal before hw hf
    have hlength : word.toList.length = cs.length + fs.length + 3 := by
      simp only [ht, List.length_append, List.length_cons]
      omega
    rw [hlength, ht, List.cons_append]
    cases rest with
    | nil => rwa [List.append_nil]
    | cons d rest =>
      rw [Regex.matchLength?_append, hmatch]
      rcases hrest d rfl with rfl | rfl
      · decide +kernel
      · decide +kernel

/-- A name takes its characters. -/
theorem matchLength?_nameRegex (hc : nameStart.contains c = true)
    (hcs : ∀ d ∈ cs, nameRest.contains d = true) (hrest : Stops rest) :
    nameRegex.matchLength? before (c :: (cs ++ rest)) = some (cs.length + 1) := by
  have htake : rest.takeWhile nameRest.contains = [] := by
    cases rest with
    | nil => rfl
    | cons d rest =>
      refine List.takeWhile_cons_of_neg ?_
      rcases hrest d rfl with rfl | rfl <;> decide
  rw [show nameRegex = .seq (.chars nameStart) (Regex.star nameRest) from rfl,
    Regex.matchLength?_seq_star, if_pos hc, List.takeWhile_append_of_pos hcs, htake,
    List.append_nil]

/-! ## Terminals -/

namespace Terminal

/-- The symbol of the tokens that are the terminal. -/
def symbol : Terminal → Nat
  | number _ => 1
  | name _ => 2
  | closing => 3
  | opening => 4
  | sign .subtract => 5
  | sign .add => 6
  | sign .multiply => 7
  | sign .divide => 8
  | sign .power => 9

/-- The characters of a terminal. -/
def chars : Terminal → List Char
  | number text => text.toList
  | name text => text.toList
  | closing => [')']
  | opening => ['(']
  | sign op => op.sign.toList

/-- The terminal is well spelled, and ends where the text begins. -/
def EndsAt (text : List Char) : Terminal → Prop
  | number word => IsNumeral word ∧ Stops text
  | name word => IsName word ∧ Stops text
  | _ => True

theorem terminal?_eq {t : Token} (x : Terminal) (hs : t.symbol = x.symbol)
    (ht : t.text = String.ofList x.chars) : t.terminal? = some x := by
  unfold Token.terminal?
  rw [hs]
  cases x with
  | number text => simp [symbol, ht, chars]
  | name text => simp [symbol, ht, chars]
  | closing => rfl
  | opening => rfl
  | sign op => cases op <;> rfl

end Terminal

/-- The characters that are tokens of their own. -/
def signs : List (Nat × Char) :=
  [(3, ')'), (4, '('), (5, '-'), (6, '+'), (7, '*'), (8, '/'), (9, '^')]

theorem of_mem_signs : ∀ d ∈ signs, d.2.isDigit = false ∧ nameStart.contains d.2 = false := by
  decide

/-- Where no sign stands, a number or a name is looked for. -/
theorem first?_of_not_sign (hc : ∀ d ∈ signs, d.2 ≠ c) :
    calculatorRecognizer.first? before (c :: rest) =
      ((numberRegex.matchLength? before (c :: rest)).map fun n => (1, n)).or
        ((nameRegex.matchLength? before (c :: rest)).map fun n => (2, n)) := by
  have hrules : calculatorRecognizer.rules = signs.map (fun d => (d.1, .text [d.2])) ++
      [(1, .regex numberRegex), (2, .regex nameRegex)] := rfl
  have hsigns : (signs.map fun d => (d.1, Rule.text [d.2])).findSome? (fun rule =>
      (rule.2.matchLength? before (c :: rest)).map fun n => (rule.1, n)) = none := by
    rw [List.findSome?_eq_none_iff]
    intro rule hrule
    obtain ⟨d, hd, rfl⟩ := List.mem_map.mp hrule
    simp [Rule.matchLength?, hc d hd]
  rw [Recognizer.first?, hrules, List.findSome?_append, hsigns, Option.none_or,
    List.findSome?_cons, List.findSome?_cons, List.findSome?_nil]
  simp only [Rule.matchLength?]
  cases numberRegex.matchLength? before (c :: rest) with
  | some n => rfl
  | none => cases nameRegex.matchLength? before (c :: rest) <;> rfl

/-- **A terminal is found where it is written.** -/
theorem first?_chars {x : Terminal} (h : x.EndsAt rest) :
    calculatorRecognizer.first? before (x.chars ++ rest) = some (x.symbol, x.chars.length) := by
  cases x with
  | number text =>
    obtain ⟨hnumeral, hstops⟩ := h
    obtain ⟨c, cs, hl, hc⟩ := hnumeral.exists_cons
    have hmatch := matchLength?_numeral before hnumeral hstops
    rw [Terminal.chars]
    rw [hl] at hmatch ⊢
    rw [List.cons_append] at hmatch ⊢
    rw [first?_of_not_sign, hmatch]
    · rfl
    · rintro d hsign rfl
      exact Bool.false_ne_true ((of_mem_signs d hsign).1.symm.trans hc)
  | name text =>
    obtain ⟨⟨c, cs, hl, hc, hcs⟩, hstops⟩ := h
    obtain ⟨hlow, hhigh⟩ := toNat_of_nameStart hc
    rw [Terminal.chars, hl, List.cons_append, first?_of_not_sign,
      matchLength?_numberRegex_eq_none (not_contains_decimalDigits ⟨by omega, by omega⟩),
      matchLength?_nameRegex hc hcs hstops]
    · rfl
    · rintro d hd rfl
      exact Bool.false_ne_true ((of_mem_signs d hd).2.symm.trans hc)
  | closing => rfl
  | opening => rfl
  | sign op => cases op <;> rfl

/-! ## Texts -/

/-- The text spells the terminals, with blanks where one likes. -/
inductive Spells : List Char → List Terminal → Prop where
  | nil : Spells [] []
  | blank {text ts} (h : Spells text ts) : Spells (' ' :: text) ts
  | terminal {x : Terminal} {text ts} (hx : x.EndsAt text) (h : Spells text ts) :
      Spells (x.chars ++ text) (x :: ts)

/-- A terminal begins with a character that is no blank. -/
theorem exists_chars_eq_cons {x : Terminal} (h : x.EndsAt rest) :
    ∃ c cs, x.chars = c :: cs ∧ isBlank c = false := by
  cases x with
  | number text =>
    obtain ⟨hnumeral, -⟩ := h
    obtain ⟨c, cs, hl, hc⟩ := hnumeral.exists_cons
    obtain ⟨hlow, hhigh⟩ := toNat_of_isDigit hc
    exact ⟨c, cs, hl, not_isBlank ⟨by omega, by omega⟩⟩
  | name text =>
    obtain ⟨⟨c, cs, hl, hc, -⟩, -⟩ := h
    obtain ⟨hlow, hhigh⟩ := toNat_of_nameStart hc
    exact ⟨c, cs, hl, not_isBlank ⟨by omega, by omega⟩⟩
  | closing => exact ⟨_, _, rfl, by decide⟩
  | opening => exact ⟨_, _, rfl, by decide⟩
  | sign op => cases op <;> exact ⟨_, _, rfl, by decide⟩

/-- **A text that spells terminals is scanned as them.** -/
theorem terminals_of_spells {text : List Char} {ts : List Terminal} (h : Spells text ts)
    {steps : Nat} {c : Cursor} (hc : c.rest.dropWhile isBlank = text.dropWhile isBlank)
    (hsteps : text.length < steps) : Terminals (calculatorRecognizer.scanFrom steps c) ts := by
  induction h generalizing steps c with
  | nil =>
    obtain ⟨steps, rfl⟩ := Nat.exists_eq_add_of_lt hsteps
    rw [← Cursor.rest_skipBlanks] at hc
    rw [Recognizer.scanFrom_of_blank hc]
    exact ⟨rfl, rfl⟩
  | @blank text ts _ ih =>
    refine ih ?_ (Nat.lt_of_succ_lt hsteps)
    rw [hc, List.dropWhile_cons_of_pos (by decide)]
  | @terminal x text ts hx _ ih =>
    obtain ⟨d, ds, hd, hblank⟩ := exists_chars_eq_cons hx
    have hrest : c.skipBlanks.rest = x.chars ++ text := by
      rw [Cursor.rest_skipBlanks, hc, hd, List.cons_append,
        List.dropWhile_cons_of_neg (by simp [hblank])]
    have hne : c.skipBlanks.rest ≠ [] := by
      rw [hrest, hd]
      exact List.cons_ne_nil _ _
    cases steps with
    | zero => exact absurd hsteps (Nat.not_lt_zero _)
    | succ steps =>
      rw [Recognizer.scanFrom_of_first? isProgressive_calculatorRecognizer hne
        (by rw [hrest]; exact first?_chars hx)]
      have hbehind : (c.skipBlanks.advance x.chars.length).rest = text := by
        rw [Cursor.rest_advance, hrest, List.drop_left]
      have hlength : text.length < steps := by
        rw [List.length_append, hd, List.length_cons] at hsteps
        omega
      obtain ⟨htokens, hending⟩ := ih (c := c.skipBlanks.advance x.chars.length)
        (by rw [hbehind]) hlength
      refine ⟨?_, hending⟩
      rw [List.map_cons, List.map_cons, htokens]
      congr 1
      refine x.terminal?_eq rfl ?_
      rw [Recognizer.tokenAt, hrest, List.take_left]

/-! ## Names of a scan -/

/-- What the pattern of names matches is a name. -/
theorem isName_of_matchLength? {text : List Char} {n : Nat}
    (h : nameRegex.matchLength? before text = some n) : IsName (String.ofList (text.take n)) := by
  cases text with
  | nil => cases h
  | cons c rest =>
    rw [show nameRegex = .seq (.chars nameStart) (Regex.star nameRest) from rfl,
      Regex.matchLength?_seq_star] at h
    split at h
    · rename_i hc
      cases h
      have htake : rest.take (rest.takeWhile nameRest.contains).length =
          rest.takeWhile nameRest.contains := by
        calc rest.take (rest.takeWhile nameRest.contains).length
            = (rest.takeWhile nameRest.contains ++ rest.dropWhile nameRest.contains).take
                (rest.takeWhile nameRest.contains).length := by
              rw [List.takeWhile_append_dropWhile]
          _ = rest.takeWhile nameRest.contains := List.take_left
      refine ⟨c, rest.takeWhile nameRest.contains, ?_, hc, List.all_eq_true.mp List.all_takeWhile⟩
      rw [String.toList_ofList, List.take_succ_cons, htake]
    · cases h

/-- A token is what the only pattern for its symbol takes from a text. -/
theorem exists_matchLength?_of_mem {input : String} {t : Token} (rule : Rule)
    (ht : t ∈ (calculatorRecognizer.scan input).tokens)
    (honly : ∀ x ∈ calculatorRecognizer.rules, x.1 = t.symbol → x.2 = rule) :
    ∃ before chars n, rule.matchLength? before chars = some n ∧
      t.text = String.ofList (chars.take n) := by
  obtain ⟨rule', before, chars, n, hrule, hn, htext⟩ :=
    Recognizer.exists_rule_of_mem_scan isProgressive_calculatorRecognizer ht
  rw [show rule' = rule from honly _ hrule rfl] at hn
  exact ⟨before, chars, n, hn, htext⟩

/-- The names of a scan are spelled as names. -/
theorem isName_of_terminals {input text : String} {ts : List Terminal}
    (h : Terminals (calculatorRecognizer.scan input) ts) (hmem : .name text ∈ ts) :
    IsName text := by
  have hsome : some (Terminal.name text) ∈ ts.map some := List.mem_map_of_mem hmem
  rw [← h.tokens] at hsome
  obtain ⟨t, ht, hterminal⟩ := List.mem_map.mp hsome
  obtain ⟨hsymbol, rfl⟩ := Token.of_terminal?_name hterminal
  obtain ⟨before, chars, n, hn, htext⟩ :=
    exists_matchLength?_of_mem (.regex nameRegex) ht (by rw [hsymbol]; decide)
  rw [htext]
  exact isName_of_matchLength? hn

/-- The numbers of a scan have no sign. -/
theorem unsigned_of_terminals {input text : String} {ts : List Terminal}
    (h : Terminals (calculatorRecognizer.scan input) ts) (hmem : .number text ∈ ts) :
    ∀ c ∈ text.toList.head?, c ≠ '+' ∧ c ≠ '-' := by
  have hsome : some (Terminal.number text) ∈ ts.map some := List.mem_map_of_mem hmem
  rw [← h.tokens] at hsome
  obtain ⟨t, ht, hterminal⟩ := List.mem_map.mp hsome
  obtain ⟨hsymbol, rfl⟩ := Token.of_terminal?_number hterminal
  obtain ⟨before, chars, n, hn, htext⟩ :=
    exists_matchLength?_of_mem (.regex numberRegex) ht (by rw [hsymbol]; decide)
  intro c hc
  rw [htext, String.toList_ofList] at hc
  cases chars with
  | nil =>
    rw [List.take_nil] at hc
    cases hc
  | cons d rest =>
    have hd : decimalDigits.contains d = true := by
      rw [← Bool.not_eq_false]
      intro hd
      rw [Rule.matchLength?, matchLength?_numberRegex_eq_none hd] at hn
      cases hn
    cases n with
    | zero => cases hc
    | succ n =>
      cases hc
      exact ⟨by rintro rfl; revert hd; decide +kernel, by rintro rfl; revert hd; decide +kernel⟩

end Calculator

end Precedence
