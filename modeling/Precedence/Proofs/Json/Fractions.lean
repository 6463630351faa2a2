import Precedence.Proofs.Exact.Obtained
import Precedence.Proofs.Json.Integers
import Precedence.Value.Rendering

/-!
# Reading fractions from JSON

A text is read as a fraction exactly if it is JSON for a list of the tag and two integers of 64 bits
that make the fraction. So fractions are read back from what they are saved as.

* `readFraction_eq_ok_iff`: the elements of the list are read one after the other.
* `ofJson_eq_ok_iff`: the texts of a fraction.
* `saved_fractions`: fractions are read back, and nothing but fractions is read.
-/

namespace Precedence.Json

open Precedence.Number

variable {text rest core ws w t : List Char} {item : Json} {c : Char}

/-! ## Blanks -/

theorem skipBlanks_append (hws : IsBlank ws) : skipBlanks (ws ++ text) = skipBlanks text := by
  induction ws with
  | nil => rfl
  | cons c ws ih =>
    have hc := hws c List.mem_cons_self
    rw [List.cons_append, skipBlanks, if_pos (by simpa [or_assoc] using hc)]
    exact ih fun d hd => hws d (List.mem_cons_of_mem c hd)

/-- The text begins with something else than a blank. -/
def BeginsFilled (text : List Char) : Prop :=
  ∃ c rest, text = c :: rest ∧ ¬ (c = ' ' ∨ c = '\n' ∨ c = '\t' ∨ c = '\r')

theorem BeginsFilled.skipBlanks_eq (h : BeginsFilled text) : skipBlanks text = text := by
  obtain ⟨c, rest, rfl, hc⟩ := h
  rw [skipBlanks, if_neg (by simpa [or_assoc] using hc)]

/-- Every text begins with the blanks that are skipped. -/
theorem exists_isBlank_append (text : List Char) :
    ∃ ws, IsBlank ws ∧ text = ws ++ skipBlanks text := by
  induction text with
  | nil => exact ⟨[], isBlank_nil, rfl⟩
  | cons c rest ih =>
    rw [skipBlanks]
    split
    · rename_i hc
      obtain ⟨ws, hws, hrest⟩ := ih
      refine ⟨c :: ws, ?_, by rw [List.cons_append, ← hrest]⟩
      intro d hd
      rcases List.mem_cons.mp hd with rfl | hd
      · simpa [or_assoc] using hc
      · exact hws d hd
    · exact ⟨[], isBlank_nil, rfl⟩

theorem skipBlanks_skipBlanks (text : List Char) :
    skipBlanks (skipBlanks text) = skipBlanks text := by
  obtain ⟨ws, hws, htext⟩ := exists_isBlank_append text
  rw [← skipBlanks_append hws, ← htext]

/-! ## Elements -/

/-- A datum begins with something else than a blank or the end of a list. -/
theorem Spells.beginsFilled (h : Spells item core) (t : List Char) :
    BeginsFilled (core ++ t) ∧ ∀ rest, core ++ t ≠ ']' :: rest := by
  cases h with
  | integer n =>
    obtain ⟨c, cs, hcons, hc⟩ := toString_append_eq_cons n t
    refine ⟨⟨c, cs, hcons, ?_⟩, fun rest => toString_append_ne n (by decide)⟩
    rintro (rfl | rfl | rfl | rfl) <;> exact absurd hc (by decide)
  | string _ => exact ⟨⟨_, _, rfl, by decide⟩, by simp⟩
  | empty _ => exact ⟨⟨_, _, rfl, by decide⟩, by simp⟩
  | list _ => exact ⟨⟨_, _, rfl, by decide⟩, by simp⟩

/-- An element of a list is behind blanks, and in front of blanks and a sign. -/
theorem exists_spellsAmidBlanks_iff (hc : c = ',' ∨ c = ']') :
    (∃ w, SpellsAmidBlanks item w ∧ text = w ++ c :: rest) ↔
      ∃ core t, Spells item core ∧ skipBlanks text = core ++ t ∧ skipBlanks t = c :: rest := by
  constructor
  · rintro ⟨_, ⟨hws, h, hws'⟩, rfl⟩
    rename_i ws core ws'
    refine ⟨core, ws' ++ c :: rest, h, ?_, ?_⟩
    · rw [List.append_assoc, List.append_assoc, skipBlanks_append hws,
        (h.beginsFilled _).1.skipBlanks_eq]
    · rw [skipBlanks_append hws']
      refine BeginsFilled.skipBlanks_eq ⟨c, rest, rfl, ?_⟩
      rcases hc with rfl | rfl <;> decide
  · rintro ⟨core, t, h, htext, ht⟩
    obtain ⟨ws, hws, hleft⟩ := exists_isBlank_append text
    obtain ⟨ws', hws', hright⟩ := exists_isBlank_append t
    refine ⟨ws ++ core ++ ws', .intro hws h hws', ?_⟩
    rw [hleft, htext, hright, ht]
    simp

/-- In front of blanks and a sign a number ends. -/
theorem endsNumber_of_skipBlanks (hc : c = ',' ∨ c = ']') (h : skipBlanks t = c :: rest) :
    EndsNumber t := by
  intro d hd
  cases t with
  | nil => cases hd
  | cons d' t =>
    cases hd
    rw [skipBlanks] at h
    split at h
    · rename_i hblank
      simp only [Bool.or_eq_true, beq_iff_eq, or_assoc] at hblank
      rcases hblank with rfl | rfl | rfl | rfl <;> decide
    · rw [(List.cons_eq_cons.mp h).1]
      rcases hc with rfl | rfl <;> decide

theorem wantString_eq_ok_iff {tag : List Char} : wantString text = .ok (tag, rest) ↔
    ∃ w, SpellsChars tag w ∧ skipBlanks text = '"' :: w ++ '"' :: rest := by
  unfold wantString
  split
  · rename_i behind htext
    rw [htext]
    cases hread : readString [] behind with
    | none =>
      have hnone : ¬ ∃ w, SpellsChars tag w ∧ behind = w ++ '"' :: rest := by
        rw [← readString_eq_some_iff, hread]
        simp
      simpa using hnone
    | some r =>
      have hsome : readString [] behind = some (tag, rest) ↔ _ := readString_eq_some_iff
      rw [hread] at hsome
      simpa using hsome
  · rename_i hquote
    simp only [reduceCtorEq, List.cons_append, false_iff, not_exists, not_and]
    exact fun w _ h => hquote _ h

/-- The first element of a list begins behind blanks. -/
theorem nextElement_true_eq_some_iff : nextElement true text = .ok (some t) ↔
    skipBlanks text = t ∧ t ≠ [] ∧ ∀ rest, t ≠ ']' :: rest := by
  unfold nextElement
  split
  · rename_i htext
    rw [htext]
    simp only [reduceCtorEq, ne_eq, false_iff, not_and]
    exact fun h hne _ => hne h.symm
  · rename_i rest htext
    rw [htext]
    simp only [Except.ok.injEq, reduceCtorEq, ne_eq, false_iff, not_and, not_forall, not_not]
    exact fun h _ => ⟨rest, h.symm⟩
  · rename_i c rest hclose htext
    rw [htext, if_pos rfl]
    simp only [Except.ok.injEq, Option.some.injEq]
    constructor
    · rintro rfl
      exact ⟨rfl, List.cons_ne_nil c rest, fun rest' h => hclose (List.cons_eq_cons.mp h).1⟩
    · exact And.left

/-- Another element begins behind blanks, a comma and blanks. -/
theorem nextElement_false_eq_some_iff : nextElement false text = .ok (some t) ↔
    ∃ rest, skipBlanks text = ',' :: rest ∧ skipBlanks rest = t ∧ t ≠ [] ∧
      ∀ rest', t ≠ ']' :: rest' := by
  unfold nextElement
  split
  · rename_i htext
    simp [htext]
  · rename_i rest htext
    simp [htext]
  · rename_i c rest hclose htext
    rw [htext, if_neg Bool.false_ne_true]
    by_cases hc : c = ','
    · subst hc
      simp only [bne_self_eq_false, Bool.false_eq_true, if_false, List.cons_eq_cons, true_and,
        exists_eq_left']
      split
      · rename_i hrest
        rw [hrest]
        simp only [reduceCtorEq, ne_eq, false_iff, not_and]
        exact fun h hne _ => hne h.symm
      · rename_i rest' hrest
        rw [hrest]
        simp only [reduceCtorEq, ne_eq, false_iff, not_and, not_forall, not_not]
        exact fun h _ => ⟨rest', h.symm⟩
      · rename_i hnil hclose'
        simp only [Except.ok.injEq, Option.some.injEq]
        constructor
        · rintro rfl
          exact ⟨rfl, hnil, hclose'⟩
        · exact And.left
    · simp [hc]

/-- The elements of a list end behind blanks. -/
theorem nextElement_eq_none_iff {first : Bool} : nextElement first text = .ok none ↔
    ∃ rest, skipBlanks text = ']' :: rest := by
  unfold nextElement
  split
  · rename_i htext
    simp [htext]
  · rename_i rest htext
    simp [htext]
  · rename_i c rest hclose htext
    have hne : ¬ ∃ rest', skipBlanks text = ']' :: rest' := by
      rintro ⟨rest', h⟩
      exact hclose (List.cons_eq_cons.mp (htext.symm.trans h)).1
    simp only [hne, iff_false]
    split
    · simp
    · split
      · simp
      · split <;> simp

theorem wantString_skipBlanks (text : List Char) :
    wantString (skipBlanks text) = wantString text := by
  rw [wantString, wantString, skipBlanks_skipBlanks]

theorem wantInteger_skipBlanks (text : List Char) :
    wantInteger (skipBlanks text) = wantInteger text := by
  rw [wantInteger, wantInteger, skipBlanks_skipBlanks]

/-- A string is read with the sign behind it exactly if it is an element there. -/
theorem string_element_iff {tag : String} (hc : c = ',' ∨ c = ']') :
    (∃ t, wantString text = .ok (tag.toList, t) ∧ skipBlanks t = c :: rest) ↔
      ∃ w, SpellsAmidBlanks (.string tag) w ∧ text = w ++ c :: rest := by
  rw [exists_spellsAmidBlanks_iff hc]
  constructor
  · rintro ⟨t, hread, ht⟩
    obtain ⟨w, hw, htext⟩ := wantString_eq_ok_iff.mp hread
    exact ⟨'"' :: w ++ ['"'], t, .string hw, by simpa using htext, ht⟩
  · rintro ⟨core, t, ⟨⟩, htext, ht⟩
    rename_i w hw
    exact ⟨t, wantString_eq_ok_iff.mpr ⟨w, hw, by simpa using htext⟩, ht⟩

/-- An integer is read with the sign behind it exactly if it is an element there and has 64 bits. -/
theorem integer_element_iff {n : Int} (hc : c = ',' ∨ c = ']') :
    (∃ t, wantInteger text = .ok (n, t) ∧ skipBlanks t = c :: rest) ↔
      Fits n ∧ ∃ w, SpellsAmidBlanks (.integer n) w ∧ text = w ++ c :: rest := by
  rw [exists_spellsAmidBlanks_iff hc]
  constructor
  · rintro ⟨t, hread, ht⟩
    obtain ⟨hn, -, htext⟩ := wantInteger_eq_ok_iff.mp hread
    exact ⟨hn, _, t, .integer n, htext, ht⟩
  · rintro ⟨hn, core, t, ⟨⟩, htext, ht⟩
    exact ⟨t, wantInteger_eq_ok_iff.mpr ⟨hn, endsNumber_of_skipBlanks hc ht, htext⟩, ht⟩

/-! ## Fractions -/

variable {q : Rational} {behind : List Char}

open Rational (reduce)

/-- The elements of a fraction are read one after the other, with commas between them. -/
theorem readFraction_eq_ok_iff_elements : readFraction text = .ok (q, rest) ↔
    ∃ numer denom, reduce numer denom = .ok q ∧ (∃ closing, skipBlanks rest = ']' :: closing) ∧
      ∃ t y, (wantString text = .ok (['/'], t) ∧ skipBlanks t = ',' :: y) ∧
      ∃ u z, (wantInteger y = .ok (numer, u) ∧ skipBlanks u = ',' :: z) ∧
        wantInteger z = .ok (denom, rest) := by
  rw [readFraction_eq_ok_iff]
  constructor
  · rintro ⟨first, t, second, numer, u, third, denom, hfirst, htag, hsecond, hnumer, hthird,
      hdenom, hend, hreduce⟩
    obtain ⟨rfl, -⟩ := nextElement_true_eq_some_iff.mp hfirst
    obtain ⟨y, ht, rfl, -⟩ := nextElement_false_eq_some_iff.mp hsecond
    obtain ⟨z, hu, rfl, -⟩ := nextElement_false_eq_some_iff.mp hthird
    rw [wantString_skipBlanks] at htag
    rw [wantInteger_skipBlanks] at hnumer hdenom
    exact ⟨numer, denom, hreduce, nextElement_eq_none_iff.mp hend, t, y, ⟨htag, ht⟩, u, z,
      ⟨hnumer, hu⟩, hdenom⟩
  · rintro ⟨numer, denom, hreduce, hend, t, y, ⟨htag, ht⟩, u, z, ⟨hnumer, hu⟩, hdenom⟩
    have hstring := wantString_eq_ok_iff.mp htag
    -- What is read as an element begins neither with the end of the text nor with that of the list.
    have hinteger : ∀ {text n rest}, wantInteger text = .ok (n, rest) →
        skipBlanks text ≠ [] ∧ ∀ rest', skipBlanks text ≠ ']' :: rest' := by
      intro text n rest h
      obtain ⟨-, -, htext⟩ := wantInteger_eq_ok_iff.mp h
      rw [htext]
      obtain ⟨⟨c, cs, hcons, -⟩, hclose⟩ := (Spells.integer n).beginsFilled rest
      exact ⟨hcons ▸ List.cons_ne_nil c cs, hclose⟩
    refine ⟨skipBlanks text, t, skipBlanks y, numer, u, skipBlanks z, denom, ?_, ?_, ?_, ?_, ?_,
      ?_, nextElement_eq_none_iff.mpr hend, hreduce⟩
    · obtain ⟨w, -, htext⟩ := hstring
      exact nextElement_true_eq_some_iff.mpr ⟨rfl, by simp [htext], by simp [htext]⟩
    · rwa [wantString_skipBlanks]
    · exact nextElement_false_eq_some_iff.mpr ⟨y, ht, rfl, hinteger hnumer⟩
    · rwa [wantInteger_skipBlanks]
    · exact nextElement_false_eq_some_iff.mpr ⟨z, hu, rfl, hinteger hdenom⟩
    · rwa [wantInteger_skipBlanks]

/-- The list that a fraction with the given parts is saved as. -/
def fractionItems (numer denom : Int) : List Json :=
  [.string "/", .integer numer, .integer denom]

/-- What stands between the brackets of a fraction. -/
theorem spellsItems_fraction_iff {numer denom : Int} :
    (∃ w, SpellsItems (fractionItems numer denom) w ∧ text = w ++ ']' :: behind) ↔
      ∃ y, (∃ w, SpellsAmidBlanks (.string "/") w ∧ text = w ++ ',' :: y) ∧
      ∃ z, (∃ w, SpellsAmidBlanks (.integer numer) w ∧ y = w ++ ',' :: z) ∧
        ∃ w, SpellsAmidBlanks (.integer denom) w ∧ z = w ++ ']' :: behind := by
  constructor
  · rintro ⟨_, ⟨⟩, rfl⟩
    rename_i w ws h hs
    cases hs
    rename_i w' ws' h' hs'
    cases hs' with
    | last h'' =>
      exact ⟨w' ++ ',' :: ws' ++ ']' :: behind, ⟨w, h, by simp⟩, ws' ++ ']' :: behind,
        ⟨w', h', by simp⟩, ws', h'', rfl⟩
    | cons _ hs'' => cases hs''
  · rintro ⟨y, ⟨w, h, rfl⟩, z, ⟨w', h', rfl⟩, w'', h'', rfl⟩
    exact ⟨w ++ ',' :: (w' ++ ',' :: w''), .cons h (.cons h' (.last h'')), by simp⟩

/-- A fraction is read up to its closing bracket exactly if its list is spelled before it. -/
theorem exists_readFraction_iff :
    (∃ rest, readFraction text = .ok (q, rest) ∧ skipBlanks rest = ']' :: behind) ↔
      ∃ numer denom, Fits numer ∧ Fits denom ∧ reduce numer denom = .ok q ∧
        ∃ w, SpellsItems (fractionItems numer denom) w ∧ text = w ++ ']' :: behind := by
  have htag : ['/'] = ("/" : String).toList := rfl
  simp only [readFraction_eq_ok_iff_elements, spellsItems_fraction_iff, htag]
  constructor
  · rintro ⟨rest, ⟨numer, denom, hreduce, -, t, y, htag, u, z, hnumer, hdenom⟩, hrest⟩
    have hstring := (string_element_iff (.inl rfl)).mp ⟨t, htag⟩
    obtain ⟨hn, hinteger⟩ := (integer_element_iff (.inl rfl)).mp ⟨u, hnumer⟩
    obtain ⟨hd, hlast⟩ := (integer_element_iff (.inr rfl)).mp ⟨rest, hdenom, hrest⟩
    exact ⟨numer, denom, hn, hd, hreduce, y, hstring, z, hinteger, hlast⟩
  · rintro ⟨numer, denom, hn, hd, hreduce, y, hstring, z, hinteger, hlast⟩
    obtain ⟨t, htag⟩ := (string_element_iff (.inl rfl)).mpr hstring
    obtain ⟨u, hnumer⟩ := (integer_element_iff (.inl rfl)).mpr ⟨hn, hinteger⟩
    obtain ⟨rest, hdenom, hrest⟩ := (integer_element_iff (.inr rfl)).mpr ⟨hd, hlast⟩
    exact ⟨rest, ⟨numer, denom, hreduce, ⟨behind, hrest⟩, t, y, htag, u, z, hnumer, hdenom⟩, hrest⟩

theorem isBlank_of_skipBlanks (h : skipBlanks text = []) : IsBlank text := by
  obtain ⟨ws, hws, htext⟩ := exists_isBlank_append text
  rw [h, List.append_nil] at htext
  rwa [htext]

theorem skipBlanks_of_isBlank (h : IsBlank text) : skipBlanks text = [] := by
  rw [← List.append_nil text, skipBlanks_append h]
  rfl

/-- A text is read as a fraction exactly if it is JSON for the list of a fraction. -/
theorem readWhole_eq_ok_iff_spells : readWhole text = .ok q ↔
    ∃ numer denom, SpellsAmidBlanks (.list (fractionItems numer denom)) text ∧ Fits numer ∧
      Fits denom ∧ reduce numer denom = .ok q := by
  rw [readWhole_eq_ok_iff]
  constructor
  · rintro ⟨inner, rest, behind, htext, hfraction, hrest, hbehind⟩
    obtain ⟨numer, denom, hn, hd, hreduce, w, hw, rfl⟩ :=
      exists_readFraction_iff.mp ⟨rest, hfraction, hrest⟩
    obtain ⟨ws, hws, hleft⟩ := exists_isBlank_append text
    have hspelled := SpellsAmidBlanks.intro hws (.list hw) (isBlank_of_skipBlanks hbehind)
    refine ⟨numer, denom, ?_, hn, hd, hreduce⟩
    rw [hleft, htext]
    simpa using hspelled
  · rintro ⟨numer, denom, ⟨hws, hspells, hws'⟩, hn, hd, hreduce⟩
    rename_i ws core ws'
    cases hspells
    rename_i w hw
    obtain ⟨rest, hfraction, hrest⟩ := exists_readFraction_iff.mpr
      ⟨numer, denom, hn, hd, hreduce, w, hw, (rfl : w ++ ']' :: ws' = _)⟩
    refine ⟨w ++ ']' :: ws', rest, ws', ?_, hfraction, hrest, skipBlanks_of_isBlank hws'⟩
    rw [List.append_assoc, skipBlanks_append hws,
      ((Spells.list hw).beginsFilled ws').1.skipBlanks_eq]
    simp

end Precedence.Json

namespace Precedence.Rational

open Precedence.Number Json

/-- What a fraction is saved as is JSON for its list. -/
theorem isTextOf_data (q : Rational) :
    IsTextOf q.data.text (.list (fractionItems q.numer q.denom)) := by
  have hexact : IsExact (.list (fractionItems q.numer q.denom)) := by
    refine .list fun item hitem => ?_
    simp only [fractionItems, List.mem_cons, List.not_mem_nil, or_false] at hitem
    rcases hitem with rfl | rfl | rfl
    · exact .string "/"
    · exact .integer q.numer
    · exact .integer q.denom
  have hspells := (spells_write hexact).amidBlanks
  rwa [IsTextOf, Json.text, String.toList_ofList]

theorem denom_ne_zero_of_reduce {numer denom : Int} {q : Rational}
    (h : reduce numer denom = .ok q) : denom ≠ 0 := by
  rintro rfl
  cases h

/-- **Fractions are read back, and nothing but fractions is read.** Whatever fraction can be made is
read from what it is saved as. A text is read as a fraction exactly if it is JSON for a list of the
tag and two integers of 64 bits of which the second one is not zero, and if these make the
fraction. -/
theorem read_as_saved :
    (∀ q : Rational, (Exact.rational q).Obtained → ofJson q.data.text = .ok q) ∧
    ∀ (text : String) (q : Rational), ofJson text = .ok q ↔
      ∃ numer denom : Int,
        IsTextOf text (.list [.string "/", .integer numer, .integer denom]) ∧
        Fits numer ∧ Fits denom ∧ denom ≠ 0 ∧ reduce numer denom = .ok q := by
  constructor
  · intro q hq
    have hreduced : q.IsReduced := hq.isReduced
    exact readWhole_eq_ok_iff_spells.mpr ⟨q.numer, q.denom, q.isTextOf_data, hreduced.numer_fits,
      hreduced.denom_fits, hreduced.reduce_eq_ok⟩
  · intro text q
    refine readWhole_eq_ok_iff_spells.trans ?_
    constructor
    · rintro ⟨numer, denom, htext, hn, hd, hreduce⟩
      exact ⟨numer, denom, htext, hn, hd, denom_ne_zero_of_reduce hreduce, hreduce⟩
    · rintro ⟨numer, denom, htext, hn, hd, -, hreduce⟩
      exact ⟨numer, denom, htext, hn, hd, hreduce⟩

/-- A fraction that is not in lowest terms, with blanks and a tag that is spelled by its number. -/
theorem read_as_saved_spelled :
    (Exact.rational ⟨-3, 4⟩).Obtained ∧ ofJson (data ⟨-3, 4⟩).text = .ok ⟨-3, 4⟩ ∧
      ofJson " [\"\\u002f\" , 6,-8]" = .ok ⟨-3, 4⟩ := by
  have hobtained : (Exact.rational ⟨-3, 4⟩).Obtained :=
    .reduce (n := 6) (d := -8) (by decide) (by decide) (by decide)
  have hblank : IsBlank [' '] := by simp [IsBlank]
  have hslash : SpellsChars ("/" : String).toList ['\\', 'u', '0', '0', '2', 'f'] :=
    .cons (.unit (n := 0x2f) (by decide) (by decide)) .nil
  have htag : SpellsAmidBlanks (.string "/") ['"', '\\', 'u', '0', '0', '2', 'f', '"', ' '] :=
    .intro isBlank_nil (.string hslash) hblank
  have hnumer : SpellsAmidBlanks (.integer 6) [' ', '6'] :=
    .intro hblank (.integer 6) isBlank_nil
  have hdenom : SpellsAmidBlanks (.integer (-8)) ['-', '8'] :=
    .intro isBlank_nil (.integer (-8)) isBlank_nil
  have htext : IsTextOf " [\"\\u002f\" , 6,-8]" (.list (fractionItems 6 (-8))) :=
    .intro hblank (.list (.cons htag (.cons hnumer (.last hdenom)))) isBlank_nil
  exact ⟨hobtained, read_as_saved.1 _ hobtained,
    (read_as_saved.2 _ _).mpr ⟨6, -8, htext, by decide, by decide, by decide, by decide⟩⟩

end Precedence.Rational
