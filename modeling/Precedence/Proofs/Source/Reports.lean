import Precedence.Source.Report
import Precedence.Proofs.Number.Decimals
import Precedence.Proofs.Parsing.Places
import Precedence.Proofs.Source.Positions

/-!
# Reports and the lines that they show

A report shows the line on which the span starts, without its end, and marks under it the characters
that the span covers. The end of a line is a newline or a carriage return with a newline. The marks
do not keep to that: they take a carriage return in front of a newline for a character of the line.
So they stand under the characters that are shown, except where a span covers such a carriage return
behind other characters, or starts behind it.

* `exists_lineOf`: the line of a part of a text, and `LineOf.lineText_eq`: it is the one that is
  shown.
* `length_marksUnder`: marks end with their line, but for a single caret behind it.
* `report_lines`: the three lines of a report, and when the marks are those of the line shown.
* `report_marks_return`: a report with a caret behind the end of its line.
-/

namespace Precedence.Source

open Precedence.Number

variable {text front part back lead shown ending rest : List Char} {start count n : Nat}

/-! ## Lines -/

/-- A line from its beginning on: what is shown of it, the carriage return of its end, and what
comes behind that, from the newline on. -/
structure IsLine (text shown ending rest : List Char) : Prop where
  text_eq : text = shown ++ ending ++ rest
  not_mem : '\n' ∉ shown
  head : ∀ c ∈ rest.head?, c = '\n'
  ending : ending = ['\r'] ∧ rest ≠ [] ∨ ending = [] ∧ (rest ≠ [] → shown.getLast? ≠ some '\r')

theorem exists_isLine (text : List Char) :
    ∃ ending rest, IsLine text (firstLine text) ending rest := by
  fun_induction firstLine text with
  | case1 => exact ⟨[], [], rfl, by simp, by simp, .inr ⟨rfl, by simp⟩⟩
  | case2 rest => exact ⟨[], '\n' :: rest, rfl, by simp, by simp, .inr ⟨rfl, by simp⟩⟩
  | case3 rest => exact ⟨['\r'], '\n' :: rest, rfl, by simp, by simp, .inl ⟨rfl, by simp⟩⟩
  | case4 c rest hnewline hreturn ih =>
    obtain ⟨ending, behind, htext, hnot, hhead, hending⟩ := ih
    refine ⟨ending, behind, ?_, ?_, hhead,
      hending.imp id fun ⟨hnil, hlast⟩ => ⟨hnil, fun hne => ?_⟩⟩
    · conv_lhs => rw [htext]
      rfl
    · rw [List.mem_cons, not_or]
      exact ⟨fun h => hnewline h.symm, hnot⟩
    · cases hshown : firstLine rest with
      | nil =>
        -- The newline comes right behind the character, which is then no carriage return.
        obtain ⟨d, behind, rfl⟩ := List.exists_cons_of_ne_nil hne
        obtain rfl : d = '\n' := hhead d rfl
        rw [hshown, hnil] at htext
        rintro ⟨⟩
        exact hreturn behind rfl htext
      | cons d shown =>
        rw [List.getLast?_cons_cons, ← hshown]
        exact hlast hne

/-- A character stays if neither it nor what begins with it ends the line. -/
theorem firstLine_cons {c : Char} (h : c ≠ '\n') (hreturn : c = '\r' → text.head? ≠ some '\n') :
    firstLine (c :: text) = c :: firstLine text := by
  rw [firstLine]
  · exact h
  · rintro rest rfl rfl
    exact hreturn rfl rfl

/-- What is shown of a line is the text of it. -/
theorem IsLine.firstLine_eq (h : IsLine text shown ending rest) : firstLine text = shown := by
  obtain ⟨rfl, hnot, hhead, hending⟩ := h
  induction shown with
  | nil =>
    rcases hending with ⟨rfl, hne⟩ | ⟨rfl, -⟩
    · obtain ⟨c, rest, rfl⟩ := List.exists_cons_of_ne_nil hne
      obtain rfl : c = '\n' := hhead c rfl
      rfl
    · cases rest with
      | nil => rfl
      | cons c rest =>
        obtain rfl : c = '\n' := hhead c rfl
        rfl
  | cons c shown ih =>
    rw [List.mem_cons, not_or] at hnot
    rw [List.cons_append, List.cons_append, firstLine_cons (Ne.symm hnot.1)]
    · rw [ih hnot.2]
      refine hending.imp id fun ⟨hnil, hlast⟩ => ⟨hnil, fun hne => ?_⟩
      cases shown with
      | nil => simp
      | cons d shown => simpa using hlast hne
    · rintro rfl hnewline
      cases shown with
      | nil =>
        rcases hending with ⟨rfl, -⟩ | ⟨rfl, hlast⟩
        · cases hnewline
        · refine hlast ?_ rfl
          rintro rfl
          cases hnewline
      | cons d shown =>
        obtain rfl : d = '\n' := Option.some.inj hnewline
        exact hnot.2 List.mem_cons_self

/-- A line and the carriage return of its end are what comes in front of the newline. -/
theorem IsLine.takeWhile_eq (h : IsLine text shown ending rest) :
    text.takeWhile (· ≠ '\n') = shown ++ ending := by
  have hall : ∀ c ∈ shown ++ ending, (decide (c ≠ '\n')) = true := by
    intro c hc
    rw [decide_eq_true_eq]
    rintro rfl
    rcases List.mem_append.mp hc with hc | hc
    · exact h.not_mem hc
    · rcases h.ending with ⟨hreturn, -⟩ | ⟨hnil, -⟩
      · rw [hreturn] at hc
        simp at hc
      · rw [hnil] at hc
        cases hc
  rw [h.text_eq, List.takeWhile_append_of_pos hall]
  cases rest with
  | nil => rw [List.takeWhile_nil, List.append_nil]
  | cons c rest =>
    obtain rfl : c = '\n' := h.head c rfl
    rw [List.takeWhile_cons_of_neg (by decide), List.append_nil]

/-- Behind whole lines begins the next one. -/
theorem lineText_append {before : List Char} (h : ∀ c ∈ before.getLast?, c = '\n')
    (rest : List Char) : lineText (before ++ rest) (before.count '\n') = firstLine rest := by
  induction before with
  | nil => cases rest <;> rfl
  | cons c before ih =>
    have hlast : ∀ d ∈ before.getLast?, d = '\n' := by
      intro d hd
      refine h d ?_
      cases before with
      | nil => cases hd
      | cons _ _ => rwa [List.getLast?_cons_cons]
    by_cases hc : c = '\n'
    · subst hc
      rw [List.count_cons_self, List.cons_append, lineText, if_pos rfl, ih hlast]
    · obtain ⟨k, hk⟩ : ∃ k, before.count '\n' = k + 1 := by
        refine Nat.exists_eq_add_one.mpr (List.count_pos_iff.mpr ?_)
        cases before with
        | nil => exact absurd (h c rfl) hc
        | cons d before =>
          have hne := List.cons_ne_nil d before
          rw [← hlast _ (List.getLast?_eq_getLast_of_ne_nil hne)]
          exact List.getLast_mem hne
      rw [List.count_cons_of_ne hc, hk, List.cons_append, lineText, if_neg hc, ← hk, ih hlast]

/-- The line on which the text behind `front` begins: `lead` is what stands in front of it on the
line, `shown` all that is shown of the line, and `ending` the carriage return of its end. -/
structure LineOf (front rest lead shown ending : List Char) : Prop where
  start : ∃ before, front = before ++ lead ∧ ∀ c ∈ before.getLast?, c = '\n'
  not_mem : '\n' ∉ lead
  line : ∃ behind, IsLine (lead ++ rest) shown ending behind

theorem exists_lineOf (front rest : List Char) :
    ∃ shown ending, LineOf front rest (front.rtakeWhile (· ≠ '\n')) shown ending := by
  obtain ⟨ending, behind, hline⟩ := exists_isLine (front.rtakeWhile (· ≠ '\n') ++ rest)
  refine ⟨_, ending, ⟨front.rdropWhile (· ≠ '\n'), List.rdropWhile_append_rtakeWhile.symm,
    fun c hc => ?_⟩, fun hmem => ?_, behind, hline⟩
  · obtain ⟨hne, rfl⟩ := List.mem_getLast?_eq_getLast hc
    simpa using List.rdropWhile_last_not (· ≠ '\n') front hne
  · simpa using List.mem_rtakeWhile_imp hmem

namespace LineOf

theorem line_eq (h : LineOf front rest lead shown ending) :
    lead ++ rest.takeWhile (· ≠ '\n') = shown ++ ending := by
  obtain ⟨behind, hline⟩ := h.line
  rw [← hline.takeWhile_eq, List.takeWhile_append_of_pos]
  intro c hc
  rw [decide_eq_true_eq]
  rintro rfl
  exact h.not_mem hc

theorem ending_eq (h : LineOf front rest lead shown ending) : ending = ['\r'] ∨ ending = [] := by
  obtain ⟨behind, hline⟩ := h.line
  exact hline.ending.imp And.left And.left

/-- It is the line that a report shows. -/
theorem lineText_eq (h : LineOf front rest lead shown ending) :
    lineText (front ++ rest) (front.count '\n') = shown := by
  obtain ⟨before, rfl, hbefore⟩ := h.start
  obtain ⟨behind, hline⟩ := h.line
  rw [List.count_append, List.count_eq_zero.mpr h.not_mem, Nat.add_zero, List.append_assoc,
    lineText_append hbefore, hline.firstLine_eq]

/-- The column of the text is the length of its lead. -/
theorem behind_eq (h : LineOf front rest lead shown ending) :
    Position.behind front = ⟨front.count '\n', lead.length⟩ := by
  obtain ⟨before, rfl, hbefore⟩ := h.start
  have hlead : ∀ c ∈ lead.reverse, (decide (c ≠ '\n')) = true := by
    intro c hc
    rw [decide_eq_true_eq]
    rintro rfl
    exact h.not_mem (List.mem_reverse.mp hc)
  have hstop : before.reverse.takeWhile (· ≠ '\n') = [] := by
    rw [List.getLast?_eq_head?_reverse] at hbefore
    cases hreverse : before.reverse with
    | nil => rfl
    | cons c cs =>
      rw [hreverse] at hbefore
      obtain rfl : c = '\n' := hbefore c rfl
      exact List.takeWhile_cons_of_neg (by decide)
  rw [Position.behind, List.rtakeWhile, List.reverse_append, List.takeWhile_append_of_pos hlead,
    hstop, List.append_nil, List.reverse_reverse]

end LineOf

/-! ## Marks -/

/-- The marks under the characters of a line from `start` on, as many as there are of `count`, and
one at least: as many spaces as characters stand in front of them, and then carets. -/
def marksUnder (line : List Char) (start count : Nat) : List Char :=
  List.replicate (line.take start).length ' ' ++
    List.replicate (max 1 ((line.drop start).take count).length) '^'

/-- **Marks end with their line**, but for a single caret right behind it. -/
theorem length_marksUnder (line : List Char) (start count : Nat) :
    (marksUnder line start count).length ≤ line.length ∨
      marksUnder line start count = List.replicate line.length ' ' ++ ['^'] := by
  by_cases h : start < line.length
  · left
    simp only [marksUnder, List.length_append, List.length_replicate, List.length_take,
      List.length_drop]
    omega
  · right
    rw [marksUnder, List.take_of_length_le (by omega), List.drop_of_length_le (by omega),
      List.take_nil]
    rfl

theorem marksUnder_eq_iff {line line' : List Char} {start' count' : Nat} :
    marksUnder line start count = marksUnder line' start' count' ↔
      (line.take start).length = (line'.take start').length ∧
        max 1 ((line.drop start).take count).length =
          max 1 ((line'.drop start').take count').length := by
  refine ⟨fun h => ?_, fun ⟨hspaces, hcarets⟩ => by rw [marksUnder, marksUnder, hspaces, hcarets]⟩
  have hspaces := congrArg (List.count ' ') h
  have hcarets := congrArg (List.count '^') h
  simp only [marksUnder, List.count_append, List.count_replicate] at hspaces hcarets
  exact ⟨by simpa using hspaces, by simpa using hcarets⟩

/-- A carriage return more at the end of a line changes the marks under it if and only if they begin
behind it, or begin in front of the end and go beyond it. -/
theorem marksUnder_concat_eq_iff {line : List Char} {c : Char} (h : start ≤ line.length + 1) :
    marksUnder (line ++ [c]) start count = marksUnder line start count ↔
      ¬ (line.length < start ∨ start < line.length ∧ line.length < start + count) := by
  rw [marksUnder_eq_iff]
  simp only [List.length_take, List.length_drop, List.length_append, List.length_singleton]
  omega

/-- The marks of an error stand under the line up to its newline. -/
theorem LineOf.marksUnder_eq (h : LineOf front (part ++ back) lead shown ending) :
    marksUnder (shown ++ ending) lead.length part.length =
      List.replicate lead.length ' ' ++
        List.replicate (max 1 (part.takeWhile (· ≠ '\n')).length) '^' := by
  rw [marksUnder, ← h.line_eq, List.take_left, List.drop_left, List.take_takeWhile, List.take_left]

/-! ## Reports -/

/-- The first line of a report. -/
def header (p : Position) (message : String) : String :=
  toString (p.line + 1) ++ ":" ++ toString (p.column + 1) ++ ": " ++ message

theorem not_mem_header {p : Position} {message : String} (h : '\n' ∉ message.toList) :
    '\n' ∉ (header p message).toList := by
  have hdigits : ∀ n : Nat, '\n' ∉ Nat.toDigits 10 n := fun n hmem =>
    absurd ((isDigits_toDigits n).2 _ hmem) (by decide)
  simp [header, hdigits, h]

theorem not_mem_marksUnder (line : List Char) (start count : Nat) :
    '\n' ∉ marksUnder line start count := by
  simp [marksUnder, List.mem_replicate]

/-- A report is its header, the line on which the span starts and the marks, with newlines between
them. -/
theorem toList_report {e : ParseError} (htext : e.input.toList = front ++ part ++ back)
    (hspan : e.span = ⟨byteLength front, byteLength (front ++ part)⟩)
    (h : LineOf front (part ++ back) lead shown ending) :
    e.report.toList = ['\n'].intercalate
      [(header ⟨front.count '\n', lead.length⟩ e.message).toList, shown,
        marksUnder (shown ++ ending) lead.length part.length] := by
  have hcuts : e.span.Cuts e.input.toList part := ⟨front, back, htext, by rw [hspan], by rw [hspan]⟩
  have hfragment : e.fragmentChars = part := by
    rw [ParseError.fragmentChars, hcuts.slice?_eq, Option.getD_some]
  rw [List.append_assoc] at htext
  have hstart : e.start = ⟨front.count '\n', lead.length⟩ := by
    rw [ParseError.start, hspan, Position.locate_append htext, h.behind_eq]
  have hline : lineText e.input.toList (front.count '\n') = shown := by
    rw [htext, h.lineText_eq]
  rw [h.marksUnder_eq, ParseError.report]
  simp only [hstart, hline, ParseError.underline, hfragment, header, String.toList_append,
    String.toList_ofList, List.intercalate]
  simp

/-- **What a report shows.** Its three lines are the position, counted from 1, and the message; the
line on which the span starts; and the marks for the characters of the span under that line, taken
with the carriage return of its end. These are the marks under what is shown of the line, unless the
line has a carriage return at its end and the span begins behind it, or covers it behind other
characters. Marks go beyond their line by a single caret only. -/
theorem report_lines {e : ParseError} (htext : e.input.toList = front ++ part ++ back)
    (hspan : e.span = ⟨byteLength front, byteLength (front ++ part)⟩)
    (hmessage : '\n' ∉ e.message.toList) :
    (∃ lead shown ending, LineOf front (part ++ back) lead shown ending) ∧
      ∀ lead shown ending, LineOf front (part ++ back) lead shown ending →
        let marks := marksUnder (shown ++ ending) lead.length part.length
        e.report.toList.splitOn '\n' =
            [(header ⟨front.count '\n', lead.length⟩ e.message).toList, shown, marks] ∧
          (marks = marksUnder shown lead.length part.length ↔
            ¬ (ending = ['\r'] ∧ (shown.length < lead.length ∨
              lead.length < shown.length ∧ shown.length < lead.length + part.length))) ∧
          (marks.length ≤ (shown ++ ending).length ∨
            marks = List.replicate (shown ++ ending).length ' ' ++ ['^']) := by
  refine ⟨⟨_, exists_lineOf front (part ++ back)⟩, fun lead shown ending h => ⟨?_, ?_, ?_⟩⟩
  · rw [toList_report htext hspan h]
    obtain ⟨behind, hline⟩ := h.line
    refine List.splitOn_intercalate '\n' (fun line hline' => ?_) (List.cons_ne_nil _ _)
    simp only [List.mem_cons, List.not_mem_nil, or_false] at hline'
    rcases hline' with rfl | rfl | rfl
    · exact not_mem_header hmessage
    · exact hline.not_mem
    · exact not_mem_marksUnder _ _ _
  · rcases h.ending_eq with rfl | rfl
    · have hlead : lead.length ≤ shown.length + 1 := by
        have hlength := congrArg List.length h.line_eq
        rw [List.length_append, List.length_append, List.length_singleton] at hlength
        omega
      rw [marksUnder_concat_eq_iff hlead, and_iff_right rfl]
    · rw [List.append_nil]
      exact iff_of_true rfl (by simp)
  · exact length_marksUnder _ _ _

/-- A span over the end of the second line of a text. -/
def twoLines : ParseError where
  kind := .unrecognizedInput
  message := "unrecognized input"
  input := "(é +\r\n 2 $% \n)"
  span := ⟨10, 15⟩

theorem report_lines_twoLines :
    '\n' ∉ twoLines.message.toList ∧
      LineOf "(é +\r\n 2 ".toList "$% \n)".toList " 2 ".toList " 2 $% ".toList [] ∧
      twoLines.report.toList.splitOn '\n' =
        ["2:4: unrecognized input".toList, " 2 $% ".toList, "   ^^^".toList] := by
  have hmessage : '\n' ∉ twoLines.message.toList := by decide +kernel
  have hlast : "(é +\r\n".toList.getLast? = some '\n' := by decide +kernel
  have hline : LineOf "(é +\r\n 2 ".toList "$% \n)".toList " 2 ".toList " 2 $% ".toList [] :=
    ⟨⟨"(é +\r\n".toList, by decide +kernel, fun c hc => Option.some.inj (hc.symm.trans hlast)⟩,
      by decide +kernel, ['\n', ')'], by decide +kernel, by decide +kernel, by simp,
      .inr ⟨rfl, fun _ => by decide +kernel⟩⟩
  have htext : twoLines.input.toList = "(é +\r\n 2 ".toList ++ "$% \n)".toList ++ [] := by
    decide +kernel
  obtain ⟨-, hlines⟩ := report_lines htext (by decide +kernel) hmessage
  obtain ⟨hreport, -⟩ := hlines _ _ _ (by rwa [List.append_nil])
  refine ⟨hmessage, hline, hreport.trans ?_⟩
  decide +kernel

/-- The rest of a line that no pattern matches, with the end of the line. -/
def brokenLine : ParseError where
  kind := .unrecognizedInput
  message := "unrecognized input"
  input := "#\r\n"
  span := ⟨0, 3⟩

/-- A carriage return at the end of a line has a caret, although it is not shown: one character is
shown, and two are marked. -/
theorem report_marks_return :
    LineOf [] "#\r\n".toList [] ['#'] ['\r'] ∧
      brokenLine.report = "1:1: unrecognized input\n#\n^^" ∧ marksUnder ['#'] 0 3 = ['^'] ∧
      brokenLine.report.toList.splitOn '\n' ≠
        [(header ⟨0, 0⟩ "unrecognized input").toList, ['#'], marksUnder ['#'] 0 3] := by
  refine ⟨⟨⟨[], rfl, by simp⟩, by simp, ['\n'], by decide +kernel, by decide, by simp,
    .inl ⟨rfl, by decide⟩⟩, by decide +kernel, by decide, by decide +kernel⟩

end Precedence.Source
