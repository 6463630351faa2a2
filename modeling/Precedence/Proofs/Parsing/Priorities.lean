import Mathlib.Data.List.Perm.Basic
import Precedence.Proofs.Parsing.Partitions

/-!
# Which pattern decides

Patterns compete for the beginning of a text. A recognizer tries them in a fixed order and takes the
first that matches. `Prefers` says without any order of literal texts what that comes to: the longest
literal text that the text begins with, or else the first of the token classes that matches.

* `pairwise_literals`: literal texts are tried from the longest to the shortest.
* `Prefers.unique`: the literal texts as a set, and the token classes in their order, leave no choice.
* `exists_prefers_of_first?`, `prefers_of_first?_eq_none`: what a recognizer finds first is what they
  prefer.
* `exists_ofEntries`: nor does it depend on the order of literal texts whether there is a recognizer.
* `IsRenumbered.scan`: recognizers that find the same under other indices scan alike.
-/

namespace Precedence

open Precedence.Source Precedence.Pattern Precedence.Text

namespace Recognizer

variable {es : List Entry} {r : Recognizer} {index i n : Nat} {before : Option Char}
variable {text : List Char} {isLiteral : String → Prop} {ranked : List (String × String)}

/-- What is preferred at the beginning of a text: a symbol, by its id, and the number of characters
that it takes. A token class is an id with a regular expression. -/
inductive Prefers (isLiteral : String → Prop) (ranked : List (String × String))
    (before : Option Char) (text : List Char) : Option (String × Nat) → Prop
  /-- The longest of the literal texts that the text begins with. -/
  | literal {own : String} (hown : isLiteral own) (hstart : own.toList <+: text)
    (hlongest : ∀ other, isLiteral other → other.toList <+: text →
      other.toList <+: own.toList) :
    Prefers isLiteral ranked before text (some (own, own.toList.length))
  /-- If there is none, the first token class that matches, as far as it does. -/
  | tokenClass {id source : String} {n : Nat} {earlier later : List (String × String)}
    (hno : ∀ own, isLiteral own → ¬ own.toList <+: text)
    (hclasses : ranked = earlier ++ (id, source) :: later)
    (hearlier : ∀ x ∈ earlier, (TokenPattern.regex x.2).matchLength? before text = none)
    (hmatch : (TokenPattern.regex source).matchLength? before text = some n) :
    Prefers isLiteral ranked before text (some (id, n))
  | nothing (hno : ∀ own, isLiteral own → ¬ own.toList <+: text)
    (hnone : ∀ x ∈ ranked, (TokenPattern.regex x.2).matchLength? before text = none) :
    Prefers isLiteral ranked before text none

/-- The token class that is preferred among those of a list, and what it takes. -/
def firstClass? (ranked : List (String × String)) (before : Option Char)
    (text : List Char) : Option (String × Nat) :=
  ranked.findSome? fun x =>
    ((TokenPattern.regex x.2).matchLength? before text).map fun n => (x.1, n)

theorem firstClass?_eq_none_iff :
    firstClass? ranked before text = none ↔
      ∀ x ∈ ranked, (TokenPattern.regex x.2).matchLength? before text = none := by
  simp [firstClass?]

theorem firstClass?_eq_some_iff {id : String} :
    firstClass? ranked before text = some (id, n) ↔
      ∃ earlier source later, ranked = earlier ++ (id, source) :: later ∧
        (∀ x ∈ earlier, (TokenPattern.regex x.2).matchLength? before text = none) ∧
        (TokenPattern.regex source).matchLength? before text = some n := by
  rw [firstClass?, List.findSome?_eq_some_iff]
  constructor
  · rintro ⟨earlier, ⟨id', source⟩, later, hclasses, hmatch, hearlier⟩
    obtain ⟨m, hm, hid⟩ := Option.map_eq_some_iff.mp hmatch
    cases hid
    exact ⟨earlier, source, later, hclasses, by simpa using hearlier, hm⟩
  · rintro ⟨earlier, source, later, hclasses, hearlier, hmatch⟩
    exact ⟨earlier, (id, source), later, hclasses, by rw [hmatch]; rfl, by simpa using hearlier⟩

/-- **There is no choice** but the order of the token classes. -/
theorem Prefers.unique {x y : Option (String × Nat)}
    (h : Prefers isLiteral ranked before text x)
    (h' : Prefers isLiteral ranked before text y) : x = y := by
  cases h with
  | @literal own hown hstart hlongest =>
    cases h' with
    | @literal own' hown' hstart' hlongest' =>
      have hle := (hlongest own' hown' hstart').length_le
      have heq := (hlongest' own hown hstart).eq_of_length_le hle
      rw [String.toList_inj.mp heq]
    | tokenClass hno => exact absurd hstart (hno own hown)
    | nothing hno => exact absurd hstart (hno own hown)
  | tokenClass hno hclasses hearlier hmatch =>
    have hfirst := firstClass?_eq_some_iff.mpr ⟨_, _, _, hclasses, hearlier, hmatch⟩
    cases h' with
    | literal hown' hstart' => exact absurd hstart' (hno _ hown')
    | tokenClass _ hclasses' hearlier' hmatch' =>
      rw [← hfirst]
      exact firstClass?_eq_some_iff.mpr ⟨_, _, _, hclasses', hearlier', hmatch'⟩
    | nothing _ hnone => exact hfirst.symm.trans (firstClass?_eq_none_iff.mpr hnone)
  | nothing hno hnone =>
    cases h' with
    | literal hown' hstart' => exact absurd hstart' (hno _ hown')
    | tokenClass _ hclasses' hearlier' hmatch' =>
      rw [← firstClass?_eq_none_iff.mpr hnone]
      exact firstClass?_eq_some_iff.mpr ⟨_, _, _, hclasses', hearlier', hmatch'⟩
    | nothing => rfl

/-! ## Literal texts -/

/-- The first of two literal texts is at least as long as the second one. -/
def IsBefore (a b : Nat × List Char) : Prop :=
  byteLength b.2 ≤ byteLength a.2

theorem pairwise_insertLiteral {l : List (Nat × List Char)} (h : l.Pairwise IsBefore)
    (symbol : Nat) (chars : List Char) : (insertLiteral symbol chars l).Pairwise IsBefore := by
  induction l with
  | nil => exact List.pairwise_singleton _ _
  | cons y l ih =>
    obtain ⟨hy, hl⟩ := List.pairwise_cons.mp h
    rw [insertLiteral]
    split
    · rename_i hle
      refine List.pairwise_cons.mpr ⟨fun x hx => ?_, ih hl⟩
      rcases mem_insertLiteral.mp hx with rfl | hx
      · exact hle
      · exact hy x hx
    · rename_i hlt
      refine List.pairwise_cons.mpr ⟨fun x hx => ?_, h⟩
      have hlonger : byteLength y.2 ≤ byteLength chars := Nat.le_of_lt (Nat.not_le.mp hlt)
      rcases List.mem_cons.mp hx with rfl | hx
      · exact hlonger
      · exact Nat.le_trans (hy x hx) hlonger

/-- **Literal texts are tried from the longest to the shortest.** -/
theorem pairwise_literals {sofar : List (Nat × List Char)} (h : sofar.Pairwise IsBefore) :
    (literals index sofar es).Pairwise IsBefore := by
  induction es generalizing index sofar with
  | nil => exact h
  | cons e es ih =>
    rw [literals]
    split
    · exact ih (pairwise_insertLiteral h _ _)
    · exact ih h

/-- Of two beginnings of a text the longer one begins with the other. -/
theorem prefix_of_byteLength_le {a b : List Char} (ha : a <+: text) (hb : b <+: text)
    (h : byteLength a ≤ byteLength b) : a <+: b := by
  rcases List.prefix_or_prefix_of_prefix ha hb with hab | hba
  · exact hab
  · obtain ⟨rest, rfl⟩ := hba
    cases rest with
    | nil => simp
    | cons x rest =>
      have hpos := Cursor.byteLength_pos (List.cons_ne_nil x rest)
      rw [byteLength_append] at h
      omega

variable {texts : List (Nat × List Char)}

/-- What literal texts find, that are tried one after the other. -/
def firstText? (texts : List (Nat × List Char)) (text : List Char) : Option (Nat × Nat) :=
  texts.findSome? fun x => if x.2.isPrefixOf text then some (x.1, x.2.length) else none

theorem firstText?_eq_none (h : firstText? texts text = none) :
    ∀ x ∈ texts, ¬ x.2 <+: text := by
  simpa [firstText?] using h

/-- The literal text that is found is the longest one. -/
theorem exists_of_firstText? (hsorted : texts.Pairwise IsBefore)
    (h : firstText? texts text = some (i, n)) :
    ∃ chars, (i, chars) ∈ texts ∧ n = chars.length ∧ chars <+: text ∧
      ∀ x ∈ texts, x.2 <+: text → x.2 <+: chars := by
  obtain ⟨earlier, ⟨j, chars⟩, later, rfl, hfound, hearlier⟩ := List.findSome?_eq_some_iff.mp h
  obtain ⟨hstart, hi⟩ := Option.ite_none_right_eq_some.mp hfound
  cases hi
  rw [List.isPrefixOf_iff_prefix] at hstart
  refine ⟨chars, by simp, rfl, hstart, fun x hx hxstart => ?_⟩
  rcases List.mem_append.mp hx with hx | hx
  · have hnot := hearlier x hx
    simp [List.isPrefixOf_iff_prefix, hxstart] at hnot
  · refine prefix_of_byteLength_le hxstart hstart ?_
    rcases List.mem_cons.mp hx with rfl | hx
    · exact Nat.le_refl _
    · exact (List.pairwise_cons.mp (List.pairwise_append.mp hsorted).2.1).1 x hx

/-! ## Tables -/

/-- The literal texts of a table. -/
def HasLiteral (es : List Entry) (own : String) : Prop :=
  ∃ e ∈ es, e.pattern? = some (.literal own)

/-- The token classes of a table, in its order. -/
def tokenClasses (es : List Entry) : List (String × String) :=
  es.filterMap fun e =>
    match e.pattern? with
    | some (.regex source) => some (e.id, source)
    | _ => none

theorem tokenClasses_cons_regex {e : Entry} {source : String}
    (hp : e.pattern? = some (.regex source)) :
    tokenClasses (e :: es) = (e.id, source) :: tokenClasses es := by
  simp [tokenClasses, hp]

theorem tokenClasses_cons_other {e : Entry} (hp : ∀ source, e.pattern? ≠ some (.regex source)) :
    tokenClasses (e :: es) = tokenClasses es := by
  rw [tokenClasses, List.filterMap_cons]
  split
  · rfl
  · rename_i hsome
    split at hsome
    · rename_i hregex
      exact absurd hregex (hp _)
    · cases hsome

theorem mem_tokenClasses {id source : String} :
    (id, source) ∈ tokenClasses es ↔ ∃ e ∈ es, e.pattern? = some (.regex source) ∧ e.id = id := by
  rw [tokenClasses, List.mem_filterMap]
  refine exists_congr fun e => and_congr_right fun _ => ?_
  split <;> simp_all [and_comm]

/-- What the compiled token classes of a table find. -/
theorem exists_of_findSome?_classes {regexes : List (Nat × Regex)}
    (hc : classes index es = .ok regexes)
    (h : (regexes.findSome? fun x => (x.2.matchLength? before text).map fun n => (x.1, n)) =
      some (i, n)) :
    ∃ k e, i = index + k ∧ es[k]? = some e ∧
      firstClass? (tokenClasses es) before text = some (e.id, n) := by
  induction es generalizing index regexes with
  | nil =>
    cases hc
    cases h
  | cons e es ih =>
    rw [classes] at hc
    split at hc
    · rename_i source hp
      obtain ⟨regex, hregex, hc⟩ := bind_eq_ok hc
      obtain ⟨others, ho, hc⟩ := bind_eq_ok hc
      cases hc
      have hmatch : (TokenPattern.regex source).matchLength? before text =
          regex.matchLength? before text := by
        rw [TokenPattern.matchLength?, TokenPattern.rule?, (checkRegex_eq_ok_iff.mp hregex).1]
        rfl
      rw [tokenClasses_cons_regex hp, firstClass?, List.findSome?_cons, hmatch]
      rw [List.findSome?_cons] at h
      cases hm : regex.matchLength? before text with
      | some m =>
        rw [hm] at h
        cases h
        exact ⟨0, e, rfl, rfl, rfl⟩
      | none =>
        rw [hm] at h
        obtain ⟨k, e', rfl, he', hfirst⟩ := ih ho h
        exact ⟨k + 1, e', by omega, he', hfirst⟩
    · rename_i hp
      obtain ⟨k, e', rfl, he', hfirst⟩ := ih hc h
      rw [tokenClasses_cons_other hp]
      exact ⟨k + 1, e', by omega, he', hfirst⟩

theorem findSome?_classes_eq_none {regexes : List (Nat × Regex)}
    (hc : classes index es = .ok regexes)
    (h : (regexes.findSome? fun x => (x.2.matchLength? before text).map fun n => (x.1, n)) =
      none) : firstClass? (tokenClasses es) before text = none := by
  refine firstClass?_eq_none_iff.mpr fun x hx => ?_
  obtain ⟨e, he, hp, -⟩ := mem_tokenClasses.mp hx
  obtain ⟨k, hk⟩ := List.mem_iff_getElem?.mp he
  have hat : patternAt? es k = some (.regex x.2) := by rw [patternAt?, hk, Option.bind_some, hp]
  obtain ⟨regex, hregex, -⟩ := exists_regex_of_classes hc hat
  have hmem := (mem_classes hc).mpr ⟨k, rfl, x.2, hat, hregex⟩
  have hnone := List.findSome?_eq_none_iff.mp h _ hmem
  rw [TokenPattern.matchLength?, TokenPattern.rule?, hregex]
  exact Option.map_eq_none_iff.mp hnone

theorem ofEntries_of_classes {regexes : List (Nat × Regex)} (hc : classes 0 es = .ok regexes) :
    ofEntries es =
      if Regex.greatestWeight < weight (literals 0 [] es) regexes then .error .tooLarge
      else .ok ⟨(literals 0 [] es).map (fun t => (t.1, .text t.2)) ++
        regexes.map fun t => (t.1, .regex t.2)⟩ := by
  rw [ofEntries, hc]
  rfl

/-- What a recognizer tries first are the literal texts of its table. -/
theorem exists_first?_eq (h : ofEntries es = .ok r) :
    ∃ regexes, classes 0 es = .ok regexes ∧ ∀ before text, r.first? before text =
      (firstText? (literals 0 [] es) text).or
        (regexes.findSome? fun x => (x.2.matchLength? before text).map fun n => (x.1, n)) := by
  obtain ⟨regexes, hc, -⟩ := bind_eq_ok h
  rw [ofEntries_of_classes hc] at h
  split at h
  · cases h
  cases h
  refine ⟨regexes, hc, fun before text => ?_⟩
  rw [first?, List.findSome?_append, List.findSome?_map, List.findSome?_map]
  congr 2
  funext x
  rw [Function.comp, Rule.matchLength?]
  split <;> rfl

theorem HasLiteral.exists_mem_literals {own : String} (h : HasLiteral es own) :
    ∃ k, (k, own.toList) ∈ literals 0 [] es := by
  obtain ⟨e, he, hp⟩ := h
  obtain ⟨k, hk⟩ := List.mem_iff_getElem?.mp he
  have hat : patternAt? es k = some (.literal own) := by rw [patternAt?, hk, Option.bind_some, hp]
  exact ⟨k, mem_literals.mpr (.inr ⟨k, (Nat.zero_add k).symm, own, hat, rfl⟩)⟩

theorem not_prefix_of_firstText?_eq_none (h : firstText? (literals 0 [] es) text = none) :
    ∀ own, HasLiteral es own → ¬ own.toList <+: text := by
  intro own hown
  obtain ⟨k, hk⟩ := hown.exists_mem_literals
  exact firstText?_eq_none h _ hk

/-- **What is found first is preferred,** if every literal text is the id of its symbol. -/
theorem exists_prefers_of_first? (h : ofEntries es = .ok r)
    (hown : ∀ e ∈ es, ∀ own, e.pattern? = some (.literal own) → own = e.id)
    (hf : r.first? before text = some (i, n)) :
    ∃ e, es[i]? = some e ∧
      Prefers (HasLiteral es) (tokenClasses es) before text (some (e.id, n)) := by
  obtain ⟨regexes, hc, hfirst⟩ := exists_first?_eq h
  rw [hfirst] at hf
  cases htext : firstText? (literals 0 [] es) text with
  | some m =>
    rw [htext] at hf
    cases hf
    obtain ⟨chars, hmem, rfl, hstart, hlongest⟩ :=
      exists_of_firstText? (pairwise_literals .nil) htext
    rcases mem_literals.mp hmem with hmem | ⟨k, hk, own, hat, rfl⟩
    · exact absurd hmem List.not_mem_nil
    obtain ⟨e, he, hp⟩ := Option.bind_eq_some_iff.mp hat
    have htable := List.mem_of_getElem? he
    rw [Nat.zero_add] at hk
    subst hk
    obtain rfl := hown e htable own hp
    refine ⟨e, he, .literal ⟨e, htable, hp⟩ hstart fun other hother hstart => ?_⟩
    obtain ⟨k', hk'⟩ := hother.exists_mem_literals
    exact hlongest _ hk' hstart
  | none =>
    rw [htext, Option.none_or] at hf
    obtain ⟨k, e, hk, he, hclass⟩ := exists_of_findSome?_classes hc hf
    obtain ⟨earlier, source, later, hclasses, hearlier, hmatch⟩ := firstClass?_eq_some_iff.mp hclass
    rw [Nat.zero_add] at hk
    subst hk
    exact ⟨e, he,
      .tokenClass (not_prefix_of_firstText?_eq_none htext) hclasses hearlier hmatch⟩

theorem prefers_of_first?_eq_none (h : ofEntries es = .ok r) (hf : r.first? before text = none) :
    Prefers (HasLiteral es) (tokenClasses es) before text none := by
  obtain ⟨regexes, hc, hfirst⟩ := exists_first?_eq h
  rw [hfirst, Option.or_eq_none_iff] at hf
  exact .nothing (not_prefix_of_firstText?_eq_none hf.1)
    (firstClass?_eq_none_iff.mp (findSome?_classes_eq_none hc hf.2))

/-! ## Whether there is a recognizer -/

/-- The characters of the literal texts of a table, in its order. -/
def ownTexts (es : List Entry) : List (List Char) :=
  es.filterMap fun e =>
    match e.pattern? with
    | some (.literal own) => some own.toList
    | _ => none

theorem insertLiteral_perm (symbol : Nat) (chars : List Char) (l : List (Nat × List Char)) :
    (insertLiteral symbol chars l).Perm ((symbol, chars) :: l) := by
  induction l with
  | nil => exact .refl _
  | cons y l ih =>
    rw [insertLiteral]
    split
    · exact (ih.cons y).trans (.swap _ _ _)
    · exact .refl _

theorem literals_perm (index : Nat) (sofar : List (Nat × List Char)) (es : List Entry) :
    ((literals index sofar es).map (·.2)).Perm (sofar.map (·.2) ++ ownTexts es) := by
  induction es generalizing index sofar with
  | nil =>
    rw [literals, ownTexts, List.filterMap_nil, List.append_nil]
  | cons e es ih =>
    rcases hp : e.pattern? with _ | own | source
    · have hown : ownTexts (e :: es) = ownTexts es := by simp [ownTexts, hp]
      simp only [literals, hp, hown]
      exact ih _ _
    · have hown : ownTexts (e :: es) = own.toList :: ownTexts es := by simp [ownTexts, hp]
      simp only [literals, hp, hown]
      refine (ih _ _).trans (.trans (.append_right _ ((insertLiteral_perm _ _ _).map _)) ?_)
      exact List.perm_middle.symm
    · have hown : ownTexts (e :: es) = ownTexts es := by simp [ownTexts, hp]
      simp only [literals, hp, hown]
      exact ih _ _

/-- The token classes of a table are compiled one after the other, wherever they stand in it. -/
theorem map_classes (index : Nat) (es : List Entry) : (classes index es).map (·.map (·.2)) =
    (tokenClasses es).mapM fun x => checkRegex x.1 x.2 := by
  induction es generalizing index with
  | nil => rfl
  | cons e es ih =>
    rw [classes]
    split
    · rename_i source hp
      rw [tokenClasses_cons_regex hp, List.mapM_cons, ← ih (index + 1)]
      cases checkRegex e.id source with
      | error e => rfl
      | ok regex => cases classes (index + 1) es <;> rfl
    · rename_i hp
      rw [tokenClasses_cons_other hp, ih]

/-- The memory of an automaton does not depend on the order of the literal texts. -/
theorem weight_congr {texts texts' : List (Nat × List Char)} {regexes regexes' : List (Nat × Regex)}
    (ht : (texts.map (·.2)).Perm (texts'.map (·.2)))
    (hr : regexes.map (·.2) = regexes'.map (·.2)) :
    weight texts regexes = weight texts' regexes' := by
  have htexts := (ht.map fun chars => Regex.stateWeight * byteLength chars).foldl_eq
    (f := (· + ·)) 0
  have hregexes := congrArg (List.map Regex.weight) hr
  simp only [List.map_map, Function.comp_def] at htexts hregexes
  rw [weight, weight, htexts, hregexes]

/-- **Whether there is a recognizer does not depend on the order of the literal texts.** -/
theorem exists_ofEntries {es' : List Entry} (h : ofEntries es = .ok r)
    (hl : (ownTexts es).Perm (ownTexts es')) (hc : tokenClasses es = tokenClasses es') :
    ∃ r', ofEntries es' = .ok r' := by
  obtain ⟨regexes, hregexes, -⟩ := bind_eq_ok h
  rw [ofEntries_of_classes hregexes] at h
  have hcompiled := map_classes 0 es
  rw [hregexes, hc, ← map_classes 0 es'] at hcompiled
  cases hregexes' : classes 0 es' with
  | error e =>
    rw [hregexes'] at hcompiled
    cases hcompiled
  | ok regexes' =>
    rw [hregexes'] at hcompiled
    have htexts : ((literals 0 [] es).map (·.2)).Perm ((literals 0 [] es').map (·.2)) :=
      (literals_perm 0 [] es).trans (hl.trans (literals_perm 0 [] es').symm)
    rw [ofEntries_of_classes hregexes', ← weight_congr htexts (Except.ok.inj hcompiled)]
    split at h
    · cases h
    · rename_i hle
      exact ⟨_, if_neg hle⟩

/-! ## Places of a text -/

section Places

variable {front rest : List Char}

/-- What is found first behind the blanks is next, with the blanks in front of it. -/
theorem next_between_of_first? (h : rest.dropWhile isBlank ≠ [])
    (hf : r.first? (front ++ rest.takeWhile isBlank).getLast? (rest.dropWhile isBlank) =
      some (i, n)) :
    r.next (.between front rest) =
      .ok (.taking i (byteLength front) (rest.takeWhile isBlank) ((rest.dropWhile isBlank).take n),
        .between (front ++ rest.takeWhile isBlank ++ (rest.dropWhile isBlank).take n)
          ((rest.dropWhile isBlank).drop n)) := by
  have hplace := Cursor.skipBlanks_between front rest
  rw [next_of_first? (by rwa [hplace]) (by rwa [hplace]), tokenAt_between, hplace,
    Cursor.advance_between]

/-- Where no pattern matches behind the blanks the rest of the text is to blame. -/
theorem next_between_of_first?_eq_none (h : rest.dropWhile isBlank ≠ [])
    (hf : r.first? (front ++ rest.takeWhile isBlank).getLast? (rest.dropWhile isBlank) = none) :
    r.next (.between front rest) =
      .error ⟨byteLength (front ++ rest.takeWhile isBlank), byteLength (front ++ rest)⟩ := by
  have hplace := Cursor.skipBlanks_between front rest
  have hstop : byteLength (front ++ rest.takeWhile isBlank) + byteLength (rest.dropWhile isBlank) =
      byteLength (front ++ rest) := by
    rw [← byteLength_append, List.append_assoc, List.takeWhile_append_dropWhile]
  rw [next_of_first?_eq_none (by rwa [hplace]) (by rwa [hplace]), hplace, ← hstop]
  rfl

/-- Where there are only blanks the end is next. -/
theorem next_between_of_blank (h : rest.dropWhile isBlank = []) :
    r.next (.between front rest) =
      .ok (.taking 0 (byteLength front) (rest.takeWhile isBlank) [],
        .between (front ++ rest.takeWhile isBlank) []) := by
  have hplace := Cursor.skipBlanks_between front rest
  rw [next_of_blank (by rwa [hplace]), tokenAt_between, List.take_zero, hplace, h]

end Places

end Recognizer

/-! ## Other indices -/

/-- The token with another index for its symbol. -/
def Token.renumber (f : Nat → Nat) (t : Token) : Token :=
  { t with symbol := f t.symbol }

/-- The end of a scan with another index for the symbol that is found there. -/
def Ending.renumber (f : Nat → Nat) : Ending → Ending
  | .endless t => .endless (t.renumber f)
  | .unrecognized span => .unrecognized span

/-- The scan with other indices for the symbols. -/
def Scan.renumber (f : Nat → Nat) (s : Scan) : Scan :=
  ⟨s.tokens.map (·.renumber f), s.ending.renumber f⟩

namespace Recognizer

variable {r r' : Recognizer} {f : Nat → Nat}

/-- The second recognizer finds what the first one does, under other indices. -/
structure IsRenumbered (f : Nat → Nat) (r r' : Recognizer) : Prop where
  zero : f 0 = 0
  first? : ∀ before text,
    r'.first? before text = (r.first? before text).map fun m => (f m.1, m.2)

namespace IsRenumbered

theorem next (h : IsRenumbered f r r') (c : Cursor) :
    r'.next c = (r.next c).map fun found => (found.1.renumber f, found.2) := by
  by_cases hs : c.skipBlanks.rest = []
  · rw [next_of_blank hs, next_of_blank hs]
    simp only [Except.map, Token.renumber, tokenAt, h.zero]
  have hfirst := h.first? c.skipBlanks.before c.skipBlanks.rest
  cases hf : r.first? c.skipBlanks.before c.skipBlanks.rest with
  | none =>
    rw [hf] at hfirst
    rw [next_of_first?_eq_none hs hf, next_of_first?_eq_none hs hfirst]
    rfl
  | some m =>
    rw [hf] at hfirst
    rw [next_of_first? hs hf, next_of_first? hs hfirst]
    rfl

theorem scanFrom (h : IsRenumbered f r r') (steps : Nat) (c : Cursor) :
    r'.scanFrom steps c = (r.scanFrom steps c).renumber f := by
  induction steps generalizing c with
  | zero => rfl
  | succ steps ih =>
    rw [Recognizer.scanFrom, Recognizer.scanFrom, h.next]
    cases r.next c with
    | error span => rfl
    | ok found =>
      obtain ⟨t, behind⟩ := found
      simp only [Except.map, ih]
      show (if t.span.isEmpty then _ else _) = _
      split <;> rfl

/-- **A text has the same tokens,** under other indices. -/
theorem scan (h : IsRenumbered f r r') (input : String) :
    r'.scan input = (r.scan input).renumber f :=
  h.scanFrom _ _

end IsRenumbered

end Recognizer

end Precedence
