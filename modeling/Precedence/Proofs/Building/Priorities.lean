import Precedence.Proofs.Building.Tokenization
import Precedence.Proofs.Parsing.Priorities

/-!
# What registrations say of recognition

Whatever calls have built a grammar, its recognizer prefers the longest literal text, and the first
token class if there is none. Literal texts are all ids that have been registered but names in
parentheses. Token classes are such names with the regular expressions that they were given first,
in the order of their first registrations.

* `IsTold.mem_literalIds_iff`, `IsTold.tokenClasses_entries`: the literal texts and the token classes
  of a table are those that registrations have named.
* `isRenumbered_of_same`: to register literal texts in another order leaves what is recognized as it
  is, but for the indices.
* `built_priorities`: at every place of every text.
-/

namespace Precedence

open Precedence.Source Precedence.Pattern Precedence.Text

variable {V : Type}

/-! ## Registrations -/

/-- The literal texts that registrations name. -/
def namedLiterals (rs : List (Registration V)) : List String :=
  (rs.map (·.target)).filter fun id => !isClassId id

/-- The token classes that registrations name, in the order of the first registrations of their ids,
each of them with the regular expression that it was given first. -/
def namedClasses (rs : List (Registration V)) : List (String × String) :=
  (endId :: rs.map (·.target)).eraseDups.filterMap fun id =>
    if isClassId id then ((rs.filter (·.target == id)).findSome? (·.source?)).map fun source =>
      (id, source)
    else none

namespace Grammar

variable {g g' : Grammar V} {i : Nat} {id : String}

/-- The ids of a table that are literal texts, in its order. -/
def literalIds (g : Grammar V) : List String :=
  g.ids.filter fun id => !isClassId id

/-- Where no id stands twice every symbol is found by its id. -/
theorem index?_of_getElem? (h : g.ids.Nodup) {s : Symbol V} (hs : g.symbols[i]? = some s) :
    g.index? s.id = some i := by
  have hfind := find?_of_mem h (List.mem_of_getElem? hs)
  cases hj : g.index? s.id with
  | none => cases (index?_eq_none_iff.mp hj).symm.trans hfind
  | some j =>
    have hid : g.ids[j]? = g.ids[i]? := by
      rw [ids, List.getElem?_map, List.getElem?_map, getElem?_of_index? hj, hfind, hs]
    obtain ⟨hlt, -⟩ := List.getElem?_eq_some_iff.mp ((getElem?_of_index? hj).trans hfind)
    rw [(List.getElem?_inj (by rwa [ids, List.length_map]) h).mp hid]

theorem filterMap_entries {α : Type} {k : Entry → Option α} {k' : String → Option α}
    (hk : ∀ s ∈ g.symbols, k s.toEntry = k' s.id) : g.entries.filterMap k = g.ids.filterMap k' := by
  rw [entries, ids, List.filterMap_map, List.filterMap_map]
  exact List.filterMap_congr hk

/-- The index in the second table of the symbol with an index in the first one. -/
def indexIn (g g' : Grammar V) (i : Nat) : Nat :=
  (g.symbols[i]?.bind fun s => g'.index? s.id).getD 0

theorem indexIn_zero (hn : g'.ids.Nodup) (h : ∃ s, g.symbols[0]? = some s ∧ s.id = endId)
    (h' : ∃ s, g'.symbols[0]? = some s ∧ s.id = endId) : g.indexIn g' 0 = 0 := by
  obtain ⟨s, hs, hid⟩ := h
  obtain ⟨s', hs', hid'⟩ := h'
  have hindex := index?_of_getElem? hn hs'
  rw [indexIn, hs, Option.bind_some, hid, ← hid', hindex]
  rfl

end Grammar

variable [Term V] {rs : List (Registration V)} {g : Grammar V} {id : String}

namespace IsTold

theorem mem_literalIds_iff (h : IsTold rs g) : id ∈ g.literalIds ↔ id ∈ namedLiterals rs := by
  rw [Grammar.literalIds, namedLiterals, List.mem_filter, List.mem_filter, h.ids,
    List.mem_eraseDups, List.mem_cons]
  refine and_congr_left fun hliteral => or_iff_right ?_
  rintro rfl
  cases hliteral

theorem pattern?_eq (h : IsTold rs g) {s : Symbol V} (hs : s ∈ g.symbols) :
    s.pattern? =
      if isClassId s.id then ((rs.filter (·.target == s.id)).findSome? (·.source?)).map .regex
      else some (.literal s.id) :=
  (congrArg (·.pattern?) (h.eq_told hs)).trans (pattern?_told rs s.id)

/-- Every literal text is the id of its symbol. -/
theorem eq_id_of_literal (h : IsTold rs g) {e : Entry} (he : e ∈ g.entries) {own : String}
    (hp : e.pattern? = some (.literal own)) : own = e.id ∧ isClassId e.id = false := by
  obtain ⟨s, hs, rfl⟩ := List.mem_map.mp he
  rw [h.pattern?_eq hs] at hp
  split at hp
  · obtain ⟨source, -, hregex⟩ := Option.map_eq_some_iff.mp hp
    cases hregex
  · rename_i hclass
    cases hp
    exact ⟨rfl, Bool.not_eq_true _ ▸ hclass⟩

theorem hasLiteral_entries (h : IsTold rs g) :
    Recognizer.HasLiteral g.entries = (· ∈ namedLiterals rs) := by
  funext own
  refine propext (.trans ?_ h.mem_literalIds_iff)
  rw [Grammar.literalIds, List.mem_filter, Grammar.ids, List.mem_map, Bool.not_eq_true']
  constructor
  · rintro ⟨e, he, hp⟩
    obtain ⟨rfl, hliteral⟩ := h.eq_id_of_literal he hp
    obtain ⟨s, hs, rfl⟩ := List.mem_map.mp he
    exact ⟨⟨s, hs, rfl⟩, hliteral⟩
  · rintro ⟨⟨s, hs, rfl⟩, hliteral⟩
    refine ⟨s.toEntry, List.mem_map_of_mem hs, (h.pattern?_eq hs).trans ?_⟩
    rw [hliteral]
    rfl

theorem ownTexts_entries (h : IsTold rs g) :
    Recognizer.ownTexts g.entries = g.literalIds.map String.toList := by
  rw [Grammar.literalIds, ← List.filterMap_eq_filter, List.map_filterMap]
  refine Grammar.filterMap_entries fun s hs => ?_
  rw [h.pattern?_eq hs]
  cases hclass : isClassId s.id with
  | false => simp [hclass]
  | true =>
    cases (rs.filter (·.target == s.id)).findSome? (·.source?) <;> simp [Option.guard, hclass]

theorem tokenClasses_entries (h : IsTold rs g) :
    Recognizer.tokenClasses g.entries = namedClasses rs := by
  rw [namedClasses, ← h.ids]
  refine Grammar.filterMap_entries fun s hs => ?_
  rw [h.pattern?_eq hs]
  cases isClassId s.id with
  | false => rfl
  | true => cases (rs.filter (·.target == s.id)).findSome? (·.source?) <;> rfl

end IsTold

/-! ## What is recognized -/

namespace Grammar

variable {rs' : List (Registration V)} {g' : Grammar V} {r r' : Recognizer}
variable {before : Option Char} {text : List Char} {i n : Nat}

section Found

variable (h : IsTold rs g) (hr : Recognizer.ofEntries g.entries = .ok r)

include h hr

/-- What is found first is preferred. -/
theorem prefers_of_first?_eq_some (hf : r.first? before text = some (i, n)) :
    ∃ s, g.index? s.id = some i ∧ g.symbols[i]? = some s ∧
      Recognizer.Prefers (· ∈ namedLiterals rs) (namedClasses rs) before text (some (s.id, n)) := by
  obtain ⟨e, he, hp⟩ := Recognizer.exists_prefers_of_first? hr
    (fun e he own hp => (h.eq_id_of_literal he hp).1) hf
  rw [entries, List.getElem?_map] at he
  obtain ⟨s, hs, rfl⟩ := Option.map_eq_some_iff.mp he
  rw [h.hasLiteral_entries, h.tokenClasses_entries] at hp
  exact ⟨s, index?_of_getElem? h.nodup hs, hs, hp⟩

theorem prefers_of_first?_eq_none (hf : r.first? before text = none) :
    Recognizer.Prefers (· ∈ namedLiterals rs) (namedClasses rs) before text none := by
  rw [← h.hasLiteral_entries, ← h.tokenClasses_entries]
  exact Recognizer.prefers_of_first?_eq_none hr hf

/-- Something is preferred, if only nothing. -/
theorem exists_prefers (before : Option Char) (text : List Char) :
    ∃ found, Recognizer.Prefers (· ∈ namedLiterals rs) (namedClasses rs) before text found := by
  cases hf : r.first? before text with
  | none => exact ⟨none, prefers_of_first?_eq_none h hr hf⟩
  | some m =>
    obtain ⟨s, -, -, hp⟩ := prefers_of_first?_eq_some h hr hf
    exact ⟨_, hp⟩

/-- **What is preferred is found first.** -/
theorem first?_of_prefers
    (hp : Recognizer.Prefers (· ∈ namedLiterals rs) (namedClasses rs) before text (some (id, n))) :
    ∃ i, g.index? id = some i ∧ r.first? before text = some (i, n) := by
  cases hf : r.first? before text with
  | none => cases hp.unique (prefers_of_first?_eq_none h hr hf)
  | some m =>
    obtain ⟨s, hi, -, hp'⟩ := prefers_of_first?_eq_some h hr hf
    cases hp.unique hp'
    exact ⟨m.1, hi, rfl⟩

theorem first?_of_prefers_none
    (hp : Recognizer.Prefers (· ∈ namedLiterals rs) (namedClasses rs) before text none) :
    r.first? before text = none := by
  cases hf : r.first? before text with
  | none => rfl
  | some m =>
    obtain ⟨s, -, -, hp'⟩ := prefers_of_first?_eq_some h hr hf
    cases hp.unique hp'

end Found

/-- **The order of literal texts does not matter.** Where registrations name the same literal texts,
in whatever order, and the same token classes, the recognizers find the same. -/
theorem isRenumbered_of_same (h : IsTold rs g) (h' : IsTold rs' g')
    (hr : Recognizer.ofEntries g.entries = .ok r) (hr' : Recognizer.ofEntries g'.entries = .ok r')
    (hliterals : ∀ id, id ∈ namedLiterals rs ↔ id ∈ namedLiterals rs')
    (hclasses : namedClasses rs = namedClasses rs') (h0 : g.indexIn g' 0 = 0) :
    Recognizer.IsRenumbered (g.indexIn g') r r' := by
  have hsame : (· ∈ namedLiterals rs) = (· ∈ namedLiterals rs') :=
    funext fun id => propext (hliterals id)
  refine ⟨h0, fun before text => ?_⟩
  cases hf : r.first? before text with
  | none =>
    have hp := prefers_of_first?_eq_none h hr hf
    rw [hsame, hclasses] at hp
    rw [first?_of_prefers_none h' hr' hp]
    rfl
  | some m =>
    obtain ⟨s, -, hs, hp⟩ := prefers_of_first?_eq_some h hr hf
    rw [hsame, hclasses] at hp
    obtain ⟨j, hj, hf'⟩ := first?_of_prefers h' hr' hp
    rw [hf', Option.map_some, indexIn, hs, Option.bind_some, hj]
    rfl

/-- Nor does it matter for whether there is a recognizer. -/
theorem exists_recognizer_of_same (h : IsTold rs g) (h' : IsTold rs' g')
    (hr : Recognizer.ofEntries g.entries = .ok r)
    (hliterals : ∀ id, id ∈ namedLiterals rs ↔ id ∈ namedLiterals rs')
    (hclasses : namedClasses rs = namedClasses rs') :
    ∃ r', Recognizer.ofEntries g'.entries = .ok r' := by
  refine Recognizer.exists_ofEntries hr ?_ ?_
  · rw [h.ownTexts_entries, h'.ownTexts_entries]
    refine List.Perm.map _ ((List.perm_ext_iff_of_nodup (h.nodup.filter _) (h'.nodup.filter _)).mpr ?_)
    intro id
    exact h.mem_literalIds_iff.trans ((hliterals id).trans h'.mem_literalIds_iff.symm)
  · rw [h.tokenClasses_entries, h'.tokenClasses_entries, hclasses]

/-- Whatever calls have built a table, the symbol for the end comes first. -/
theorem exists_end (calls : List (Call V)) :
    ∃ s, (built calls).symbols[0]? = some s ∧ s.id = endId := by
  have horderly : (built calls).IsOrderly False fun _ => True :=
    isOrderly_initial.after nofun fun _ _ _ _ => trivial
  obtain ⟨s, hs, hend⟩ := horderly.first
  exact ⟨s, hs, hend.id⟩

/-- The registrations among calls that succeed. -/
def made (calls : List (Call V)) : List (Registration V) :=
  (registered calls ((initial : Grammar V).answers calls)).map (·.1)

/-- **The longest literal text, or else the first token class.** Whatever calls have built a grammar,
if it has a recognizer then behind any front of any text, and behind the blanks that come next,
there is one thing to prefer. It is recognized with the blanks in front of it, as far as it goes. If
it is nothing the rest of the text is to blame, and if there is nothing but blanks that is the end.
Whatever other calls name the same literal texts in any order, and the same token classes in the same
order, build a grammar that has a recognizer, too, and every text has the same tokens with the symbols
of the same ids. -/
theorem built_priorities (calls : List (Call V)) {r : Recognizer}
    (hr : (built calls).recognizer = .ok r) :
    (∀ front rest : List Char,
      let blanks := rest.takeWhile isBlank
      let text := rest.dropWhile isBlank
      let Preferred := Recognizer.Prefers (· ∈ namedLiterals (made calls))
        (namedClasses (made calls)) (front ++ blanks).getLast? text
      (∃ found, Preferred found ∧ ∀ found', Preferred found' → found' = found) ∧
      (text = [] → r.next (.between front rest) =
        .ok (.taking 0 (byteLength front) blanks [], .between (front ++ blanks) [])) ∧
      (text ≠ [] → Preferred none → r.next (.between front rest) =
        .error ⟨byteLength (front ++ blanks), byteLength (front ++ rest)⟩) ∧
      ∀ id n, text ≠ [] → Preferred (some (id, n)) →
        ∃ i, (built calls).index? id = some i ∧ r.next (.between front rest) =
          .ok (.taking i (byteLength front) blanks (text.take n),
            .between (front ++ blanks ++ text.take n) (text.drop n))) ∧
    ∀ calls' : List (Call V),
      (∀ id, id ∈ namedLiterals (made calls) ↔ id ∈ namedLiterals (made calls')) →
      namedClasses (made calls) = namedClasses (made calls') →
      ∃ r', (built calls').recognizer = .ok r' ∧ ∀ input,
        r'.scan input = (r.scan input).renumber ((built calls).indexIn (built calls')) := by
  have htold : ∀ calls : List (Call V), IsTold (made calls) (built calls) :=
    fun calls => IsTold.initial.after calls
  have hcurrent : ∀ calls : List (Call V), (built calls).IsCurrent :=
    fun calls => isCurrent_initial.after calls
  rw [(hcurrent calls).recognizer_eq] at hr
  refine ⟨fun front rest => ?_, fun calls' hliterals hclasses => ?_⟩
  · refine ⟨?_, Recognizer.next_between_of_blank, fun hne hp => ?_, fun id n hne hp => ?_⟩
    · obtain ⟨found, hfound⟩ := exists_prefers (htold calls) hr _ (rest.dropWhile isBlank)
      exact ⟨found, hfound, fun found' hfound' => hfound'.unique hfound⟩
    · exact Recognizer.next_between_of_first?_eq_none hne (first?_of_prefers_none (htold calls) hr hp)
    · obtain ⟨i, hi, hf⟩ := first?_of_prefers (htold calls) hr hp
      exact ⟨i, hi, Recognizer.next_between_of_first? hne hf⟩
  · obtain ⟨r', hr'⟩ :=
      exists_recognizer_of_same (htold calls) (htold calls') hr hliterals hclasses
    refine ⟨r', (hcurrent calls').recognizer_eq.trans hr', fun input => ?_⟩
    have hzero := indexIn_zero (htold calls').nodup (exists_end calls) (exists_end calls')
    exact (isRenumbered_of_same (htold calls) (htold calls') hr hr' hliterals hclasses hzero).scan
      input

/-- Words, a product, a power and a word that is an operator. -/
def wordCalls : List (Call Value) :=
  [.register (.literal "word" "[a-z]+" fun text => .ok (.var text)),
    .register (.leftward "*" 60), .register (.rightward "**" 70), .register (.before "max" 65)]

/-- The recognizer for words, products and powers. -/
def wordRecognizer : Recognizer :=
  (built wordCalls).recognizer.toOption.getD ⟨[]⟩

theorem built_priorities_wordCalls :
    (built wordCalls).recognizer = .ok wordRecognizer ∧
    wordRecognizer.next (.between "a".toList " ***maxi".toList) =
      .ok (.taking 3 1 [' '] "**".toList, .between "a **".toList "*maxi".toList) ∧
    ∃ r', (built wordCalls.reverse).recognizer = .ok r' ∧ ∀ input, r'.scan input =
      (wordRecognizer.scan input).renumber ((built wordCalls).indexIn (built wordCalls.reverse)) := by
  have hr : (built wordCalls).recognizer = .ok wordRecognizer :=
    recognizer_eq_ok_of_toOption (by decide +kernel)
  have hliterals : namedLiterals (made wordCalls) = ["*", "**", "max"] := by decide +kernel
  have hclasses : namedClasses (made wordCalls) = [("(word)", "[a-z]+")] := by decide +kernel
  have hliterals' : namedLiterals (made wordCalls.reverse) = ["max", "**", "*"] := by
    decide +kernel
  have hclasses' : namedClasses (made wordCalls.reverse) = [("(word)", "[a-z]+")] := by
    decide +kernel
  obtain ⟨hplaces, horders⟩ := built_priorities wordCalls hr
  refine ⟨hr, ?_, horders wordCalls.reverse (fun id => ?_) (hclasses.trans hclasses'.symm)⟩
  · have hpower : Recognizer.Prefers (· ∈ namedLiterals (made wordCalls))
        (namedClasses (made wordCalls)) (some ' ') "***maxi".toList (some ("**", 2)) := by
      refine .literal (by simp [hliterals]) (by decide +kernel) fun other hother hstart => ?_
      rw [hliterals] at hother
      rcases List.mem_cons.mp hother with rfl | hother
      · decide +kernel
      rcases List.mem_cons.mp hother with rfl | hother
      · exact List.prefix_refl _
      · obtain rfl := List.mem_singleton.mp hother
        exact absurd hstart (by decide +kernel)
    have hindex : (built wordCalls).index? "**" = some 3 := by decide +kernel
    obtain ⟨-, -, -, hfound⟩ := hplaces "a".toList " ***maxi".toList
    obtain ⟨i, hi, hnext⟩ := hfound "**" 2 (by decide +kernel) hpower
    cases hi.symm.trans hindex
    exact hnext
  · simp only [hliterals, hliterals', List.mem_cons, List.not_mem_nil, or_false]
    grind

/-- The order of the token classes does matter. -/
example :
    let scanned := fun calls : List (Call Value) =>
      (built calls).recognizer.toOption.map fun r => (r.scan "ab").tokens.map (·.text)
    scanned [.register (.token "one" "[a-z]"), .register (.token "all" "[a-z]+")] =
      some ["a", "b"] ∧
    scanned [.register (.token "all" "[a-z]+"), .register (.token "one" "[a-z]")] =
      some ["ab"] := by
  decide +kernel

end Grammar

end Precedence
