import Precedence.Proofs.Building.Calls

/-!
# Tables that calls build

Whatever calls are made of a grammar, its table is in order: the symbol for the end of the text
stays in front and has no pattern, and the patterns of the others are the texts of their own ids, or
regular expressions that some registration gave to a token class.

The symbol for the end has the binding power 0 unless a registration names it and gives it another
one: only token classes are refused if they have its id.

* `isOrderly_build`: what one registration preserves.
* `IsOrderly.after`: what any sequence of calls preserves.
-/

namespace Precedence

variable {V : Type}

namespace Symbol

variable {inert : Prop} {given : String → Prop} {s : Symbol V}

/-- The symbol for the end of the text. If it is to be inert, it binds no operand. -/
structure IsEnd (inert : Prop) (s : Symbol V) : Prop where
  id : s.id = endId
  pattern? : s.pattern? = none
  power : inert → s.power = 0

/-- The symbol has no pattern, or its own text, or a regular expression that was given. -/
def HasPattern (given : String → Prop) (s : Symbol V) : Prop :=
  ∀ p, s.pattern? = some p → (p = .literal s.id ∧ s.id ≠ "") ∨ ∃ source, p = .regex source ∧
    given source

theorem ChangesActions.isEnd {f : Symbol V → Symbol V} (hf : ChangesActions f)
    (h : s.IsEnd inert) : (f s).IsEnd inert :=
  ⟨(hf.id s).trans h.id, (hf.pattern? s).trans h.pattern?,
    fun hi => (hf.power s).trans (h.power hi)⟩

theorem ChangesActions.hasPattern {f : Symbol V → Symbol V} (hf : ChangesActions f)
    (h : s.HasPattern given) : (f s).HasPattern given := by
  intro p hp
  rw [hf.pattern?] at hp
  rw [hf.id]
  exact h p hp

end Symbol

namespace Grammar

variable {inert : Prop} {given : String → Prop} {g g' : Grammar V} {id : String} {i : Nat}
variable {s : Symbol V} {f : Symbol V → Symbol V}

/-- The symbol for the end comes first, and all symbols have patterns that belong to them. -/
structure IsOrderly (inert : Prop) (given : String → Prop) (g : Grammar V) : Prop where
  first : ∃ s, g.symbols[0]? = some s ∧ s.IsEnd inert
  patterns : ∀ s ∈ g.symbols, s.HasPattern given

namespace IsOrderly

theorem congr (h : g.IsOrderly inert given) (hs : g.symbols = g'.symbols) :
    g'.IsOrderly inert given :=
  ⟨hs ▸ h.first, hs ▸ h.patterns⟩

/-- Only the id of the end has the index 0. -/
theorem eq_endId (h : g.IsOrderly inert given) (hi : g.index? id = some 0) : id = endId := by
  obtain ⟨s, hs, hend⟩ := h.first
  rw [getElem?_of_index? hi] at hs
  exact (id_of_find? hs).symm.trans hend.id

theorem size_ne_zero (h : g.IsOrderly inert given) : g.size ≠ 0 := by
  obtain ⟨s, hs, -⟩ := h.first
  intro h0
  rw [List.length_eq_zero_iff.mp h0] at hs
  cases hs

/-- A change of one symbol, if the end stays what it is and the symbol has a pattern of its own. -/
theorem change (h : g.IsOrderly inert given)
    (hend : i = 0 → ∀ s, s.IsEnd inert → (f s).IsEnd inert)
    (hpattern : ∀ s, s.HasPattern given → (f s).HasPattern given) :
    (g.change i f).IsOrderly inert given := by
  refine ⟨?_, fun s hs => ?_⟩
  · obtain ⟨s, hs, he⟩ := h.first
    by_cases hi : i = 0
    · exact ⟨f s, by simp [Grammar.change, hi, hs], hend hi s he⟩
    · exact ⟨s, by simp [Grammar.change, hi, hs], he⟩
  · rcases mem_change hs with hs | ⟨s', hs', rfl⟩
    · exact h.patterns s hs
    · exact hpattern s' (h.patterns s' hs')

theorem append (h : g.IsOrderly inert given) (hs : s.HasPattern given) :
    (g.append s).IsOrderly inert given := by
  refine ⟨?_, fun s' hs' => ?_⟩
  · obtain ⟨e, he, hend⟩ := h.first
    refine ⟨e, ?_, hend⟩
    rw [Grammar.append, List.getElem?_append_left (List.getElem?_eq_some_iff.mp he).1, he]
  · rcases List.mem_append.mp hs' with hs' | hs'
    · exact h.patterns s' hs'
    · rw [List.mem_singleton.mp hs']
      exact hs

/-- The end may not be raised if it is to be inert. -/
theorem raise (h : g.IsOrderly inert given) {power : Nat} (hpower : inert → i = 0 → power = 0) :
    (g.raise i power).IsOrderly inert given := by
  unfold Grammar.raise
  split
  · refine (h.change (f := fun s => { s with power := power }) ?_ fun _ hs => hs).congr rfl
    exact fun hi s hs => ⟨hs.id, hs.pattern?, fun hinert => hpower hinert hi⟩
  · exact h

end IsOrderly

theorem isOrderly_initial : (initial : Grammar V).IsOrderly inert given := by
  refine ⟨⟨_, rfl, rfl, rfl, fun _ => rfl⟩, fun s hs p hp => ?_⟩
  rw [List.mem_singleton.mp hs] at hp
  cases hp

/-- What a registration adds a new id with. -/
theorem hasPattern_known (h : g.IsOrderly inert given) (he : id.isEmpty = false) :
    (g.known id).HasPattern given := by
  unfold known
  cases hf : g.find? id with
  | some s => exact h.patterns s (List.mem_of_find?_eq_some hf)
  | none =>
    intro p hp
    simp only [Option.getD_none, Symbol.fresh] at hp ⊢
    split at hp
    · cases hp
    · cases hp
      exact .inl ⟨rfl, by simpa using he⟩

end Grammar

/-! ## Registrations -/

namespace Build

open Grammar (IsOrderly)

variable {inert : Prop} {given : String → Prop} {g : Grammar V}

theorem isOrderly_symbol {id : String} {power : Nat} (hpower : inert → id = endId → power = 0)
    (h : g.IsOrderly inert given) : ((Build.symbol id power).on g).2.IsOrderly inert given := by
  refine symbol_preserves (fun i _ hi => ?_) (fun he _ => ?_) h
  · exact h.raise fun hinert h0 => hpower hinert (h.eq_endId (h0 ▸ hi))
  · exact (h.append (Grammar.hasPattern_known h he)).raise fun _ h0 => absurd h0 h.size_ne_zero

/-- A token class is not the end. -/
theorem isOrderly_token {name source : String} (hgiven : given source)
    (h : g.IsOrderly inert given) : ((Build.token name source).on g).2.IsOrderly inert given := by
  have hpattern : ∀ s : Symbol V, s.pattern? = some (.regex source) → s.HasPattern given := by
    intro s hs p hp
    rw [hs] at hp
    cases hp
    exact .inr ⟨source, rfl, hgiven⟩
  refine token_preserves (fun i he hi => ?_) (fun _ => h.append (hpattern _ rfl)) h
  refine (h.change (f := fun s => { s with pattern? := some (.regex source) }) ?_
    fun s _ => hpattern _ rfl).congr rfl
  rintro rfl
  exact absurd (h.eq_endId hi) he

end Build

section Registrations

open Grammar (IsOrderly)

variable {inert : Prop} {given : String → Prop} [Term V]

/-- **Every registration keeps a table in order,** also if it fails. -/
theorem Registration.isOrderly_build (r : Registration V)
    (hpower : inert → r.target = endId → r.power = 0)
    (hgiven : ∀ source, r.source? = some source → given source) {g : Grammar V}
    (h : g.IsOrderly inert given) : (r.build.on g).2.IsOrderly inert given := by
  refine r.build_preserves (fun i f hf g h => ?_) (fun power hle g h => ?_)
    (fun name source hsource _ g h => Build.isOrderly_token (hgiven source hsource) h) h
  · exact h.change (fun _ s hs => hf.changesActions.isEnd hs)
      fun s hs => hf.changesActions.hasPattern hs
  · refine Build.isOrderly_symbol (fun hinert hend => ?_) h
    exact Nat.le_zero.mp (hpower hinert hend ▸ hle)

/-- **Any sequence of calls keeps a table in order.** -/
theorem Grammar.IsOrderly.after {calls : List (Call V)}
    (hpower : inert → ∀ r, .register r ∈ calls → r.target = endId → r.power = 0)
    (hgiven : ∀ r, .register r ∈ calls → ∀ source, r.source? = some source → given source)
    {g : Grammar V} (h : g.IsOrderly inert given) : (g.after calls).IsOrderly inert given := by
  refine after_preserves (fun r hr g h => ?_) (fun g g' hs h => h.congr hs) h
  exact r.isOrderly_build (fun hinert => hpower hinert r hr) (hgiven r hr) h

end Registrations

end Precedence
