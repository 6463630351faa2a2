import Precedence.Proofs.Building.Additions
import Precedence.Proofs.Building.Contents
import Precedence.Proofs.Parsing.Extensions

/-!
# Tables that grow

Registrations of ids that a grammar does not know put their symbols behind those of its table and
leave these as they are. If the ids are no names in parentheses, the new symbols are recognized by
their own texts. A text that none of them occurs in has the same tokens as before, and if the
denotations of the grammar do not look at what the table gains it is parsed as before.

* `symbols_build`: the table that a registration leaves behind.
* `Enlarges.after`: what calls make of a table, if they register other ids than those in it.
* `Enlarges.agreesOn`: the larger grammar agrees with the smaller one on the symbols of that.
* `parse_after_register`: texts that no new id occurs in are parsed as before.
-/

namespace Precedence

variable {V : Type}

namespace Grammar

variable {g g' : Grammar V}

/-- Where no id stands twice a table is what is known of its ids. -/
theorem symbols_eq_map_known (h : g.ids.Nodup) : g.symbols = g.ids.map g.known := by
  rw [ids, List.map_map]
  refine (List.map_id _).symm.trans (List.map_congr_left fun s hs => ?_)
  rw [Function.comp, known, find?_of_mem h hs, Option.getD_some, id]

end Grammar

namespace Registration

open Grammar

variable [Term V] {g g' : Grammar V} {i : Nat}

/-- **What a registration makes of a table.** It revises the symbol of its id, or puts a new one
behind all others. -/
theorem symbols_build {r : Registration V} (hn : g.ids.Nodup) (h : r.build.on g = (.ok i, g')) :
    g'.symbols =
      if r.target ∈ g.ids then g.symbols.map fun s => if s.id = r.target then r.revise s else s
      else g.symbols ++ [r.revise (g.known r.target)] := by
  have ha := amends h
  have hothers : ∀ id, id ≠ r.target → g'.known id = g.known id := fun id hne => by
    rw [known, known, ha.others id hne]
  rw [symbols_eq_map_known (nodup_build hn h), ids_build h]
  split
  · rw [ids, List.map_map]
    refine List.map_congr_left fun s hs => ?_
    have hs' : g.known s.id = s := by rw [known, find?_of_mem hn hs, Option.getD_some]
    show g'.known s.id = _
    split
    · rename_i hid
      rw [hid, ha.known, ← hid, hs']
    · rename_i hne
      rw [hothers _ hne, hs']
  · rename_i hnew
    rw [List.map_append, List.map_singleton, ha.known, symbols_eq_map_known hn]
    congr 1
    refine List.map_congr_left fun id hid => hothers id ?_
    rintro rfl
    exact hnew hid

/-- A registration does not change how deeply expressions may be nested. -/
theorem maxDepth_build (r : Registration V) (g : Grammar V) :
    (r.build.on g).2.maxDepth = g.maxDepth := by
  have hraise : ∀ (g : Grammar V) i power, (g.raise i power).maxDepth = g.maxDepth := by
    intro g i power
    unfold Grammar.raise
    split <;> rfl
  refine r.build_preserves (P := fun g' => g'.maxDepth = g.maxDepth) (fun _ _ _ _ h => h) ?_ ?_ rfl
  · intro power _ g' h
    exact Build.symbol_preserves (P := fun g' => g'.maxDepth = g.maxDepth)
      (fun i _ _ => (hraise g' i power).trans h) (fun _ _ => (hraise _ _ power).trans h) h
  · intro name source _ _ g' h
    exact Build.token_preserves (P := fun g' => g'.maxDepth = g.maxDepth) (fun _ _ _ => h)
      (fun _ => h) h

end Registration

/-! ## Sequences of registrations -/

namespace Grammar

variable {g g' : Grammar V} {added : String → Prop}

/-- The second table is the first one with more symbols behind it. These have ids that were added
and are recognized by them. -/
structure Enlarges (added : String → Prop) (g g' : Grammar V) : Prop where
  nodup : g'.ids.Nodup
  symbols : ∃ more, g'.symbols = g.symbols ++ more ∧
    ∀ s ∈ more, added s.id ∧ s.pattern? = some (.literal s.id)

theorem Enlarges.refl (h : g.ids.Nodup) : Enlarges added g g :=
  ⟨h, [], (List.append_nil _).symm, List.forall_mem_nil _⟩

variable [Term V]

/-- A registration of an id that the first table does not have. -/
theorem Enlarges.register {r : Registration V} (h : Enlarges added g g') (hadded : added r.target)
    (hclass : isClassId r.target = false) (hfresh : r.target ∉ g.ids) :
    Enlarges added g (r.build.on g').2 := by
  rcases hb : r.build.on g' with ⟨e | i, g₁⟩
  · rw [r.eq_of_error hb]
    exact h
  obtain ⟨more, hmore, hall⟩ := h.symbols
  refine ⟨Registration.nodup_build h.nodup hb, ?_⟩
  have hids : g'.ids = g.ids ++ more.map (·.id) := by rw [ids, hmore, List.map_append, ids]
  show ∃ more, g₁.symbols = _ ∧ _
  rw [Registration.symbols_build h.nodup hb]
  split
  · refine ⟨more.map fun s => if s.id = r.target then r.revise s else s, ?_, ?_⟩
    · rw [hmore, List.map_append]
      congr 1
      refine (List.map_congr_left fun s hs => if_neg fun hid => hfresh ?_).trans (List.map_id _)
      exact hid ▸ List.mem_map_of_mem hs
    · intro s' hs'
      obtain ⟨s, hs, rfl⟩ := List.mem_map.mp hs'
      obtain ⟨hs₁, hs₂⟩ := hall s hs
      split
      · exact ⟨hs₁, by rw [Registration.revise, hs₂]; rfl⟩
      · exact ⟨hs₁, hs₂⟩
  · rename_i hnew
    have hknown := known_of_index? (index?_eq_none_iff_ids.mpr hnew) hclass
    refine ⟨more ++ [r.revise (g'.known r.target)], by rw [hmore, List.append_assoc], ?_⟩
    refine List.forall_mem_append.mpr ⟨hall, List.forall_mem_singleton.mpr ?_⟩
    rw [hknown]
    exact ⟨hadded, rfl⟩

/-- **Calls that register other ids enlarge a table.** -/
theorem Enlarges.after (hn : g.ids.Nodup) {calls : List (Call V)}
    (h : ∀ r, .register r ∈ calls →
      added r.target ∧ isClassId r.target = false ∧ r.target ∉ g.ids) :
    Enlarges added g (g.after calls) := by
  refine after_preserves (P := Enlarges added g) (fun r hr g' hg' => ?_) (fun g₁ g₂ hs h => ?_)
    (Enlarges.refl hn)
  · obtain ⟨hadded, hclass, hfresh⟩ := h r hr
    exact hg'.register hadded hclass hfresh
  · exact ⟨by rw [ids, ← hs]; exact h.nodup, hs ▸ h.symbols⟩

/-- Registrations do not change how deeply expressions may be nested. -/
theorem maxDepth_after_register (g : Grammar V) (rs : List (Registration V)) :
    (g.after (rs.map .register)).maxDepth = g.maxDepth := by
  induction rs generalizing g with
  | nil => rfl
  | cons r rs ih => exact (ih _).trans (r.maxDepth_build g)

end Grammar

/-! ## Larger contexts -/

namespace Context

variable {c c' : Context} {i : Nat} {id : String}

/-- The second context is the first one with more entries behind it. -/
structure Extends (c c' : Context) : Prop where
  input : c.input = c'.input
  entries : ∃ more, c'.entries = c.entries ++ more

namespace Extends

theorem entry_eq (h : c.Extends c') (hi : i < c.entries.length) : c.entry i = c'.entry i := by
  obtain ⟨more, hmore⟩ := h.entries
  rw [entry, entry, List.getD_eq_getElem?_getD, List.getD_eq_getElem?_getD, hmore,
    List.getElem?_append_left hi]

theorem power_eq (h : c.Extends c') (hi : i < c.entries.length) : c.power i = c'.power i := by
  rw [power, power, h.entry_eq hi]

theorem id_eq (h : c.Extends c') (hi : i < c.entries.length) : c.id i = c'.id i := by
  rw [Context.id, Context.id, h.entry_eq hi]

/-- A symbol that is found stays where it is. -/
theorem index?_eq (h : c.Extends c') (hi : c.index? id = some i) : c'.index? id = some i := by
  obtain ⟨more, hmore⟩ := h.entries
  rw [index?] at hi
  rw [index?, hmore, List.findIdx?_append, hi, Option.some_or]

end Extends

end Context

/-- What the symbol does in a context it does in every larger one, as long as all tokens are of
symbols of the smaller one. -/
structure Symbol.IsLocal (c : Context) (s : Symbol V) : Prop where
  nud : ∀ f, s.nud? = some f → ∀ c', c.Extends c' → ∀ t,
    (f c t).AgreesOn (· < c.entries.length) (f c' t)
  led : ∀ f, s.led? = some f → ∀ c', c.Extends c' → ∀ t left,
    (f c t left).AgreesOn (· < c.entries.length) (f c' t left)

/-! ## Texts without the new ids -/

namespace Grammar

variable {g g' : Grammar V} {added : String → Prop} {input : String}

theorem Enlarges.exists_entries (h : Enlarges added g g') :
    ∃ more, g'.entries = g.entries ++ more ∧ Recognizer.AreLiteral more ∧
      ∀ e ∈ more, added e.id := by
  obtain ⟨more, hmore, hall⟩ := h.symbols
  refine ⟨more.map (·.toEntry), by rw [entries, hmore, List.map_append, entries], ?_, ?_⟩
  · intro e he
    obtain ⟨s, hs, rfl⟩ := List.mem_map.mp he
    exact (hall s hs).2
  · intro e he
    obtain ⟨s, hs, rfl⟩ := List.mem_map.mp he
    exact (hall s hs).1

/-- The larger grammar agrees with the smaller one on the symbols of that. -/
theorem Enlarges.agreesOn (h : Enlarges added g g') (hdepth : g.maxDepth = g'.maxDepth)
    (hlocal : ∀ s ∈ g.symbols, s.IsLocal (g.context input)) :
    AgreesOn (· < g.entries.length) g g' (g.context input) (g'.context input) := by
  obtain ⟨entries, hentries, -, -⟩ := h.exists_entries
  obtain ⟨more, hmore, -⟩ := h.symbols
  have hextends : (g.context input).Extends (g'.context input) := ⟨rfl, entries, hentries⟩
  have hsymbol : ∀ i, i < g.entries.length → g'.symbols[i]? = g.symbols[i]? := fun i hi => by
    rw [hmore, List.getElem?_append_left (by rwa [Grammar.entries, List.length_map] at hi)]
  refine ⟨hdepth, rfl, fun i hi => hextends.power_eq hi, fun t ht => ?_, fun t left ht => ?_⟩
  · rw [nudAction, nudAction, hsymbol _ ht, Context.errorAt_eq hextends.input]
    cases hf : g.symbols[t.symbol]?.bind (·.nud?) with
    | none => exact .refl _
    | some f =>
      obtain ⟨s, hs, hf⟩ := Option.bind_eq_some_iff.mp hf
      exact (hlocal s (List.mem_of_getElem? hs)).nud f hf _ hextends t
  · rw [ledAction, ledAction, hsymbol _ ht, Context.errorAt_eq hextends.input]
    cases hf : g.symbols[t.symbol]?.bind (·.led?) with
    | none => exact .refl _
    | some f =>
      obtain ⟨s, hs, hf⟩ := Option.bind_eq_some_iff.mp hf
      exact (hlocal s (List.mem_of_getElem? hs)).led f hf _ hextends t left

variable [Term V]

/-- **Texts that no new id occurs in are parsed as before.** -/
theorem parse_after_register (hne : g.entries ≠ []) (hn : g.ids.Nodup) (hcurrent : g.IsCurrent)
    {r r' : Recognizer} (hr : g.recognizer = .ok r) {rs : List (Registration V)}
    (hr' : (g.after (rs.map .register)).recognizer = .ok r')
    (hlocal : ∀ s ∈ g.symbols, s.IsLocal (g.context input))
    (hrs : ∀ r ∈ rs, isClassId r.target = false ∧ r.target ∉ g.ids ∧
      ¬ r.target.toList <:+: input.toList) :
    (g.after (rs.map .register)).parse input = g.parse input := by
  have henlarges : Enlarges (fun id => ¬ id.toList <:+: input.toList) g
      (g.after (rs.map .register)) := Enlarges.after hn fun r hmem => by
    obtain ⟨r, hmem, heq⟩ := List.mem_map.mp hmem
    cases heq
    obtain ⟨hclass, hfresh, habsent⟩ := hrs r hmem
    exact ⟨habsent, hclass, hfresh⟩
  obtain ⟨more, hmore, hliteral, hadded⟩ := henlarges.exists_entries
  have hr₁ := hcurrent.recognizer_eq.symm.trans hr
  have hr₂ := (hcurrent.after _).recognizer_eq.symm.trans hr'
  rw [hmore] at hr₂
  have hagrees := henlarges.agreesOn (maxDepth_after_register g rs).symm hlocal
  have hscan := Recognizer.scan_of_not_infix hr₁ hr₂ hliteral hadded
  exact (hagrees.parse_eq hr hr' hscan.symm (Recognizer.knows_scan hr₁ hne input)).symm

end Grammar

end Precedence
