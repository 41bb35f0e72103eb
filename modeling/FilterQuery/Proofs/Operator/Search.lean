import FilterQuery.Proofs.Operator.Occurrence
import Mathlib.Data.Nat.Find

/-! Matching as plain search. Main statement: an operator between its operands takes a clause apart at
the first place where its id occurs, an operator after its operand at the end of the clause, and the
patterns that do so are the ones that the sources of the operators write. -/
namespace FilterQuery
open Text

/-- The least place at which a text occurs in another, the very start of the other left out. -/
structure FirstPlace (id cs : List Char) (p : Nat) : Prop where
  pos : 1 ≤ p
  occurs : id <+: cs.drop p
  least : ∀ q, 1 ≤ q → q < p → ¬ id <+: cs.drop q

section
variable {id cs pre r : List Char} {p : Nat}

theorem FirstPlace.eq_append (h : FirstPlace id cs p) :
    cs = cs.take p ++ (id ++ cs.drop (p + id.length)) := by
  obtain ⟨r, hr⟩ := h.occurs
  have hdrop : cs.drop (p + id.length) = r := by
    rw [← List.drop_drop, ← hr, List.drop_left]
  rw [hdrop, hr, List.take_append_drop]

theorem FirstPlace.add_length_le (h : FirstPlace id cs p) (hid : id ≠ []) :
    p + id.length ≤ cs.length := by
  have hlength := h.occurs.length_le
  have hpos := List.length_pos_iff.mpr hid
  rw [List.length_drop] at hlength
  omega

theorem FirstPlace.take_ne_nil (h : FirstPlace id cs p) (hid : id ≠ []) : cs.take p ≠ [] := by
  have hlength := h.add_length_le hid
  have hpos := h.pos
  rw [← List.length_pos_iff, List.length_take]
  omega

/-- Where a text stands, or at a place before, it stands for the first time. -/
theorem exists_firstPlace (hcs : cs = pre ++ (id ++ r)) (hpre : pre ≠ []) :
    ∃ p, FirstPlace id cs p ∧ p ≤ pre.length := by
  have hplace : 1 ≤ pre.length ∧ id <+: cs.drop pre.length := by
    refine ⟨List.length_pos_iff.mpr hpre, ?_⟩
    rw [hcs, List.drop_left]
    exact List.prefix_append id r
  have hex : ∃ p, 1 ≤ p ∧ id <+: cs.drop p := ⟨pre.length, hplace⟩
  refine ⟨Nat.find hex, ⟨(Nat.find_spec hex).1, (Nat.find_spec hex).2, ?_⟩, Nat.find_min' hex hplace⟩
  intro q hpos hlt hin
  exact Nat.find_min hex hlt ⟨hpos, hin⟩

end

namespace Definition
variable {d : Definition} {clause : String}

theorem takes_firstPlace (hshape : d.shape = .between) {x : Char} {xs : List Char}
    (hid : d.id.toList = x :: xs) (hx : isBlank x = false) (hline : '\n' ∉ clause.toList) {p : Nat}
    (hp : FirstPlace d.id.toList clause.toList p)
    (hlt : p + d.id.toList.length < clause.toList.length) :
    d.Takes clause (trim (clause.toList.take p)) d.id.toList
      (some (operandAfter (clause.toList.drop (p + d.id.toList.length)))) := by
  have hclause := hp.eq_append
  have hclause' : clause.toList = (clause.toList.take p ++ d.id.toList) ++
      clause.toList.drop (p + d.id.toList.length) := by
    rw [List.append_assoc]
    exact hclause
  have htake : (clause.toList.take p).length = p := List.length_take_of_le (by omega)
  have hpre : clause.toList.take p ≠ [] := hp.take_ne_nil (by simp [hid])
  have hrest : clause.toList.drop (p + d.id.toList.length) ≠ [] := by
    rw [← List.length_pos_iff, List.length_drop]
    omega
  refine takes_between hshape hid hx hclause hpre hrest
    (lineFeed_not_mem_fieldBefore hline hclause) (lineFeed_not_mem_operandAfter hline hclause') ?_
  intro u v huv hu hv hin
  have hlength := congrArg List.length huv
  rw [htake, List.length_append] at hlength
  have hvpos := List.length_pos_iff.mpr hv
  refine hp.least u.length (List.length_pos_iff.mpr hu) (by omega) ?_
  rw [hclause, huv, List.append_assoc, List.drop_left]
  exact hin

theorem captures_between_iff (hshape : d.shape = .between) {x : Char} {xs : List Char}
    (hid : d.id.toList = x :: xs) (hx : isBlank x = false) (hline : '\n' ∉ clause.toList) :
    (∃ captures, d.captures Pattern.read? clause = .ok (some captures)) ↔
      ∃ p, FirstPlace d.id.toList clause.toList p ∧
        p + d.id.toList.length < clause.toList.length := by
  refine ⟨fun ⟨captures, hcaptures⟩ => ?_, fun ⟨p, hp, hlt⟩ => ?_⟩
  · by_contra hno
    -- any occurrence with something after it makes the first one such an occurrence
    have hnone : d.captures Pattern.read? clause = .ok none := by
      refine captures_between_eq_none hshape fun pre r hclause hpre => ?_
      by_contra hr
      obtain ⟨p, hp, hle⟩ := exists_firstPlace hclause hpre
      refine hno ⟨p, hp, ?_⟩
      have hpos := List.length_pos_iff.mpr hr
      rw [hclause, List.length_append, List.length_append]
      omega
    rw [hnone] at hcaptures
    cases hcaptures
  · obtain ⟨captures, hcaptures, -⟩ := takes_firstPlace hshape hid hx hline hp hlt
    exact ⟨captures, hcaptures⟩

theorem takes_end (hshape : d.shape = .after) {x : Char} {xs : List Char}
    (hid : d.id.toList = x :: xs) (hx : isBlank x = false) (hline : '\n' ∉ clause.toList)
    (hend : d.id.toList <:+ clause.toList) (hlt : d.id.toList.length < clause.toList.length) :
    d.Takes clause (trim (clause.toList.take (clause.toList.length - d.id.toList.length)))
      d.id.toList none := by
  obtain ⟨pre, hclause⟩ := hend
  have htake : clause.toList.take (clause.toList.length - d.id.toList.length) = pre := by
    rw [← hclause, List.length_append, Nat.add_sub_cancel, List.take_left]
  have hpre : pre ≠ [] := by
    rintro rfl
    rw [← hclause, List.nil_append] at hlt
    omega
  rw [htake]
  exact takes_after hshape hid hx hclause.symm hpre (lineFeed_not_mem_fieldBefore hline hclause.symm)

theorem captures_after_iff (hshape : d.shape = .after) {x : Char} {xs : List Char}
    (hid : d.id.toList = x :: xs) (hx : isBlank x = false) (hline : '\n' ∉ clause.toList) :
    (∃ captures, d.captures Pattern.read? clause = .ok (some captures)) ↔
      d.id.toList <:+ clause.toList ∧ d.id.toList.length < clause.toList.length := by
  refine ⟨fun ⟨captures, hcaptures⟩ => ?_, fun ⟨hend, hlt⟩ => ?_⟩
  · by_contra hno
    have hnone : d.captures Pattern.read? clause = .ok none := by
      refine captures_after_eq_none hshape fun pre r hclause hpre => ?_
      rintro rfl
      rw [List.append_nil] at hclause
      have hpos := List.length_pos_iff.mpr hpre
      refine hno ⟨⟨pre, hclause.symm⟩, ?_⟩
      rw [hclause, List.length_append]
      omega
    rw [hnone] at hcaptures
    cases hcaptures
  · obtain ⟨captures, hcaptures, -⟩ := takes_end hshape hid hx hline hend hlt
    exact ⟨captures, hcaptures⟩

end Definition

/-- For an id that does not start with a blank and a clause on one line, matching is plain search. An
operator between its operands matches exactly if its id occurs after at least one character and, where
it does so first, something follows; the field is what stands before, the operand what follows, less
the blanks at its start unless it has no others. An operator after its operand matches exactly if the
clause ends with its id and has more characters. In both cases the source of the definition, the id
escaped in it, reads as a pattern that has the characters of the id in a row. -/
theorem captures_iff_search (d : Definition) (hne : d.id.toList ≠ [])
    (hblank : ∀ c, d.id.toList.head? = some c → isBlank c = false) (clause : String)
    (hline : '\n' ∉ clause.toList) :
    (d.shape = .between →
      (Pattern.parse? d.source = some (Definition.betweenPattern d.id) ∧
        d.matcher Pattern.read? = .ok (Definition.betweenPattern d.id).match?) ∧
      ((∃ captures, d.captures Pattern.read? clause = .ok (some captures)) ↔
        ∃ p, FirstPlace d.id.toList clause.toList p ∧
          p + d.id.toList.length < clause.toList.length) ∧
      ∀ p, FirstPlace d.id.toList clause.toList p →
        p + d.id.toList.length < clause.toList.length →
        d.Takes clause (trim (clause.toList.take p)) d.id.toList
          (some (Definition.operandAfter (clause.toList.drop (p + d.id.toList.length))))) ∧
    (d.shape = .after →
      (Pattern.parse? d.source = some (Definition.afterPattern d.id) ∧
        d.matcher Pattern.read? = .ok (Definition.afterPattern d.id).match?) ∧
      ((∃ captures, d.captures Pattern.read? clause = .ok (some captures)) ↔
        d.id.toList <:+ clause.toList ∧ d.id.toList.length < clause.toList.length) ∧
      (d.id.toList <:+ clause.toList → d.id.toList.length < clause.toList.length →
        d.Takes clause (trim (clause.toList.take (clause.toList.length - d.id.toList.length)))
          d.id.toList none)) := by
  obtain ⟨x, xs, hid⟩ := List.exists_cons_of_ne_nil hne
  have hx : isBlank x = false := hblank x (by rw [hid]; rfl)
  refine ⟨fun hshape => ?_, fun hshape => ?_⟩
  · have hparse := Definition.parse?_source_between hshape
    exact ⟨⟨hparse, Definition.matcher_of_parse? hparse⟩,
      Definition.captures_between_iff hshape hid hx hline,
      fun p hp hlt => Definition.takes_firstPlace hshape hid hx hline hp hlt⟩
  · have hparse := Definition.parse?_source_after hshape
    exact ⟨⟨hparse, Definition.matcher_of_parse? hparse⟩,
      Definition.captures_after_iff hshape hid hx hline,
      fun hend hlt => Definition.takes_end hshape hid hx hline hend hlt⟩

theorem captures_iff_search_marks :
    FirstPlace "**".toList " k *** ".toList 3 ∧
      (Definition.binary "**" .equal).Takes " k *** " ['k'] ['*', '*'] (some ['*', ' ']) ∧
      (Definition.binary "**" .equal).Takes "k** \t" ['k'] ['*', '*'] (some ['\t']) ∧
      (Definition.unary "**" .present).Takes " k ***" ['k', ' ', '*'] ['*', '*'] none := by
  have hplace : FirstPlace "**".toList " k *** ".toList 3 := by
    refine ⟨by decide, by decide, fun q hpos hlt => ?_⟩
    obtain rfl | rfl : q = 1 ∨ q = 2 := by omega
    · decide
    · decide
  have hblank : FirstPlace "**".toList "k** \t".toList 1 :=
    ⟨by decide, by decide, fun q hpos hlt => by omega⟩
  have hid : ∀ c, "**".toList.head? = some c → isBlank c = false := by
    rintro c ⟨⟩
    decide
  refine ⟨hplace, ?_, ?_, ?_⟩
  · exact ((captures_iff_search (.binary "**" .equal) (by decide) hid " k *** " (by decide)).1 rfl).2.2
      3 hplace (by decide)
  · exact ((captures_iff_search (.binary "**" .equal) (by decide) hid "k** \t" (by decide)).1 rfl).2.2
      1 hblank (by decide)
  · exact ((captures_iff_search (.unary "**" .present) (by decide) hid " k ***" (by decide)).2 rfl).2.2
      (by decide) (by decide)

end FilterQuery
