import FilterQuery.Clause
import FilterQuery.Proofs.Operator.Source
import FilterQuery.Proofs.Pattern.Repetition
import FilterQuery.Proofs.Text.Trim

/-! Matching by occurrence: a clause matches the pattern of an operator where the operator's id first
occurs in it, after at least one character, and not at all if the id does not occur. -/
namespace FilterQuery.Definition
open Text Pattern

/-- What follows the field in a clause: blanks, the operator, and the rest of the pattern. -/
def operatorAt (id : List Char) (rest : Pattern) (goal : Goal) (here : Position) :
    Option Captures :=
  blanks.run here fun next => (capture "assigner" (.text id)).run next fun next => rest.run next goal

theorem operatorAt_eq (id : List Char) (rest : Pattern) (goal : Goal) (offset : Nat)
    (cs : List Char) (captures : Captures) :
    operatorAt id rest goal ⟨offset, cs, captures⟩ =
      further .blank (fun next =>
        if id <+: next.rest then
          rest.run ⟨next.offset + id.length, next.rest.drop id.length,
            ⟨"assigner", next.rest, id.length⟩ :: next.captures⟩ goal
        else none) true offset cs captures := by
  rw [operatorAt, blanks, run_star_greedy]
  congr 1
  funext next
  obtain ⟨o, w, caps⟩ := next
  rw [Pattern.run, run_text]
  simp

/-- What may follow an operator does not match a text, wherever the text stands. -/
def Refuses (rest : Pattern) (cs : List Char) : Prop :=
  ∀ offset captures, rest.run ⟨offset, cs, captures⟩ (fun here => some here.captures) = none

theorem refuses_finish {cs : List Char} (h : cs ≠ []) : Refuses .finish cs := by
  intro offset captures
  simp [Pattern.run, h]

theorem operatorAt_eq_none {id cs : List Char} {rest : Pattern} (offset : Nat) (captures : Captures)
    (h : ∀ u w, cs = u ++ (id ++ w) → (∀ c ∈ u, isBlank c = true) → Refuses rest w) :
    operatorAt id rest (fun here => some here.captures) ⟨offset, cs, captures⟩ = none := by
  rw [operatorAt_eq]
  refine further_eq_none fun u w hcs hu => ?_
  split
  · rename_i hid
    obtain ⟨r, rfl⟩ := hid
    rw [List.drop_left]
    exact h u r hcs hu _ _
  · rfl

theorem eq_of_blanks_append {u v a b : List Char} {c d : Char} (h : u ++ c :: a = v ++ d :: b)
    (hu : ∀ x ∈ u, isBlank x = true) (hv : ∀ x ∈ v, isBlank x = true) (hc : isBlank c = false)
    (hd : isBlank d = false) : u = v := by
  have htake := congrArg (List.takeWhile isBlank) h
  rw [List.takeWhile_append_of_pos hu, List.takeWhile_append_of_pos hv] at htake
  simpa [hc, hd] using htake

theorem not_blank_of_cons_eq {c : Char} {cs a b : List Char} (hc : isBlank c = false)
    (h : c :: cs = a ++ b) (ha : a ≠ []) : ¬ ∀ x ∈ a, isBlank x = true := by
  intro hall
  obtain ⟨x, a, rfl⟩ := List.exists_cons_of_ne_nil ha
  have hx : c = x := by simpa using congrArg List.head? h
  have hblank := hall x List.mem_cons_self
  rw [← hx, hc] at hblank
  cases hblank

/-- Blanks and the operator are taken in one way only, if the operator does not start with a blank. -/
theorem operatorAt_blanks {g : List Char} {c : Char} {id : List Char} (r : List Char)
    (rest : Pattern) (goal : Goal) (offset : Nat) (captures : Captures)
    (hg : ∀ x ∈ g, isBlank x = true) (hc : isBlank c = false) :
    operatorAt (c :: id) rest goal ⟨offset, g ++ (c :: id ++ r), captures⟩ =
      rest.run ⟨offset + g.length + (c :: id).length, r,
        ⟨"assigner", c :: id ++ r, (c :: id).length⟩ :: captures⟩ goal := by
  rw [operatorAt_eq]
  have hhere : c :: id <+: c :: id ++ r := List.prefix_append _ _
  cases hrest : rest.run ⟨offset + g.length + (c :: id).length, r,
      ⟨"assigner", c :: id ++ r, (c :: id).length⟩ :: captures⟩ goal with
  | some result =>
    refine further_greedy_eq_some hg ?_ ?_
    · rw [if_pos hhere, List.drop_left]
      exact hrest
    · intro a b hab ha hblank
      exact absurd hblank (not_blank_of_cons_eq hc hab ha)
  | none =>
    refine further_eq_none fun u w hcs hu => ?_
    by_cases hw : c :: id <+: w
    · obtain ⟨t, rfl⟩ := hw
      have hug : u = g := eq_of_blanks_append (by simpa using hcs.symm) hu hg hc hc
      subst hug
      have hr : t = r := by simpa using hcs.symm
      subst hr
      rw [if_pos hhere, List.drop_left]
      exact hrest
    · exact if_neg hw

theorem match?_fieldThen (id : String) (rest : Pattern) (clause : String) :
    (fieldThen id rest).match? clause =
      match clause.toList with
      | [] => none
      | c :: cs =>
        if CharSet.notLineFeed.contains c then
          further .notLineFeed (fun next =>
            operatorAt id.toList rest (fun here => some here.captures)
              { next with captures := ⟨"a", c :: cs, next.offset⟩ :: next.captures }) false 1 cs []
        else none := by
  rw [fieldThen, match?_start]
  cases clause.toList with
  | nil => rfl
  | cons c cs =>
    rw [Pattern.run, Pattern.run, run_many_cons]
    rfl

/-- A clause does not match if what may follow the operator fails wherever the id occurs, the very
start of the clause aside. -/
theorem match?_fieldThen_eq_none {id : String} {rest : Pattern} {clause : String}
    (h : ∀ pre r, clause.toList = pre ++ (id.toList ++ r) → pre ≠ [] → Refuses rest r) :
    (fieldThen id rest).match? clause = none := by
  rw [match?_fieldThen]
  cases hcs : clause.toList with
  | nil => rfl
  | cons c cs =>
    dsimp only
    split
    · refine further_eq_none fun u w huw _ => operatorAt_eq_none _ _ fun v r hvr _ => ?_
      have hw : w = v ++ (id.toList ++ r) := hvr
      refine h (c :: (u ++ v)) r ?_ (by simp)
      rw [hcs, huw, hw]
      simp
    · rfl

/-- The shortest field before an operator: what trimming its end leaves, or the first of blanks
alone. -/
def fieldBefore (pre : List Char) : List Char :=
  if trimEnd pre = [] then pre.take 1 else trimEnd pre

/-- The operand after an operator: what trimming its start leaves, or the last of blanks alone. -/
def operandAfter (r : List Char) : List Char :=
  if trimStart r = [] then r.drop (r.length - 1) else trimStart r

theorem fieldBefore_subset (pre : List Char) : fieldBefore pre ⊆ pre := by
  rw [fieldBefore]
  split
  · exact List.take_subset 1 pre
  · obtain ⟨g, hpre, -⟩ := exists_trimEnd_append_blanks pre
    intro c hc
    rw [hpre]
    exact List.mem_append_left g hc

theorem operandAfter_subset (r : List Char) : operandAfter r ⊆ r := by
  rw [operandAfter]
  split
  · exact List.drop_subset _ r
  · exact (List.dropWhile_suffix isBlank).subset

theorem lineFeed_not_mem_fieldBefore {clause : String} {pre r : List Char}
    (hline : '\n' ∉ clause.toList) (hclause : clause.toList = pre ++ r) : '\n' ∉ fieldBefore pre := by
  intro h
  rw [hclause] at hline
  exact hline (List.mem_append_left r (fieldBefore_subset pre h))

theorem lineFeed_not_mem_operandAfter {clause : String} {pre r : List Char}
    (hline : '\n' ∉ clause.toList) (hclause : clause.toList = pre ++ r) : '\n' ∉ operandAfter r := by
  intro h
  rw [hclause] at hline
  exact hline (List.mem_append_right pre (operandAfter_subset r h))

theorem exists_field {pre : List Char} (h : pre ≠ []) :
    ∃ c a g, fieldBefore pre = c :: a ∧ pre = c :: a ++ g ∧ (∀ x ∈ g, isBlank x = true) ∧
      trim (c :: a) = trim pre ∧ ∀ b e, a = b ++ e → e ≠ [] → ¬ ∀ x ∈ e, isBlank x = true := by
  obtain ⟨g, hpre, hg⟩ := exists_trimEnd_append_blanks pre
  cases htrim : trimEnd pre with
  | nil =>
    have hall := (trimEnd_eq_nil_iff pre).mp htrim
    cases pre with
    | nil => exact absurd rfl h
    | cons c rest =>
      refine ⟨c, [], rest, by simp [fieldBefore, htrim], rfl, fun x hx => hall x (by simp [hx]), ?_,
        by simp⟩
      rw [trim_of_all_blank hall, trim_of_all_blank (by simpa using hall c List.mem_cons_self)]
  | cons c a =>
    refine ⟨c, a, g, by simp [fieldBefore, htrim], by rw [← htrim]; exact hpre, hg,
      by rw [← htrim, trim_trimEnd], ?_⟩
    intro b e hbe he hblank
    obtain ⟨init, d, rfl⟩ : ∃ init d, e = init ++ [d] :=
      ⟨e.dropLast, e.getLast he, (List.dropLast_append_getLast he).symm⟩
    have hlast : trimEnd pre = (c :: b ++ init) ++ [d] := by simp [htrim, hbe]
    have hd := hblank d (by simp)
    rw [last_trimEnd hlast] at hd
    exact absurd hd (by simp)

/-- A clause matches at the first occurrence of the id, after at least one character, from which what
may follow the operator leads to the end. -/
theorem exists_match?_fieldThen {id : String} {x : Char} {xs : List Char} (hid : id.toList = x :: xs)
    (hx : isBlank x = false) {rest : Pattern} {clause : String} {pre r : List Char}
    (hclause : clause.toList = pre ++ (id.toList ++ r)) (hpre : pre ≠ [])
    (hline : '\n' ∉ fieldBefore pre)
    (hfirst : ∀ u v w, pre = u ++ v → u ≠ [] → v ≠ [] →
      v ++ (id.toList ++ r) = id.toList ++ w → Refuses rest w)
    {added : Captures}
    (hrest : ∀ offset captures,
      rest.run ⟨offset, r, captures⟩ (fun here => some here.captures) = some (added ++ captures)) :
    ∃ n, trim (clause.toList.take n) = trim pre ∧
      (fieldThen id rest).match? clause =
        some (added ++ [⟨"assigner", id.toList ++ r, id.toList.length⟩, ⟨"a", clause.toList, n⟩]) := by
  obtain ⟨c, a, g, hfield, rfl, hg, htrim, hshort⟩ := exists_field hpre
  have hcs : clause.toList = c :: (a ++ (g ++ (id.toList ++ r))) := by simpa using hclause
  have hno : ∀ y ∈ c :: a, CharSet.notLineFeed.contains y = true := by
    intro y hy
    rw [CharSet.contains_notLineFeed]
    rintro rfl
    rw [hfield] at hline
    exact hline hy
  refine ⟨1 + a.length, ?_, ?_⟩
  · rw [hcs, Nat.add_comm, List.take_succ_cons, List.take_left]
    exact htrim
  rw [match?_fieldThen, hcs]
  dsimp only
  rw [if_pos (hno c List.mem_cons_self)]
  refine further_lazy_eq_some (fun y hy => hno y (List.mem_cons_of_mem c hy)) ?_ ?_
  · rw [hid]
    exact (operatorAt_blanks r rest _ _ _ hg hx).trans (hrest _ _)
  · -- a shorter field would leave blanks at the end of this one, or an earlier operator
    intro b e hbe he
    refine operatorAt_eq_none _ _ fun u w huw hu => ?_
    rw [← List.append_assoc, List.append_eq_append_iff] at huw
    obtain ⟨t, rfl, -⟩ | ⟨t, ht, hw⟩ := huw
    · exact absurd (fun y hy => hu y (by simp [hy])) (hshort b e hbe he)
    · have htne : t ≠ [] := by
        rintro rfl
        rw [List.append_nil] at ht
        exact hshort b e hbe he fun y hy => hu y (by simp [← ht, hy])
      refine hfirst (c :: b ++ u) t w ?_ (by simp) htne hw.symm
      rw [hbe, List.append_assoc, List.cons_append, List.cons_append, List.append_assoc, ht]

section
variable {set : CharSet} (name : String) (offset : Nat) (captures : Captures)

theorem run_capture_finish {c : Char} {cs : List Char} (h : ∀ x ∈ c :: cs, set.contains x = true) :
    (Pattern.seq (.capture name (.many true (.one set))) .finish).run
        ⟨offset, c :: cs, captures⟩ (fun here => some here.captures) =
      some (⟨name, c :: cs, (c :: cs).length⟩ :: captures) := by
  rw [List.forall_mem_cons] at h
  rw [Pattern.run, Pattern.run, run_many_cons, if_pos h.1]
  refine further_greedy_all h.2 ?_
  have hlen : offset + 1 + cs.length - offset = (c :: cs).length := by
    rw [List.length_cons]
    omega
  rw [hlen]
  rfl

theorem run_operand {r : List Char} (hr : r ≠ []) (hline : '\n' ∉ operandAfter r) :
    (Pattern.seq blanks (.seq (.capture "b" (.many true (.one .notLineFeed))) .finish)).run
        ⟨offset, r, captures⟩ (fun here => some here.captures) =
      some ([⟨"b", operandAfter r, (operandAfter r).length⟩] ++ captures) := by
  have hno : ∀ x ∈ operandAfter r, CharSet.notLineFeed.contains x = true := by
    intro x hx
    rw [CharSet.contains_notLineFeed]
    rintro rfl
    exact hline hx
  obtain ⟨u, hu, hblank⟩ := exists_blanks_append_trimStart r
  rw [Pattern.run, blanks, run_star_greedy]
  rw [operandAfter] at hno ⊢
  cases htrim : trimStart r with
  | nil =>
    -- blanks alone: the last of them is left for the operand
    have hall := (trimStart_eq_nil_iff r).mp htrim
    obtain ⟨init, d, rfl⟩ : ∃ init d, r = init ++ [d] :=
      ⟨r.dropLast, r.getLast hr, (List.dropLast_append_getLast hr).symm⟩
    have hdrop : (init ++ [d]).drop ((init ++ [d]).length - 1) = [d] := by simp
    rw [if_pos htrim, hdrop] at hno
    rw [if_pos rfl, hdrop]
    refine further_greedy_eq_some (fun x hx => hall x (by simp [hx]))
      (run_capture_finish _ _ _ hno) ?_
    intro a b hab ha _
    obtain ⟨y, a, rfl⟩ := List.exists_cons_of_ne_nil ha
    simp only [List.cons_append, List.cons.injEq, List.nil_eq, List.append_eq_nil_iff] at hab
    obtain ⟨-, rfl, rfl⟩ := hab
    rfl
  | cons c cs =>
    rw [htrim, if_neg (by simp)] at hno
    rw [htrim] at hu
    rw [if_neg (by simp), hu]
    exact further_greedy_eq_some hblank (run_capture_finish _ _ _ hno)
      fun a b hab ha hall => absurd hall (not_blank_of_cons_eq (head_trimStart htrim) hab ha)

end

theorem refuses_operand :
    Refuses (.seq blanks (.seq (.capture "b" (.many true (.one .notLineFeed))) .finish)) [] :=
  fun _ _ => rfl

/-- A definition matches a clause and remembers a field, blanks around it aside, an operator and
perhaps an operand. -/
def Takes (d : Definition) (clause : String) (field operator : List Char)
    (operand : Option (List Char)) : Prop :=
  ∃ captures, d.captures read? clause = .ok (some captures) ∧
    (captures.get? "a").map trim = some field ∧ captures.get? "assigner" = some operator ∧
    captures.get? "b" = operand

section
variable {d : Definition} {clause : String}

theorem Takes.exists_operands {field operator : List Char} {operand : Option (List Char)}
    (h : d.Takes clause field operator operand) :
    ∃ captures, d.captures read? clause = .ok (some captures) ∧
      ∀ prefs, d.operands prefs clause captures =
        { clause
          left := String.ofList field
          token := String.ofList operator
          raw := operand.map String.ofList
          value := (operand.map String.ofList).map prefs.operandValue } := by
  obtain ⟨captures, hcaptures, hfield, hoperator, hoperand⟩ := h
  obtain ⟨a, ha, rfl⟩ := Option.map_eq_some_iff.mp hfield
  refine ⟨captures, hcaptures, fun prefs => ?_⟩
  simp [Definition.operands, ha, hoperator, hoperand]

theorem takes_between (hshape : d.shape = .between) {x : Char} {xs : List Char}
    (hid : d.id.toList = x :: xs) (hx : isBlank x = false) {pre r : List Char}
    (hclause : clause.toList = pre ++ (d.id.toList ++ r)) (hpre : pre ≠ []) (hr : r ≠ [])
    (hfield : '\n' ∉ fieldBefore pre) (hoperand : '\n' ∉ operandAfter r)
    (hfirst : ∀ u v, pre = u ++ v → u ≠ [] → v ≠ [] → ¬ d.id.toList <+: v ++ (d.id.toList ++ r)) :
    d.Takes clause (trim pre) d.id.toList (some (operandAfter r)) := by
  obtain ⟨n, hn, hmatch⟩ := exists_match?_fieldThen hid hx hclause hpre hfield
    (fun u v w huv hu hv hw => absurd ⟨w, hw.symm⟩ (hfirst u v huv hu hv))
    (fun offset captures => run_operand offset captures hr hoperand)
  refine ⟨[⟨"b", operandAfter r, (operandAfter r).length⟩,
    ⟨"assigner", d.id.toList ++ r, d.id.toList.length⟩, ⟨"a", clause.toList, n⟩], ?_, ?_⟩
  · rw [captures_of_parse? (parse?_source_between hshape)]
    exact congrArg Except.ok hmatch
  · simp [Captures.get?, Capture.text, hn]

theorem takes_after (hshape : d.shape = .after) {x : Char} {xs : List Char}
    (hid : d.id.toList = x :: xs) (hx : isBlank x = false) {pre : List Char}
    (hclause : clause.toList = pre ++ d.id.toList) (hpre : pre ≠ [])
    (hfield : '\n' ∉ fieldBefore pre) : d.Takes clause (trim pre) d.id.toList none := by
  rw [← List.append_nil d.id.toList] at hclause
  have hfirst : ∀ u v w, pre = u ++ v → u ≠ [] → v ≠ [] →
      v ++ (d.id.toList ++ []) = d.id.toList ++ w → Refuses .finish w := by
    intro u v w _ _ hv hw
    refine refuses_finish ?_
    rintro rfl
    have hlen := congrArg List.length hw
    simp only [List.length_append, List.append_nil] at hlen
    have hpos := List.length_pos_of_ne_nil hv
    omega
  have hrest : ∀ offset captures, Pattern.finish.run ⟨offset, [], captures⟩
      (fun here => some here.captures) = some ([] ++ captures) := fun _ _ => rfl
  obtain ⟨n, hn, hmatch⟩ := exists_match?_fieldThen hid hx hclause hpre hfield hfirst hrest
  refine ⟨[⟨"assigner", d.id.toList ++ [], d.id.toList.length⟩, ⟨"a", clause.toList, n⟩], ?_, ?_⟩
  · rw [captures_of_parse? (parse?_source_after hshape)]
    exact congrArg Except.ok hmatch
  · simp [Captures.get?, Capture.text, hn]

theorem exists_captures_between (hshape : d.shape = .between) {x : Char} {xs : List Char}
    (hid : d.id.toList = x :: xs) (hx : isBlank x = false) {pre r : List Char}
    (hclause : clause.toList = pre ++ (d.id.toList ++ r)) (hpre : pre ≠ []) (hr : r ≠ [])
    (hfield : '\n' ∉ fieldBefore pre) (hoperand : '\n' ∉ operandAfter r)
    (hfirst : ∀ u v, pre = u ++ v → u ≠ [] → v ≠ [] → ¬ d.id.toList <+: v ++ (d.id.toList ++ r)) :
    ∃ captures, d.captures read? clause = .ok (some captures) ∧
      ∀ prefs, d.operands prefs clause captures =
        { clause
          left := String.ofList (trim pre)
          token := d.id
          raw := some (String.ofList (operandAfter r))
          value := some (prefs.operandValue (String.ofList (operandAfter r))) } := by
  have htakes := takes_between hshape hid hx hclause hpre hr hfield hoperand hfirst
  simpa using htakes.exists_operands

theorem exists_captures_after (hshape : d.shape = .after) {x : Char} {xs : List Char}
    (hid : d.id.toList = x :: xs) (hx : isBlank x = false) {pre : List Char}
    (hclause : clause.toList = pre ++ d.id.toList) (hpre : pre ≠ [])
    (hfield : '\n' ∉ fieldBefore pre) :
    ∃ captures, d.captures read? clause = .ok (some captures) ∧
      ∀ prefs, d.operands prefs clause captures =
        { clause, left := String.ofList (trim pre), token := d.id, raw := none, value := none } := by
  simpa using (takes_after hshape hid hx hclause hpre hfield).exists_operands

theorem captures_between_eq_none (hshape : d.shape = .between)
    (h : ∀ pre r, clause.toList = pre ++ (d.id.toList ++ r) → pre ≠ [] → r = []) :
    d.captures read? clause = .ok none := by
  rw [captures_of_parse? (parse?_source_between hshape)]
  refine congrArg Except.ok (match?_fieldThen_eq_none fun pre r hclause hpre => ?_)
  rw [h pre r hclause hpre]
  exact refuses_operand

theorem captures_after_eq_none (hshape : d.shape = .after)
    (h : ∀ pre r, clause.toList = pre ++ (d.id.toList ++ r) → pre ≠ [] → r ≠ []) :
    d.captures read? clause = .ok none := by
  rw [captures_of_parse? (parse?_source_after hshape)]
  exact congrArg Except.ok
    (match?_fieldThen_eq_none fun pre r hclause hpre => refuses_finish (h pre r hclause hpre))

theorem captures_eq_none (hshape : d.shape = .between ∨ d.shape = .after)
    (h : ¬ d.id.toList <:+: clause.toList) : d.captures read? clause = .ok none := by
  have hno : ∀ pre r, clause.toList ≠ pre ++ (d.id.toList ++ r) := by
    intro pre r hclause
    exact h ⟨pre, r, by rw [hclause, List.append_assoc]⟩
  obtain hs | hs := hshape
  · exact captures_between_eq_none hs fun pre r hclause _ => absurd hclause (hno pre r)
  · exact captures_after_eq_none hs fun pre r hclause _ => absurd hclause (hno pre r)

end
end FilterQuery.Definition
