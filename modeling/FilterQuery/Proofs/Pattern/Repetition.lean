import FilterQuery.Pattern.Match
import Mathlib.Data.List.Infix

/-! How patterns run over the characters in front of them: repetitions of a set of characters, texts,
and patterns that hold on to the start. -/
namespace FilterQuery

theorem CharSet.contains_single (t c : Char) : (CharSet.single t).contains c = decide (t = c) := by
  rw [Bool.eq_iff_iff]
  simp only [CharSet.single, CharSet.contains, Bool.and_eq_true, decide_eq_true_eq]
  exact ⟨fun h => Char.le_antisymm h.1 h.2, fun h => h ▸ ⟨Char.le_refl _, Char.le_refl _⟩⟩

theorem CharSet.contains_notLineFeed (c : Char) :
    CharSet.notLineFeed.contains c = true ↔ c ≠ '\n' := by
  rw [CharSet.notLineFeed, CharSet.contains, CharSet.contains_single, Bool.not_eq_true',
    decide_eq_false_iff_not, ne_comm]

namespace Pattern
variable (set : CharSet) (goal : Goal) (offset : Nat) (captures : Captures)

/-- The rounds of a repetition that has taken everything up to a position. -/
def further (greedy : Bool) (offset : Nat) (rest : List Char) (captures : Captures) :
    Option Captures :=
  rounds greedy (one set).run goal rest.length ⟨offset, rest, captures⟩

theorem further_nil (greedy : Bool) :
    further set goal greedy offset [] captures = goal ⟨offset, [], captures⟩ := rfl

theorem further_lazy_cons (c : Char) (rest : List Char) :
    further set goal false offset (c :: rest) captures =
      (goal ⟨offset, c :: rest, captures⟩ <|>
        if set.contains c then further set goal false (offset + 1) rest captures else none) := by
  simp [further, rounds, run]

theorem further_greedy_cons (c : Char) (rest : List Char) :
    further set goal true offset (c :: rest) captures =
      ((if set.contains c then further set goal true (offset + 1) rest captures else none) <|>
        goal ⟨offset, c :: rest, captures⟩) := by
  simp [further, rounds, run]

theorem run_many_cons (greedy : Bool) (c : Char) (rest : List Char) :
    (many greedy (one set)).run ⟨offset, c :: rest, captures⟩ goal =
      if set.contains c then further set goal greedy (offset + 1) rest captures else none := by
  simp [further, run]

theorem run_star_greedy (rest : List Char) :
    (star true (one set)).run ⟨offset, rest, captures⟩ goal =
      further set goal true offset rest captures := by
  cases rest with
  | nil => rfl
  | cons c rest => simp [star, optional, further, rounds, run]

theorem add_length_cons (c : Char) (u : List Char) :
    offset + (c :: u).length = offset + 1 + u.length := by
  rw [List.length_cons]
  omega

variable {set goal offset captures}

theorem isSome_further_cons {greedy : Bool} {c : Char} {rest : List Char} :
    (further set goal greedy offset (c :: rest) captures).isSome = true ↔
      (goal ⟨offset, c :: rest, captures⟩).isSome = true ∨
        set.contains c = true ∧ (further set goal greedy (offset + 1) rest captures).isSome = true := by
  cases greedy with
  | true => by_cases hc : set.contains c = true <;> simp [further_greedy_cons, hc, or_comm]
  | false => by_cases hc : set.contains c = true <;> simp [further_lazy_cons, hc]

/-- A repetition matches exactly if what has to follow matches after some stretch of characters of the
set, be it the longest or the shortest that is tried first. -/
theorem isSome_further {greedy : Bool} {rest : List Char} :
    (further set goal greedy offset rest captures).isSome = true ↔
      ∃ u w, rest = u ++ w ∧ (∀ c ∈ u, set.contains c = true) ∧
        (goal ⟨offset + u.length, w, captures⟩).isSome = true := by
  induction rest generalizing offset with
  | nil =>
    rw [further_nil]
    refine ⟨fun h => ⟨[], [], rfl, by simp, h⟩, ?_⟩
    rintro ⟨u, w, hnil, -, h⟩
    obtain ⟨rfl, rfl⟩ := List.append_eq_nil_iff.mp hnil.symm
    exact h
  | cons c rest ih =>
    rw [isSome_further_cons, ih]
    constructor
    · rintro (hhere | ⟨hc, u, w, rfl, hu, hnext⟩)
      · exact ⟨[], c :: rest, rfl, by simp, hhere⟩
      · refine ⟨c :: u, w, rfl, List.forall_mem_cons.mpr ⟨hc, hu⟩, ?_⟩
        rwa [add_length_cons]
    · rintro ⟨u, w, hrest, hu, hgoal⟩
      cases u with
      | nil => exact .inl (by rw [hrest]; exact hgoal)
      | cons d u =>
        obtain ⟨rfl, rfl⟩ := List.cons.inj hrest
        rw [List.forall_mem_cons] at hu
        rw [add_length_cons] at hgoal
        exact .inr ⟨hu.1, u, w, rfl, hu.2, hgoal⟩

theorem further_eq_none {greedy : Bool} {rest : List Char}
    (h : ∀ u w, rest = u ++ w → (∀ c ∈ u, set.contains c = true) →
      goal ⟨offset + u.length, w, captures⟩ = none) :
    further set goal greedy offset rest captures = none := by
  rw [← Option.not_isSome_iff_eq_none, isSome_further]
  rintro ⟨u, w, hrest, hu, hgoal⟩
  rw [h u w hrest hu] at hgoal
  cases hgoal

theorem isSome_run_star {rest : List Char} :
    ((star true (one set)).run ⟨offset, rest, captures⟩ goal).isSome = true ↔
      ∃ u w, rest = u ++ w ∧ (∀ c ∈ u, set.contains c = true) ∧
        (goal ⟨offset + u.length, w, captures⟩).isSome = true := by
  rw [run_star_greedy, isSome_further]

theorem isSome_run_one {rest : List Char} :
    ((one set).run ⟨offset, rest, captures⟩ goal).isSome = true ↔
      ∃ c w, rest = c :: w ∧ set.contains c = true ∧
        (goal ⟨offset + 1, w, captures⟩).isSome = true := by
  cases rest with
  | nil => simp [run]
  | cons c rest => by_cases hc : set.contains c = true <;> simp [run, hc]

theorem isSome_run_finish {rest : List Char} :
    (finish.run ⟨offset, rest, captures⟩ goal).isSome = true ↔
      rest = [] ∧ (goal ⟨offset, [], captures⟩).isSome = true := by
  cases rest <;> simp [run]

theorem run_seq (p q : Pattern) (here : Position) :
    (seq p q).run here goal = p.run here fun next => q.run next goal := rfl

/-- A lazy repetition ends at the first position where what has to follow matches. -/
theorem further_lazy_eq_some {u w : List Char} {result : Captures}
    (hu : ∀ c ∈ u, set.contains c = true)
    (hgoal : goal ⟨offset + u.length, w, captures⟩ = some result)
    (hfirst : ∀ a b, u = a ++ b → b ≠ [] → goal ⟨offset + a.length, b ++ w, captures⟩ = none) :
    further set goal false offset (u ++ w) captures = some result := by
  induction u generalizing offset with
  | nil =>
    cases w with
    | nil => simpa [further_nil] using hgoal
    | cons c rest =>
      simp only [List.length_nil, Nat.add_zero] at hgoal
      rw [List.nil_append, further_lazy_cons, hgoal]
      rfl
  | cons c u ih =>
    have hhere : goal ⟨offset, c :: u ++ w, captures⟩ = none := hfirst [] (c :: u) rfl (by simp)
    rw [List.forall_mem_cons] at hu
    rw [List.cons_append, further_lazy_cons, if_pos hu.1, ← List.cons_append, hhere,
      ih hu.2 (by rwa [add_length_cons] at hgoal)]
    · rfl
    · intro a b hab hb
      have := hfirst (c :: a) b (by simp [hab]) hb
      rwa [add_length_cons] at this

/-- A greedy repetition ends at the last position where what has to follow matches. -/
theorem further_greedy_eq_some {u w : List Char} {result : Captures}
    (hu : ∀ c ∈ u, set.contains c = true)
    (hgoal : goal ⟨offset + u.length, w, captures⟩ = some result)
    (hlast : ∀ a b, w = a ++ b → a ≠ [] → (∀ c ∈ a, set.contains c = true) →
      goal ⟨offset + u.length + a.length, b, captures⟩ = none) :
    further set goal true offset (u ++ w) captures = some result := by
  induction u generalizing offset with
  | nil =>
    cases w with
    | nil => simpa [further_nil] using hgoal
    | cons c rest =>
      simp only [List.length_nil, Nat.add_zero] at hgoal hlast
      have hagain : (if set.contains c then further set goal true (offset + 1) rest captures
          else none) = none := by
        split
        · rename_i hc
          refine further_eq_none fun a b hrest ha => ?_
          have := hlast (c :: a) b (by simp [hrest]) (by simp) (List.forall_mem_cons.mpr ⟨hc, ha⟩)
          rwa [add_length_cons] at this
        · rfl
      rw [List.nil_append, further_greedy_cons, hagain, hgoal]
      rfl
  | cons c u ih =>
    rw [List.forall_mem_cons] at hu
    rw [add_length_cons] at hgoal hlast
    rw [List.cons_append, further_greedy_cons, if_pos hu.1, ih hu.2 hgoal hlast]
    rfl

theorem further_greedy_all {cs : List Char} {result : Captures}
    (hcs : ∀ c ∈ cs, set.contains c = true)
    (hgoal : goal ⟨offset + cs.length, [], captures⟩ = some result) :
    further set goal true offset cs captures = some result := by
  have h := further_greedy_eq_some hcs hgoal (by simp)
  rwa [List.append_nil] at h

theorem run_text (text cs : List Char) :
    (Pattern.text text).run ⟨offset, cs, captures⟩ goal =
      if text <+: cs then goal ⟨offset + text.length, cs.drop text.length, captures⟩ else none := by
  induction text generalizing offset cs with
  | nil => simp [Pattern.text, run]
  | cons t text ih =>
    cases cs with
    | nil => cases text <;> simp [Pattern.text, run]
    | cons c rest =>
      cases text with
      | nil => simp [Pattern.text, run, CharSet.contains_single, List.cons_prefix_cons]
      | cons s text =>
        simp only [Pattern.text, run, CharSet.contains_single, ih, List.cons_prefix_cons]
        by_cases ht : t = c
        · simp [ht, Nat.add_comm, Nat.add_left_comm]
        · simp [ht]

theorem match?_start (p : Pattern) (text : String) :
    (seq start p).match? text = p.run ⟨0, text.toList, []⟩ fun here => some here.captures := by
  have hlater : ∀ (cs : List Char) (n : Nat), (seq start p).search (n + 1) cs = none := by
    intro cs
    induction cs with
    | nil => intro n; rfl
    | cons c rest ih => intro n; exact ih (n + 1)
  rw [match?]
  cases text.toList with
  | nil => rfl
  | cons c rest =>
    rw [search, hlater, Option.orElse_eq_orElse, Option.orElse_eq_or, Option.or_none]
    rfl

end Pattern
end FilterQuery
