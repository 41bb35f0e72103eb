import FilterQuery.Text.Blank
import Mathlib.Data.List.TakeWhile

/-! Blanks around texts, and texts that have none to lose. -/
namespace FilterQuery.Text

theorem trimStart_append {u : List Char} (w : List Char) (h : ∀ c ∈ u, isBlank c = true) :
    trimStart (u ++ w) = trimStart w :=
  List.dropWhile_append_of_pos h

theorem trimStart_cons {c : Char} (rest : List Char) (h : isBlank c = false) :
    trimStart (c :: rest) = c :: rest := by
  simp [trimStart, h]

theorem trimStart_eq_nil_iff (cs : List Char) :
    trimStart cs = [] ↔ ∀ c ∈ cs, isBlank c = true :=
  List.dropWhile_eq_nil_iff

theorem exists_blanks_append_trimStart (cs : List Char) :
    ∃ u, cs = u ++ trimStart cs ∧ ∀ c ∈ u, isBlank c = true :=
  ⟨cs.takeWhile isBlank, List.takeWhile_append_dropWhile.symm, fun _ => List.mem_takeWhile_imp⟩

theorem head_trimStart {cs : List Char} {c : Char} {rest : List Char}
    (h : trimStart cs = c :: rest) : isBlank c = false := by
  have := List.head?_dropWhile_not isBlank cs
  rw [trimStart] at h
  simpa [h] using this

theorem exists_trimEnd_append_blanks (cs : List Char) :
    ∃ g, cs = trimEnd cs ++ g ∧ ∀ c ∈ g, isBlank c = true := by
  obtain ⟨u, hu, hblank⟩ := exists_blanks_append_trimStart cs.reverse
  refine ⟨u.reverse, ?_, by simpa using hblank⟩
  calc cs = cs.reverse.reverse := (List.reverse_reverse cs).symm
    _ = (u ++ trimStart cs.reverse).reverse := congrArg List.reverse hu
    _ = trimEnd cs ++ u.reverse := by rw [List.reverse_append]; rfl

theorem trimEnd_append (cs : List Char) {g : List Char} (h : ∀ c ∈ g, isBlank c = true) :
    trimEnd (cs ++ g) = trimEnd cs := by
  have hrev : trimStart (g.reverse ++ cs.reverse) = trimStart cs.reverse :=
    trimStart_append _ (by simpa using h)
  rw [trimEnd, List.reverse_append]
  exact congrArg List.reverse hrev

theorem trimEnd_concat (cs : List Char) {c : Char} (h : isBlank c = false) :
    trimEnd (cs ++ [c]) = cs ++ [c] := by
  simp [trimEnd, h]

theorem trimEnd_eq_nil_iff (cs : List Char) :
    trimEnd cs = [] ↔ ∀ c ∈ cs, isBlank c = true := by
  simp [trimEnd]

theorem last_trimEnd {cs init : List Char} {d : Char} (h : trimEnd cs = init ++ [d]) :
    isBlank d = false := by
  have hrev : trimStart cs.reverse = d :: init.reverse := by
    simpa [trimEnd, trimStart] using congrArg List.reverse h
  exact head_trimStart hrev

theorem trim_of_all_blank {cs : List Char} (h : ∀ c ∈ cs, isBlank c = true) : trim cs = [] := by
  rw [trim, (trimStart_eq_nil_iff cs).mpr h]
  rfl

theorem trim_eq_nil_iff (cs : List Char) : trim cs = [] ↔ ∀ c ∈ cs, isBlank c = true := by
  refine ⟨fun h => ?_, trim_of_all_blank⟩
  rw [← trimStart_eq_nil_iff]
  have hblank := (trimEnd_eq_nil_iff (trimStart cs)).mp h
  cases hcs : trimStart cs with
  | nil => rfl
  | cons c rest =>
    have hc := hblank c (by simp [hcs])
    rw [head_trimStart hcs] at hc
    exact absurd hc (by simp)

theorem trimStart_append_cons (u : List Char) {c : Char} (w : List Char) (h : isBlank c = false) :
    trimStart (u ++ c :: w) = trimStart u ++ c :: w := by
  obtain ⟨v, hu, hv⟩ := exists_blanks_append_trimStart u
  cases hcs : trimStart u with
  | nil =>
    rw [trimStart_append _ ((trimStart_eq_nil_iff u).mp hcs), trimStart_cons w h]
    rfl
  | cons d rest =>
    rw [hcs] at hu
    rw [hu, List.append_assoc, trimStart_append _ hv, List.cons_append,
      trimStart_cons _ (head_trimStart hcs)]

theorem trim_trimEnd (cs : List Char) : trim (trimEnd cs) = trim cs := by
  obtain ⟨g, hcs, hg⟩ := exists_trimEnd_append_blanks cs
  obtain ⟨u, hu, hblank⟩ := exists_blanks_append_trimStart (trimEnd cs)
  have hstart : trimEnd (trimStart (trimEnd cs ++ g)) = trimEnd (trimStart (trimEnd cs)) := by
    rw [hu, List.append_assoc, trimStart_append _ hblank, ← hu]
    cases hrest : trimStart (trimEnd cs) with
    | nil =>
      rw [List.nil_append, (trimStart_eq_nil_iff g).mpr hg]
    | cons c rest =>
      rw [List.cons_append, trimStart_cons _ (head_trimStart hrest), ← List.cons_append,
        trimEnd_append _ hg]
  rw [trim, trim, ← hstart, ← hcs]

theorem exists_blanks_append_trim (cs : List Char) :
    ∃ u g, cs = u ++ (trim cs ++ g) ∧ (∀ c ∈ u, isBlank c = true) ∧ ∀ c ∈ g, isBlank c = true := by
  obtain ⟨u, hstart, hu⟩ := exists_blanks_append_trimStart cs
  obtain ⟨g, hend, hg⟩ := exists_trimEnd_append_blanks (trimStart cs)
  exact ⟨u, g, by rw [trim, ← hend, ← hstart], hu, hg⟩

theorem trim_between {u g : List Char} (middle : List Char) {first last : Char}
    (hu : ∀ c ∈ u, isBlank c = true) (hg : ∀ c ∈ g, isBlank c = true)
    (hfirst : isBlank first = false) (hlast : isBlank last = false) :
    trim (u ++ first :: (middle ++ last :: g)) = first :: (middle ++ [last]) := by
  have hend : first :: (middle ++ last :: g) = (first :: middle ++ [last]) ++ g := by simp
  rw [trim, trimStart_append _ hu, trimStart_cons _ hfirst, hend, trimEnd_append _ hg,
    trimEnd_concat _ hlast]
  rfl

theorem countP_trim (cs : List Char) :
    (trim cs).countP (fun c => !isBlank c) = cs.countP fun c => !isBlank c := by
  obtain ⟨u, g, hcs, hu, hg⟩ := exists_blanks_append_trim cs
  have hzero : ∀ b : List Char, (∀ c ∈ b, isBlank c = true) →
      b.countP (fun c => !isBlank c) = 0 := by
    intro b hb
    exact List.countP_eq_zero.mpr fun c hc => by simp [hb c hc]
  calc (trim cs).countP (fun c => !isBlank c)
      = (u ++ (trim cs ++ g)).countP fun c => !isBlank c := by simp [hzero u hu, hzero g hg]
    _ = cs.countP fun c => !isBlank c := by rw [← hcs]

/-- A character that is not blank is never trimmed away together with all that follows it. -/
theorem trim_append_cons_ne (u : List Char) {c : Char} (w : List Char) (h : isBlank c = false) :
    trim (u ++ c :: w) ≠ trim u := by
  intro heq
  have hcount := congrArg (List.countP fun c => !isBlank c) heq
  rw [countP_trim, countP_trim, List.countP_append, List.countP_cons_of_pos (by simp [h])] at hcount
  omega

theorem mem_dropWhile {p : Char → Bool} {cs : List Char} {c : Char} (hc : c ∈ cs)
    (hp : p c = false) : c ∈ cs.dropWhile p := by
  rw [← List.takeWhile_append_dropWhile (p := p) (l := cs), List.mem_append] at hc
  refine hc.resolve_left fun htake => ?_
  rw [List.mem_takeWhile_imp htake] at hp
  cases hp

theorem mem_trim {cs : List Char} {c : Char} (hc : c ∈ cs) (hblank : isBlank c = false) :
    c ∈ trim cs := by
  have hstart : c ∈ (trimStart cs).reverse := List.mem_reverse.mpr (mem_dropWhile hc hblank)
  exact List.mem_reverse.mpr (mem_dropWhile hstart hblank)

theorem trim_of_no_blank {cs : List Char} (h : ∀ c ∈ cs, isBlank c = false) : trim cs = cs := by
  obtain ⟨u, g, hcs, hu, hg⟩ := exists_blanks_append_trim cs
  have hnil : ∀ b : List Char, b ⊆ cs → (∀ c ∈ b, isBlank c = true) → b = [] := by
    intro b hsub hb
    refine List.eq_nil_iff_forall_not_mem.mpr fun c hc => ?_
    exact absurd (hb c hc) (by simp [h c (hsub hc)])
  have hu : u = [] := hnil u (by rw [hcs]; simp) hu
  have hg : g = [] := hnil g (by rw [hcs]; simp) hg
  rw [hu, hg, List.nil_append, List.append_nil] at hcs
  exact hcs.symm

end FilterQuery.Text
