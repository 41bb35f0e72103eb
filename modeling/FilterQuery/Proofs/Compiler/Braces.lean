import FilterQuery.Proofs.Compiler.Overlay

/-! Texts in braces. Main statement: under the default object pattern a text is read as a literal
exactly if, blanks aside, it starts with an opening brace and ends with a closing one. -/
namespace FilterQuery
open Text

theorem Text.exists_between_iff {cs : List Char} {first last : Char} :
    (∃ middle, cs = first :: (middle ++ [last])) ↔
      2 ≤ cs.length ∧ cs.head? = some first ∧ cs.getLast? = some last := by
  constructor
  · rintro ⟨middle, rfl⟩
    exact ⟨by simp, rfl, List.getLast?_concat (l := first :: middle)⟩
  · rintro ⟨hlength, hfirst, hlast⟩
    obtain ⟨rest, rfl⟩ := List.head?_eq_some_iff.mp hfirst
    obtain ⟨init, hinit⟩ := List.getLast?_eq_some_iff.mp hlast
    cases init with
    | nil =>
      -- a single character is first and last at once, but too short
      rw [hinit] at hlength
      simp at hlength
    | cons c middle =>
      obtain ⟨rfl, rfl⟩ := List.cons.inj hinit
      exact ⟨middle, rfl⟩

/-- A compiler with the default object pattern reads a text as a literal exactly if the text, blanks
on either side trimmed, has at least two characters, the first an opening brace and the last a closing
one. Whatever stands between these, line feeds and braces included, does not matter. Any engine may
match the clauses, as long as it reads the default object pattern like that of the library. -/
theorem isObjectLike_iff_braces (host : Host)
    (hhost : host.read? defaultObjectPattern = Pattern.read? defaultObjectPattern)
    (settings : Settings) (forValues : Bool) (c : Compiler)
    (hbuild : Compiler.build host settings forValues = .ok c)
    (hpattern : c.settings.objectPattern = defaultObjectPattern) (text : String) :
    c.isObjectLike text = true ↔
      2 ≤ (trim text.toList).length ∧ (trim text.toList).head? = some '\x7b' ∧
        (trim text.toList).getLast? = some '\x7d' := by
  rw [Compiler.isObjectLike, Compiler.objectLike_of_build hhost hbuild hpattern, ← Pattern.isMatch,
    Pattern.isMatch_braced, ← exists_between_iff]
  constructor
  · rintro ⟨u, middle, g, htext, hu, hg⟩
    refine ⟨middle, ?_⟩
    rw [htext, trim_between middle hu hg (by decide) (by decide)]
  · rintro ⟨middle, htrim⟩
    obtain ⟨u, g, htext, hu, hg⟩ := exists_blanks_append_trim text.toList
    refine ⟨u, middle, g, ?_, hu, hg⟩
    rw [htext, htrim]
    simp

theorem isObjectLike_iff_braces_lines :
    let host : Host := .basic fun _ _ _ => .ok []
    let settings : Settings := { throwOnError := false, clauseSeparator := ';' }
    let c : Compiler :=
      ⟨host, { settings with table := Table.standard.valuesOnly }, Pattern.braced.match?, true⟩
    host.read? defaultObjectPattern = Pattern.read? defaultObjectPattern ∧
    Compiler.build host settings true = .ok c ∧ c.settings.objectPattern = defaultObjectPattern ∧
    c.isObjectLike "\u2003\n\x7b\n\x7d \x7b\x7d\u0085 " = true ∧
    c.isObjectLike " \x7b " = false ∧ c.isObjectLike "\x7ba\x7d\n;" = false := by
  intro host settings c
  have hbuild : Compiler.build host settings true = .ok c :=
    Compiler.build_eq_braced rfl (List.Subset.refl _) rfl true
  have hiff := isObjectLike_iff_braces host rfl settings true c hbuild rfl
  refine ⟨rfl, hbuild, rfl, (hiff _).mpr (by decide), ?_, ?_⟩
  · exact Bool.eq_false_iff.mpr fun h => absurd ((hiff _).mp h) (by decide)
  · exact Bool.eq_false_iff.mpr fun h => absurd ((hiff _).mp h) (by decide)

end FilterQuery
