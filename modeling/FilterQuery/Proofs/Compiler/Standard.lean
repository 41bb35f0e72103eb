import FilterQuery.Proofs.Compiler.Items
import FilterQuery.Proofs.Operator.Standard

/-! The compiler with the settings that hold unless told otherwise. -/
namespace FilterQuery
open Text Pattern

def Pattern.braced : Pattern :=
  .seq .start <| .seq (.star true (.one .blank)) <| .seq (.one (.single '\x7b')) <|
    .seq (.star true (.one .all)) <| .seq (.one (.single '\x7d')) <|
      .seq (.star true (.one .blank)) .finish

theorem Pattern.parse?_defaultObjectPattern : parse? defaultObjectPattern = some braced := by rfl

/-- The braced texts: blanks, an opening brace, anything, a closing brace and blanks. -/
theorem Pattern.isMatch_braced (text : String) :
    braced.isMatch text = true ↔ ∃ u middle g,
      text.toList = u ++ '\x7b' :: (middle ++ '\x7d' :: g) ∧ (∀ c ∈ u, isBlank c = true) ∧
        ∀ c ∈ g, isBlank c = true := by
  rw [isMatch, braced, match?_start]
  simp only [run_seq, isSome_run_star, isSome_run_one, isSome_run_finish, CharSet.contains_single,
    decide_eq_true_eq]
  -- now both sides are splits of the text, the left one with a part for every piece of the pattern
  constructor
  · rintro ⟨u, _, htext, hu, _, _, rfl, rfl, middle, _, rfl, -, _, _, rfl, rfl, g, _, rfl, hg,
      rfl, -⟩
    rw [List.append_nil] at htext
    exact ⟨u, middle, g, htext, hu, hg⟩
  · rintro ⟨u, middle, g, htext, hu, hg⟩
    exact ⟨u, _, htext, hu, _, _, rfl, rfl, middle, _, rfl, fun _ _ => rfl, _, _, rfl, rfl, g, [],
      (List.append_nil g).symm, hg, rfl, rfl⟩

theorem Pattern.isMatch_braced_eq_false {text : String}
    (h : (trimStart text.toList).head? ≠ some '\x7b') : braced.isMatch text = false := by
  rw [← Bool.not_eq_true]
  intro hmatch
  obtain ⟨u, middle, g, htext, hu, -⟩ := (isMatch_braced text).mp hmatch
  refine h ?_
  rw [htext, trimStart_append _ hu, trimStart_cons _ (by decide)]
  rfl

theorem Pattern.read?_defaultObjectPattern : read? defaultObjectPattern = some braced.match? := by
  rw [read?, parse?_defaultObjectPattern]
  rfl

namespace Compiler

/-- The compiler that the engine of the library gives for settings with the default object pattern. -/
def braced (builders : Builders) (settings : Settings) (forValues : Bool) : Compiler :=
  ⟨.basic builders, settings, Pattern.braced.match?, forValues⟩

def standard (builders : Builders) : Compiler := braced builders {} false

section
variable {builders : Builders}

/-- Settings with operators of the standard table can be used as soon as their separators can. -/
theorem build_eq_braced {settings : Settings} (hvalid : settings.validate = .ok ())
    (htable : settings.table ⊆ Table.standard)
    (hpattern : settings.objectPattern = defaultObjectPattern) (forValues : Bool) :
    build (.basic builders) settings forValues =
      .ok (braced builders (settings.effective forValues) forValues) := by
  have heffective : (settings.effective forValues).table ⊆ Table.standard ∧
      (settings.effective forValues).objectPattern = defaultObjectPattern := by
    cases forValues with
    | false => exact ⟨htable, hpattern⟩
    | true => exact ⟨fun d hd => htable (List.mem_filter.mp hd).1, hpattern⟩
  simp only [build, hvalid, Table.check_of_subset_standard heffective.1, heffective.2,
    Pattern.read?_defaultObjectPattern, bind, Except.bind]
  rfl

theorem build_standard : build (.basic builders) {} false = .ok (standard builders) :=
  build_eq_braced rfl (List.Subset.refl _) rfl false

theorem clauseItem_eq_filter (settings : Settings) (forValues : Bool) (clause : String) :
    (braced builders settings forValues).clauseItem clause =
      (Table.fragment (settings.table.filter (Definition.mayMatch clause)) (.basic builders) settings
        clause).map fun f => ((braced builders settings forValues).clauseStrategy f, f.document) :=
  congrArg _ (settings.table.fragment_eq_filter builders settings clause)

theorem isObjectLike_of_bareText {text : String} {key rest : List Char} (hk : BareText key)
    (htext : text.toList = key ++ rest) : (standard builders).isObjectLike text = false := by
  refine isMatch_braced_eq_false ?_
  obtain ⟨c, cs, rfl⟩ := List.exists_cons_of_ne_nil hk.nonempty
  rw [htext, List.cons_append, trimStart_cons _ (hk.chars c List.mem_cons_self).1]
  intro hbrace
  obtain rfl : c = '\x7b' := by simpa using hbrace
  exact hk.not_mem (by decide : '\x7b' ∈ reservedChars) List.mem_cons_self

theorem compileText_of_applyClauses {text : String} {doc : Document}
    (hobject : (standard builders).isObjectLike text = false)
    (hclauses : (standard builders).applyClauses [] (Field.split ',' text) = .ok doc) :
    (standard builders).compileText text = .ok doc := by
  have happly : (standard builders).apply [] (.text text) = .ok doc := by
    rw [apply, applyText, hobject, if_neg Bool.false_ne_true]
    exact hclauses
  have hrun : (standard builders).compileText text =
      (standard builders).applyAll [] [.text text] := rfl
  rw [hrun, applyAll, happly]
  rfl

end
end Compiler
end FilterQuery
