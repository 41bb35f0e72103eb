import FilterQuery.Proofs.Compiler.Overlay
import FilterQuery.Proofs.Field.Encoding

/-! Several clauses in one text. Main statement: clauses that protect nothing compile the same way
whether they are joined into one text or come one by one. -/
namespace FilterQuery
open Text FilterQuery.Field

def joinClauses (separator : Char) (clauses : List String) : String :=
  (String.singleton separator).intercalate clauses

namespace Field
variable {separator : Char}

/-- Joined texts are split where they were joined, if there is nothing in them to split at and
nothing that protects. -/
theorem split_joinClauses (hseparator : Settings.isSeparator separator = true) {texts : List String}
    (hne : texts ≠ []) (h : ∀ text ∈ texts, ∀ c ∈ text.toList, isEscapable separator c = false) :
    split separator (joinClauses separator texts) =
      texts.map fun text => String.ofList (finish text.toList) := by
  let fields := texts.map fun text => Encoding.escaped text.toList
  obtain ⟨⟨hquote, hescape⟩, hblank⟩ : (separator ≠ quote ∧ separator ≠ escape) ∧
      isBlank separator = false := by simpa [Settings.isSeparator] using hseparator
  have htext : (joinClauses separator texts).toList = Encoding.join separator fields := by
    rw [joinClauses, String.toList_intercalate, String.toList_singleton, Encoding.join, List.map_map]
    exact congrArg _ (List.map_congr_left fun text ht => (flatMap_escape_eq_self (h text ht)).symm)
  have hfits : ∀ e ∈ fields, e.Fits separator := List.forall_mem_map.mpr fun _ _ => trivial
  rw [split, htext, Encoding.scan_join hquote hescape hblank (by simpa [fields] using hne) hfits,
    List.map_map, List.map_map]
  rfl

end Field

namespace Compiler
variable {c : Compiler}

theorem isSeparator_of_build {host : Host} {s : Settings} {forValues : Bool}
    (h : build host s forValues = .ok c) :
    Settings.isSeparator c.settings.clauseSeparator = true := by
  have hclause : c.settings.clauseSeparator = s.clauseSeparator := by
    rw [(builtFrom_of_build h).settings_eq, Settings.effective]
    split <;> rfl
  obtain ⟨_, -, hvalid⟩ := exists_of_bind_eq_ok (builtFrom_of_build h).valid
  obtain ⟨_, hcheck, -⟩ := exists_of_bind_eq_ok hvalid
  rw [hclause]
  by_contra hno
  rw [Settings.checkSeparator, if_neg hno] at hcheck
  cases hcheck

theorem textItems_joinClauses
    (hseparator : Settings.isSeparator c.settings.clauseSeparator = true) {clauses : List String}
    (hplain : ∀ clause ∈ clauses, ∀ ch ∈ clause.toList,
      isEscapable c.settings.clauseSeparator ch = false)
    (hclauses : ∀ clause ∈ clauses, c.isObjectLike clause = false)
    (hjoined : c.isObjectLike (joinClauses c.settings.clauseSeparator clauses) = false) :
    c.textItems (joinClauses c.settings.clauseSeparator clauses) = clauses.flatMap c.textItems := by
  have hone : ∀ clause ∈ clauses, c.textItems clause =
      (([String.ofList (finish clause.toList)].filter fun clause => !clause.isEmpty).map
        c.clauseItem) := by
    intro clause hmem
    have hsplit : split c.settings.clauseSeparator (joinClauses _ [clause]) = _ :=
      split_joinClauses hseparator (List.cons_ne_nil clause []) (by simpa using hplain clause hmem)
    rw [joinClauses, String.intercalate_singleton] at hsplit
    rw [textItems, hclauses clause hmem, if_neg Bool.false_ne_true, hsplit]
    rfl
  rw [textItems, hjoined, if_neg Bool.false_ne_true, List.flatMap_congr hone]
  by_cases hne : clauses = []
  · subst hne
    rfl
  · have hsingle : (clauses.map fun clause => String.ofList (finish clause.toList)) =
        clauses.flatMap fun clause => [String.ofList (finish clause.toList)] := List.map_eq_flatMap
    rw [split_joinClauses hseparator hne hplain, hsingle, List.filter_flatMap, List.map_flatMap]

end Compiler

/-- Clauses without quotes, backslashes and separators, none of them like a literal, give the same
joined into one text as they give one by one, unless the joined text is like a literal: the same
document, its keys in the same order, or the same error. -/
theorem compile_joinClauses (host : Host) (settings : Settings) (forValues : Bool) (c : Compiler)
    (hbuild : Compiler.build host settings forValues = .ok c) (clauses : List String)
    (hplain : ∀ clause ∈ clauses, ∀ ch ∈ clause.toList,
      ch ≠ quote ∧ ch ≠ escape ∧ ch ≠ c.settings.clauseSeparator)
    (hclauses : ∀ clause ∈ clauses, c.isObjectLike clause = false)
    (hjoined : c.isObjectLike (joinClauses c.settings.clauseSeparator clauses) = false) :
    c.compile [.text (joinClauses c.settings.clauseSeparator clauses)] =
      c.compile (clauses.map .text) := by
  have hinert : ∀ clause ∈ clauses, ∀ ch ∈ clause.toList,
      isEscapable c.settings.clauseSeparator ch = false := by
    intro clause hmem ch hch
    obtain ⟨hquote, hescape, hseparator⟩ := hplain clause hmem ch hch
    simp [isEscapable, hquote, hescape, hseparator]
  have hlast : ∀ overlay, (clauses.map Input.text).getLast? ≠ some (.overlay overlay) := by
    intro overlay
    rw [List.getLast?_map]
    cases clauses.getLast? <;> simp
  have hitems : c.items [.text (joinClauses c.settings.clauseSeparator clauses)] =
      c.items (clauses.map .text) := by
    rw [Compiler.items, Compiler.items, List.flatMap_singleton, List.flatMap_map]
    exact Compiler.textItems_joinClauses (Compiler.isSeparator_of_build hbuild) hinert hclauses
      hjoined
  rw [c.compile_eq_run (by simp), c.compile_eq_run hlast, c.run_eq_outcome, c.run_eq_outcome, hitems]

theorem compile_joinClauses_lenient :
    let host : Host := .basic fun _ _ _ => .ok []
    let settings : Settings := { throwOnError := false, clauseSeparator := ';' }
    let c : Compiler := ⟨host, settings.effective true, Pattern.braced.match?, true⟩
    let clauses := [" a.b=1,5", "", "n>x ", " !a.c"]
    let doc : Document := [("a", .object [("b", .string "1,5"), ("c", .bool false)])]
    Compiler.build host settings true = .ok c ∧
    (∀ clause ∈ clauses, ∀ ch ∈ clause.toList, ch ≠ quote ∧ ch ≠ escape ∧ ch ≠ ';') ∧
    (∀ clause ∈ clauses, c.isObjectLike clause = false) ∧
    c.compile (clauses.map .text) = .ok doc ∧
    c.compile [.text " a.b=1,5;;n>x ; !a.c"] = .ok doc := by
  intro host settings c clauses doc
  have hbuild : Compiler.build host settings true = .ok c :=
    Compiler.build_eq_braced rfl (List.Subset.refl _) rfl true
  have hplain : ∀ clause ∈ clauses, ∀ ch ∈ clause.toList, ch ≠ quote ∧ ch ≠ escape ∧ ch ≠ ';' := by
    simp [clauses, quote, escape]
  have hclauses : ∀ clause ∈ clauses, c.isObjectLike clause = false := by
    simp only [clauses, List.forall_mem_cons]
    exact ⟨rfl, rfl, rfl, rfl, by simp⟩
  have hjoined : c.isObjectLike (joinClauses ';' clauses) = false :=
    Pattern.isMatch_braced_eq_false (by decide)
  have hitems : c.items (clauses.map .text) =
      [.ok (.dotted, [("a.b", .string "1,5")]), .error (.unrecognizedClause "n>x"),
        .ok (.dotted, [("a.c", .bool false)])] := by
    subst c settings host
    rfl
  have hdoc : c.compile (clauses.map .text) = .ok doc := by
    rw [c.compile_eq_run (by simp [clauses]), c.run_eq_outcome, hitems]
    rfl
  refine ⟨hbuild, hplain, hclauses, hdoc, ?_⟩
  exact (compile_joinClauses host settings true c hbuild clauses hplain hclauses hjoined).trans hdoc

end FilterQuery
