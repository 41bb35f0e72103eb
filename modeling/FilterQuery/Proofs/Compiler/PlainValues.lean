import FilterQuery.Proofs.Compiler.Items
import FilterQuery.Proofs.Compiler.Overlay
import FilterQuery.Proofs.Value.Guess

/-! Compilations of plain values. Main statement: clauses alone give nested objects, none of them
empty, that end in truth values, numbers and strings. -/
namespace FilterQuery

namespace Value

/-- Scalars at the ends of nested objects, none of which is empty. -/
inductive OfScalars : Value → Prop where
  | scalar (value : Value) (h : value.isScalar = true) : OfScalars value
  | object (entries : Document) (hne : entries ≠ []) (h : ∀ entry ∈ entries, OfScalars entry.2) :
      OfScalars (.object entries)

theorem OfScalars.placeEntries {place : Option Value} (h : ∀ old ∈ place, old.OfScalars) :
    ∀ entry ∈ FilterQuery.placeEntries place, entry.2.OfScalars := by
  cases place with
  | none => simp
  | some old =>
    cases h old rfl with
    | scalar _ hscalar => simp [placeEntries_leaf (asObject?_of_isScalar hscalar)]
    | object entries _ hentries => exact hentries

theorem OfScalars.put {value : Value} (hvalue : value.isScalar = true) (path : List String)
    {place : Option Value} (h : ∀ old ∈ place, old.OfScalars) :
    (Value.put path value.mergeOver place).OfScalars := by
  induction path generalizing place with
  | nil =>
    rw [Value.put, mergeOver_leaf (asObject?_of_isScalar hvalue)]
    exact .scalar value hvalue
  | cons key rest ih =>
    have hentries := OfScalars.placeEntries h
    refine .object _ ?_ (Document.forall_mem_update hentries (ih fun old hold => ?_))
    · intro hnil
      have hkey := Document.mem_keys_update (FilterQuery.placeEntries place) key
        (Value.put rest value.mergeOver)
      simp [hnil] at hkey
    · exact hentries (key, old) (Document.get?_mem hold)

end Value

def Builder.isAssignment : Builder → Bool
  | .builtin .equal => true
  | .builtin .isFalse => true
  | .builtin .isTrue => true
  | _ => false

theorem Table.valuesOnly_isAssignment :
    ∀ d ∈ standard.valuesOnly, d.builder.isAssignment = true := by
  have hall : standard.valuesOnly.all (fun d => d.builder.isAssignment) = true := rfl
  exact List.all_eq_true.mp hall

theorem Definition.exists_scalar {d : Definition} (h : d.builder.isAssignment = true)
    {host : Host} {settings : Settings} {clause : String} {captures : Captures} {doc : Document}
    (hdoc : d.build host (d.operands settings.toPreferences clause captures) settings = .ok doc) :
    ∃ key value, doc = [(key, value)] ∧ value.isScalar = true := by
  rw [Definition.build] at hdoc
  split at hdoc
  · rename_i kind hkind
    rw [hkind] at h
    cases kind with
    | equal =>
      obtain ⟨value, hvalue, hdoc⟩ := exists_of_bind_eq_ok hdoc
      cases hdoc
      obtain ⟨raw, rfl⟩ := exists_operandValue hvalue
      exact ⟨_, _, rfl, settings.isScalar_operandValue raw⟩
    | isFalse =>
      cases hdoc
      exact ⟨_, _, rfl, rfl⟩
    | isTrue =>
      cases hdoc
      exact ⟨_, _, rfl, rfl⟩
    | _ => cases h
  · rename_i name hname
    rw [hname] at h
    cases h

namespace Compiler
variable {c : Compiler}

theorem ofScalars_run (hc : ∀ d ∈ c.settings.table, d.builder.isAssignment = true)
    {inputs : List Input} (hdocs : ∀ doc, .document doc ∉ inputs.flatMap Input.spread)
    (htexts : ∀ text, .text text ∈ inputs.flatMap Input.spread → c.isObjectLike text = false)
    {doc : Document} (h : c.run inputs = .ok doc) : ∀ entry ∈ doc, entry.2.OfScalars := by
  refine run_induct (P := fun doc => ∀ entry ∈ doc, entry.2.OfScalars) (by simp) ?_ h
  intro part hpart doc hdoc
  cases hpart with
  | document source hinput => exact absurd hinput (hdocs source)
  | literal text source hinput hobject _ =>
    rw [htexts text hinput] at hobject
    cases hobject
  | clause text clause f _ _ hfragment =>
    obtain ⟨d, hd, captures, -, hbuild, -⟩ := Table.exists_of_fragment hfragment
    obtain ⟨key, value, hsingle, hvalue⟩ := Definition.exists_scalar (hc d hd) hbuild
    refine Document.merge_induct (P := fun doc => ∀ entry ∈ doc, entry.2.OfScalars) hdoc ?_
    rw [hsingle]
    intro entry hentry doc hdoc
    obtain rfl : entry = (key, value) := by simpa using hentry
    obtain ⟨first, rest, hpath⟩ := List.exists_cons_of_ne_nil
      ((c.clauseStrategy f).path_ne_nil key)
    rw [hpath, Document.setPath_cons]
    exact Document.forall_mem_update hdoc
      (Value.OfScalars.put hvalue rest fun old hold => hdoc (first, old) (Document.get?_mem hold))

def standardValues (builders : Builders) : Compiler :=
  braced builders { table := Table.standard.valuesOnly } true

section
variable {builders : Builders}

theorem build_standardValues : build (.basic builders) {} true = .ok (standardValues builders) :=
  build_eq_braced rfl (List.Subset.refl _) rfl true

theorem standardValues_withOverlay {o : Overlay} (htable : o.table = none)
    (hpattern : o.objectPattern = none)
    (h : build (.basic builders) ((standardValues builders).settings.withOverlay o) true = .ok c) :
    c.settings.table = Table.standard.valuesOnly ∧
      c.isObjectLike = (standard builders).isObjectLike := by
  have hsettings := (builtFrom_of_build h).settings_eq
  constructor
  · rw [hsettings, Settings.effective_table]
    simp only [Settings.withOverlay, htable]
    exact Table.standard.valuesOnly_valuesOnly
  · have hsource : c.settings.objectPattern = defaultObjectPattern := by
      rw [hsettings]
      simp only [Settings.effective, Settings.withOverlay, hpattern]
      rfl
    funext text
    rw [isObjectLike, objectLike_of_build rfl h hsource]
    rfl

end
end Compiler

theorem compileValues_eq_standardValues (builders : Builders) (inputs : List Input) :
    compileValues (.basic builders) inputs = (Compiler.standardValues builders).compile inputs := by
  rw [compileValues, Compiler.build_standardValues]
  rfl

/-- A text with clauses in it, or a value that says nothing. -/
def Input.HoldsClauses : Input → Prop
  | .text clauses => Pattern.braced.isMatch clauses = false
  | .scalar _ => True
  | _ => False

theorem Input.getLast?_ne_overlay {inputs : List Input}
    (h : ∀ input ∈ inputs.flatMap Input.spread, input.HoldsClauses) (overlay : Overlay) :
    inputs.getLast? ≠ some (.overlay overlay) := by
  intro hlast
  exact h (.overlay overlay)
    (List.mem_flatMap.mpr ⟨_, List.mem_of_getLast? hlast, List.mem_singleton_self _⟩)

/-- Texts with clauses, scalars and lists of these compile into plain values: nested objects, none of
them empty, with truth values, numbers and strings at their ends and nothing else. An overlay may
follow that brings neither other operators nor another object pattern. -/
theorem compileValues_ofScalars (builders : Builders) (inputs : List Input)
    (hinputs : ∀ input ∈ inputs.flatMap Input.spread, input.HoldsClauses)
    (overlay : Option Overlay)
    (hoverlay : ∀ o ∈ overlay, o.table = none ∧ o.objectPattern = none) (doc : Document)
    (h : compileValues (.basic builders) (inputs ++ overlay.toList.map Input.overlay) = .ok doc) :
    ∀ entry ∈ doc, entry.2.OfScalars := by
  have hdocs : ∀ doc, .document doc ∉ inputs.flatMap Input.spread := fun doc hdoc =>
    hinputs (.document doc) hdoc
  have htexts : ∀ text, .text text ∈ inputs.flatMap Input.spread →
      (Compiler.standard builders).isObjectLike text = false := fun text htext =>
    hinputs (.text text) htext
  rw [compileValues_eq_standardValues] at h
  cases overlay with
  | none =>
    rw [Option.toList_none, List.map_nil, List.append_nil,
      Compiler.compile_eq_run _ (Input.getLast?_ne_overlay hinputs)] at h
    exact Compiler.ofScalars_run (c := Compiler.standardValues builders)
      Table.valuesOnly_isAssignment hdocs htexts h
  | some o =>
    obtain ⟨htable, hpattern⟩ := hoverlay o rfl
    by_cases hne : inputs = []
    · -- an overlay alone is a misplaced one
      subst hne
      cases h
    · have happend := (Compiler.standardValues builders).compile_append_overlay hne o
      rw [Option.toList_some, List.map_singleton, happend] at h
      obtain ⟨overlaid, hbuild, hrun⟩ := exists_of_bind_eq_ok h
      obtain ⟨htables, hobject⟩ := Compiler.standardValues_withOverlay htable hpattern hbuild
      refine Compiler.ofScalars_run ?_ hdocs ?_ hrun
      · rw [htables]
        exact Table.valuesOnly_isAssignment
      · rw [hobject]
        exact htexts

theorem compileValues_ofScalars_overwritten :
    let host : Host := .basic fun _ _ _ => .ok []
    let inputs : List Input := [.list [.text "a=1,a.b=2", .scalar .null], .text "!a.c.d,a.c=true,e"]
    let overlay : Overlay :=
      { coerceOperands := some false, throwOnError := some false, mergeClauses := some .dotted }
    (∀ input ∈ inputs.flatMap Input.spread, input.HoldsClauses) ∧
    compileValues host (inputs ++ [.overlay overlay]) =
      .ok [("a", .object [("b", .string "2"), ("c", .string "true")]), ("e", .bool true)] ∧
    (Value.object [("b", .string "2"), ("c", .string "true")]).OfScalars := by
  intro host inputs overlay
  have hinputs : ∀ input ∈ inputs.flatMap Input.spread, input.HoldsClauses := by
    intro input hinput
    obtain rfl | rfl | rfl : input = .text "a=1,a.b=2" ∨ input = .scalar .null ∨
        input = .text "!a.c.d,a.c=true,e" := by simpa [inputs, Input.spread] using hinput
    · exact Pattern.isMatch_braced_eq_false (by decide)
    · trivial
    · exact Pattern.isMatch_braced_eq_false (by decide)
  have hdoc : compileValues host (inputs ++ [.overlay overlay]) =
      .ok [("a", .object [("b", .string "2"), ("c", .string "true")]), ("e", .bool true)] := by
    let settings : Settings :=
      { table := Table.standard.valuesOnly, coerceOperands := false, throwOnError := false
        mergeClauses := some .dotted }
    let overlaid := Compiler.braced host.build settings true
    have hoverlaid : Compiler.build host (Settings.withOverlay {} overlay) true = .ok overlaid :=
      Compiler.build_eq_braced rfl (List.Subset.refl _) rfl true
    have hitems : overlaid.items inputs =
        [.ok (.dotted, [("a", .string "1")]), .ok (.dotted, [("a.b", .string "2")]),
          .ok (.dotted, [("a.c.d", .bool false)]), .ok (.dotted, [("a.c", .string "true")]),
          .ok (.dotted, [("e", .bool true)])] := by rfl
    rw [compileValues_eq_standardValues, Compiler.compile_append_overlay_of_build
      Compiler.build_standardValues (by simp [inputs]), hoverlaid]
    change overlaid.run inputs = _
    rw [overlaid.run_eq_outcome, hitems]
    rfl
  have hall := compileValues_ofScalars _ inputs hinputs (some overlay)
    (by rintro o ⟨⟩; exact ⟨rfl, rfl⟩) _ hdoc
  exact ⟨hinputs, hdoc, hall ("a", _) List.mem_cons_self⟩

end FilterQuery
