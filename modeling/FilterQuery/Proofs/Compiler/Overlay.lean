import FilterQuery.Proofs.Compiler.Items
import FilterQuery.Proofs.Compiler.Standard
import FilterQuery.Proofs.Operator.WellFormed

/-! Overlays for one compilation. Main statement: an overlay at the end of the inputs gives what a
compiler for the overlaid settings gives, also where only operators for plain values are known. -/
namespace FilterQuery

theorem Table.valuesOnly_valuesOnly (table : Table) :
    table.valuesOnly.valuesOnly = table.valuesOnly := by
  simp [valuesOnly, List.filter_filter]

namespace Settings

/-- Operators that have been forgotten before an overlay would be forgotten after it. -/
theorem effective_withOverlay (s : Settings) (forValues : Bool) (o : Overlay) :
    ((s.effective forValues).withOverlay o).effective forValues =
      (s.withOverlay o).effective forValues := by
  cases forValues with
  | false => rfl
  | true =>
    have htable : (o.table.getD s.table.valuesOnly).valuesOnly =
        (o.table.getD s.table).valuesOnly := by
      cases o.table with
      | none => exact s.table.valuesOnly_valuesOnly
      | some table => rfl
    simp [effective, withOverlay, htable]

theorem effective_table (s : Settings) : (s.effective true).table = s.table.valuesOnly := rfl

theorem effective_eq_of_valuesOnly (s : Settings) {table : Table}
    (h : table.valuesOnly = s.table.valuesOnly) :
    Settings.effective { s with table } true = s.effective true := by
  simp [effective, h]

end Settings

namespace Compiler

theorem build_effective (host : Host) (s : Settings) (forValues : Bool) :
    build host (s.effective forValues) forValues = build host s forValues := by
  cases forValues with
  | false => rfl
  | true =>
    have hvalidate : (s.effective true).validate = s.validate := rfl
    rw [build, build, hvalidate]
    simp only [if_true, Settings.effective, Table.valuesOnly_valuesOnly]

theorem build_eq_of_effective {host : Host} {s t : Settings} {forValues : Bool}
    (h : s.effective forValues = t.effective forValues) :
    build host s forValues = build host t forValues := by
  rw [← build_effective host s, h, build_effective]

/-- What a build has settled: a compiler works with the very patterns that were checked. -/
structure BuiltFrom (c : Compiler) (host : Host) (s : Settings) (forValues : Bool) : Prop where
  host_eq : c.host = host
  settings_eq : c.settings = s.effective forValues
  forValues_eq : c.forValues = forValues
  valid : s.validate = .ok ()
  check : c.settings.table.check host.read? = .ok ()
  read : host.read? c.settings.objectPattern = some c.objectLike

theorem builtFrom_of_build {host : Host} {s : Settings} {forValues : Bool} {c : Compiler}
    (h : build host s forValues = .ok c) : c.BuiltFrom host s forValues := by
  obtain ⟨_, hvalid, h⟩ := exists_of_bind_eq_ok h
  obtain ⟨_, hcheck, h⟩ := exists_of_bind_eq_ok h
  split at h
  · rename_i objectLike hread
    cases h
    exact ⟨rfl, rfl, rfl, hvalid, hcheck, hread⟩
  · cases h

theorem objectLike_of_build {host : Host}
    (hhost : host.read? defaultObjectPattern = Pattern.read? defaultObjectPattern) {s : Settings}
    {forValues : Bool} {c : Compiler} (h : build host s forValues = .ok c)
    (hpattern : c.settings.objectPattern = defaultObjectPattern) :
    c.objectLike = Pattern.braced.match? := by
  have hread := (builtFrom_of_build h).read
  rw [hpattern, hhost] at hread
  exact Option.some.inj (hread.symm.trans Pattern.read?_defaultObjectPattern)

theorem compile_append_overlay (c : Compiler) {inputs : List Input} (hne : inputs ≠ [])
    (o : Overlay) :
    c.compile (inputs ++ [.overlay o]) =
      (build c.host (c.settings.withOverlay o) c.forValues).bind fun overlaid =>
        overlaid.run inputs := by
  have hlength : 1 < (inputs ++ [Input.overlay o]).length := by
    have := List.length_pos_iff.mpr hne
    simp only [List.length_append, List.length_singleton]
    omega
  rw [compile, List.getLast?_concat, List.dropLast_concat]
  exact if_pos hlength

/-- The settings that an overlay changes may as well be those the compiler was built from. -/
theorem compile_append_overlay_of_build {host : Host} {s : Settings} {forValues : Bool} {c : Compiler}
    (h : build host s forValues = .ok c) {inputs : List Input} (hne : inputs ≠ []) (o : Overlay) :
    c.compile (inputs ++ [.overlay o]) =
      (build host (s.withOverlay o) forValues).bind fun overlaid => overlaid.run inputs := by
  have hfrom := builtFrom_of_build h
  rw [c.compile_append_overlay hne, hfrom.host_eq, hfrom.settings_eq, hfrom.forValues_eq,
    build_eq_of_effective (s.effective_withOverlay forValues o)]

end Compiler

/-- A compiler gives under an overlay what a compiler built from the overlaid settings gives, the
error included if there is none. One for plain values then works with those operators for plain
values that the overlaid settings have, and its answer does not depend on any other operator. -/
theorem compile_overlay (host : Host) (settings : Settings) (forValues : Bool) (c : Compiler)
    (hbuild : Compiler.build host settings forValues = .ok c) (overlay : Overlay)
    (inputs : List Input) (hne : inputs ≠ [])
    (hlast : ∀ last, inputs.getLast? ≠ some (.overlay last)) :
    c.compile (inputs ++ [.overlay overlay]) =
      (Compiler.build host (settings.withOverlay overlay) forValues).bind
        (fun overlaid => overlaid.compile inputs) ∧
    (forValues = true →
      (∀ overlaid, Compiler.build host (settings.withOverlay overlay) true = .ok overlaid →
        overlaid.settings.table = (overlay.table.getD settings.table).valuesOnly) ∧
      ∀ table : Table, table.valuesOnly = (overlay.table.getD settings.table).valuesOnly →
        c.compile (inputs ++ [.overlay overlay]) =
          (Compiler.build host { settings.withOverlay overlay with table } true).bind
            fun overlaid => overlaid.compile inputs) := by
  have hrun : (fun overlaid : Compiler => overlaid.compile inputs) =
      fun overlaid => overlaid.run inputs := funext fun overlaid => overlaid.compile_eq_run hlast
  have hoverlaid : c.compile (inputs ++ [.overlay overlay]) =
      (Compiler.build host (settings.withOverlay overlay) forValues).bind
        (fun overlaid => overlaid.compile inputs) := by
    rw [hrun]
    exact Compiler.compile_append_overlay_of_build hbuild hne overlay
  refine ⟨hoverlaid, ?_⟩
  rintro rfl
  refine ⟨fun overlaid h => ?_, fun table h => ?_⟩
  · rw [(Compiler.builtFrom_of_build h).settings_eq, Settings.effective_table]
    rfl
  · rw [hoverlaid, Compiler.build_eq_of_effective
      ((settings.withOverlay overlay).effective_eq_of_valuesOnly h)]

/-- An overlay that brings back all operators, and one under which nothing can be compiled. -/
theorem compile_overlay_values :
    let host : Host := .basic fun _ _ _ => .ok []
    let c : Compiler :=
      ⟨host, { table := Table.standard.valuesOnly }, Pattern.braced.match?, true⟩
    let inputs : List Input := [.text "a=x;b>2"]
    let all : Overlay :=
      { table := some Table.standard, throwOnError := some false, clauseSeparator := some ';' }
    let clash : Overlay := { clauseSeparator := some '|' }
    Compiler.build host {} true = .ok c ∧ inputs ≠ [] ∧
    (∀ last, inputs.getLast? ≠ some (.overlay last)) ∧
    c.compile (inputs ++ [.overlay all]) = .ok [("a", .string "x")] ∧
    c.compile (inputs ++ [.overlay clash]) = .error (.settings (.separatorsClash '|')) := by
  intro host c inputs all clash
  have hbuild : Compiler.build host {} true = .ok c :=
    Compiler.build_eq_braced rfl (List.Subset.refl _) rfl true
  have hlast : ∀ last, inputs.getLast? ≠ some (.overlay last) := by
    intro last h
    cases h
  have hne : inputs ≠ [] := by simp [inputs]
  let overlaid : Compiler :=
    { c with settings := { c.settings with throwOnError := false, clauseSeparator := ';' } }
  have hoverlaid : Compiler.build host (Settings.withOverlay {} all) true = .ok overlaid :=
    Compiler.build_eq_braced rfl (List.Subset.refl _) rfl true
  have hitems : overlaid.items inputs =
      [.ok (.dotted, [("a", .string "x")]), .error (.unrecognizedClause "b>2")] := by rfl
  refine ⟨hbuild, hne, hlast, ?_, ?_⟩
  · rw [(compile_overlay host {} true c hbuild all inputs hne hlast).1, hoverlaid]
    change overlaid.compile inputs = _
    rw [overlaid.compile_eq_run hlast, overlaid.run_eq_outcome, hitems]
    rfl
  · rw [(compile_overlay host {} true c hbuild clash inputs hne hlast).1]
    rfl

end FilterQuery
