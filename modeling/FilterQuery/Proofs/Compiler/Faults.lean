import FilterQuery.Proofs.Compiler.Modes
import FilterQuery.Proofs.Compiler.Overlay
import FilterQuery.Proofs.Operator.Grammar

/-! What can still go wrong once a compiler has been built. Main statement: with built-in operators
only the inputs can be at fault, so that a lenient compilation always gives a document. -/
namespace FilterQuery

inductive Error.OfInput : Error → Prop where
  | shape (fault : InputFault) : OfInput (.input fault)
  | literal (text : String) (fault : LiteralFault) : OfInput (.literal text fault)
  | clause (clause : String) : OfInput (.unrecognizedClause clause)
  | operand (clause : String) (fault : OperandFault) : OfInput (.operand clause fault)

theorem Error.OfInput.isSuppressible {e : Error} (h : e.OfInput) : e.isSuppressible = true := by
  cases h <;> rfl

theorem Item.mem_faults_of_outcome {ends : Error → Bool} {items : List Item} {e : Error}
    (h : outcome ends items = .error e) : e ∈ faults items := by
  rw [outcome] at h
  split at h
  · rename_i fault hfind
    cases h
    exact List.mem_of_find?_eq_some hfind
  · cases h

namespace Table

theorem ofInput_of_fragment {table : Table} {host : Host}
    (h : ∀ d ∈ table, d.isBuiltin host.read? = true) {settings : Settings} {clause : String}
    {e : Error} (he : table.fragment host settings clause = .error e) : e.OfInput := by
  by_cases hnone : ∀ d ∈ table, d.captures host.read? clause = .ok none
  · rw [fragment_eq_unrecognized settings hnone] at he
    cases he
    exact .clause clause
  · push Not at hnone
    obtain ⟨d, hd, hcaptures⟩ := hnone
    obtain ⟨captures?, hsome⟩ := Definition.exists_captures_of_isBuiltin (h d hd) clause
    cases captures? with
    | none => exact absurd hsome hcaptures
    | some captures =>
      obtain ⟨f, hf⟩ | ⟨fault, hfault⟩ := fragment_settled h settings hd hsome
      · rw [hf] at he
        cases he
      · rw [hfault] at he
        cases he
        exact .operand clause fault

end Table

theorem Literal.ofInput_of_decode {dialect : Dialect} {text : String} {e : Error}
    (h : decode dialect text = .error e) : e.OfInput := by
  rw [decode] at h
  split at h
  · cases h
  · cases h
    exact .literal text _
  · cases h
    exact .literal text _

namespace Compiler
variable {host : Host} {settings : Settings} {forValues : Bool} {c : Compiler}

theorem ofInput_of_items (hbuild : build host settings forValues = .ok c)
    (hbuiltIn : c.settings.table.BuiltIn) {inputs : List Input} {e : Error}
    (h : .error e ∈ c.items inputs) : e.OfInput := by
  have hfrom := builtFrom_of_build hbuild
  have hcheck := hfrom.check
  rw [← hfrom.host_eq] at hcheck
  cases itemOf_of_mem h with
  | literalFault text _ hdecode => exact Literal.ofInput_of_decode hdecode
  | clauseFault clause _ hfragment =>
    exact Table.ofInput_of_fragment (Table.isBuiltin_of_check hbuiltIn hcheck) hfragment
  | inputFault fault => exact .shape fault

theorem run_lenient (hbuild : build host settings forValues = .ok c)
    (hbuiltIn : c.settings.table.BuiltIn) (hlenient : c.settings.throwOnError = false)
    (inputs : List Input) :
    c.run inputs = .ok (Document.mergeAll [] (Item.parts (c.items inputs))) := by
  rw [run_eq_outcome, Item.outcome_eq_ok_iff]
  refine ⟨fun e he => ?_, rfl⟩
  have hinput := ofInput_of_items hbuild hbuiltIn (Item.mem_of_mem_faults he)
  simp [ends, hlenient, hinput.isSuppressible]

end Compiler

/-- A compiler with built-in operators fails through its inputs only: neither settings nor patterns
nor files come up again once it has been built. If it passes over such faults, it always gives the
document that the faultless inputs and clauses make, unless an overlay follows other inputs. Then it
gives this document under the overlaid settings, if these can be used, still pass over faults and have
built-in operators only; and if they cannot be used, it gives the reason. -/
theorem compile_fails_by_input (host : Host) (settings : Settings) (forValues : Bool) (c : Compiler)
    (hbuild : Compiler.build host settings forValues = .ok c)
    (hbuiltIn : c.settings.table.BuiltIn) :
    (∀ inputs : List Input, (∀ overlay, inputs.getLast? ≠ some (.overlay overlay)) →
      (∀ e, c.compile inputs = .error e → e.OfInput) ∧
      (c.settings.throwOnError = false →
        c.compile inputs = .ok (Document.mergeAll [] (Item.parts (c.items inputs))))) ∧
    (c.settings.throwOnError = false → ∀ overlay, c.compile [.overlay overlay] = .ok []) ∧
    ∀ (inputs : List Input) (overlay : Overlay), inputs ≠ [] →
      (∀ e, Compiler.build host (settings.withOverlay overlay) forValues = .error e →
        c.compile (inputs ++ [.overlay overlay]) = .error e) ∧
      ∀ overlaid, Compiler.build host (settings.withOverlay overlay) forValues = .ok overlaid →
        overlaid.settings.table.BuiltIn → overlaid.settings.throwOnError = false →
        c.compile (inputs ++ [.overlay overlay]) =
          .ok (Document.mergeAll [] (Item.parts (overlaid.items inputs))) := by
  refine ⟨fun inputs hlast => ?_, fun hlenient overlay => ?_, fun inputs overlay hne => ?_⟩
  · rw [c.compile_eq_run hlast]
    refine ⟨fun e he => ?_, fun hlenient => Compiler.run_lenient hbuild hbuiltIn hlenient inputs⟩
    rw [c.run_eq_outcome] at he
    exact Compiler.ofInput_of_items hbuild hbuiltIn
      (Item.mem_of_mem_faults (Item.mem_faults_of_outcome he))
  · -- an overlay alone is a misplaced one
    exact Compiler.run_lenient hbuild hbuiltIn hlenient [.overlay overlay]
  · rw [Compiler.compile_append_overlay_of_build hbuild hne]
    refine ⟨fun e he => ?_, fun overlaid hoverlaid hbuiltIn hlenient => ?_⟩
    · rw [he]
      rfl
    · rw [hoverlaid]
      exact Compiler.run_lenient hoverlaid hbuiltIn hlenient inputs

/-- All four kinds of faults at once, under an operator with a pattern that leaves out the operand it
needs. -/
theorem compile_fails_by_input_lenient :
    let host : Host := .basic fun _ _ _ => .ok []
    let table : Table := [.patterned "over" "^(?<a>[a-z]+)@$" .above, .binary "=" .equal]
    let c : Compiler :=
      ⟨host, { throwOnError := false, table }, Pattern.braced.match?, false⟩
    let inputs : List Input :=
      [.list [.list []], .text "\x7b]\x7d", .text "age@,?,a=b", .overlay {}, .scalar .null]
    Compiler.build host { throwOnError := false, table } false = .ok c ∧
    c.settings.table.BuiltIn ∧ (∀ overlay, inputs.getLast? ≠ some (.overlay overlay)) ∧
    Item.faults (c.items inputs) =
      [.input .nestedList, .literal "\x7b]\x7d" .malformed, .operand "age@" (.missing "over"),
        .unrecognizedClause "?", .input .misplacedOverlay] ∧
    c.compile inputs = .ok [("a", .string "b")] := by
  intro host table c inputs
  have hbuild : Compiler.build host { throwOnError := false, table } false = .ok c := by
    subst c table host
    rfl
  have hbuiltIn : c.settings.table.BuiltIn := by
    simp [Table.BuiltIn, c, table, Definition.binary, Definition.patterned]
  have hlast : ∀ overlay, inputs.getLast? ≠ some (.overlay overlay) := by
    intro overlay h
    cases h
  have hitems : c.items inputs =
      [.error (.input .nestedList), .error (.literal "\x7b]\x7d" .malformed),
        .error (.operand "age@" (.missing "over")), .error (.unrecognizedClause "?"),
        .ok (.dotted, [("a", .string "b")]), .error (.input .misplacedOverlay)] := by
    subst c table host
    rfl
  obtain ⟨hplain, -, -⟩ := compile_fails_by_input host _ false c hbuild hbuiltIn
  refine ⟨hbuild, hbuiltIn, hlast, ?_, ?_⟩
  · rw [hitems]
    rfl
  · rw [(hplain inputs hlast).2 rfl, hitems]
    rfl

/-- An overlay under which nothing can be compiled is not passed over. -/
theorem compile_lenient_clash :
    let host : Host := .basic fun _ _ _ => .ok []
    let c := Compiler.braced host.build { throwOnError := false } false
    let clash : Overlay := { clauseSeparator := some '|' }
    Compiler.build host { throwOnError := false } false = .ok c ∧ c.settings.table.BuiltIn ∧
    c.settings.throwOnError = false ∧
    c.compile [.text "a", .overlay clash] = .error (.settings (.separatorsClash '|')) := by
  intro host c clash
  have hbuild : Compiler.build host { throwOnError := false } false = .ok c :=
    Compiler.build_eq_braced rfl (List.Subset.refl _) rfl false
  exact ⟨hbuild, Table.standard_builtIn, rfl, rfl⟩

end FilterQuery
