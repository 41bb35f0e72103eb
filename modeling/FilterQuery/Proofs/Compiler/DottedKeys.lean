import FilterQuery.Proofs.Compiler.Items
import FilterQuery.Proofs.Compiler.Standard
import FilterQuery.Proofs.Document.Flatten
import FilterQuery.Proofs.Number.Positional
import FilterQuery.Proofs.Operator.WellFormed

/-! Dots in the keys of compiled documents. Main statement: unless told otherwise a dot leads into a
nested object, and only the probe for an element of an array keeps it in its key. -/
namespace FilterQuery
open Text

def IsProbe (key : String) (value : Value) : Prop :=
  ∃ field index : String, key = field ++ "." ++ index ∧ index.toList ≠ [] ∧
    (∀ c ∈ index.toList, isDigit c = true) ∧ value = .object [("$exists", .bool true)]

theorem isProbe_elementPath (left : String) (index : Nat) :
    IsProbe (elementPath left index) (.object [("$exists", .bool true)]) := by
  obtain ⟨hne, hdigits⟩ := Number.plain_ofNat_isDigits index
  refine ⟨left, String.ofList (Number.ofNat index).plain, rfl, ?_, ?_, rfl⟩
  · rwa [String.toList_ofList]
  · rwa [String.toList_ofList]

namespace Document

/-- No key on the top level holds a dot, index probes apart. -/
def NestsDots (doc : Document) : Prop :=
  ∀ entry ∈ doc, '.' ∈ entry.1.toList → IsProbe entry.1 entry.2

theorem NestsDots.setPath_segments {doc : Document} (h : doc.NestsDots) (key : String)
    (value : Value) : (doc.setPath (segments key) value).NestsDots := by
  obtain ⟨first, rest, hkey⟩ : ∃ first rest, segments key = first :: rest :=
    List.exists_cons_of_ne_nil (Strategy.dotted.path_ne_nil key)
  have hmem : first ∈ segments key := by
    rw [hkey]
    exact List.mem_cons_self
  rw [hkey, setPath_cons]
  exact forall_mem_update h fun hdot => absurd hdot (dot_not_mem_of_mem_segments hmem)

/-- A probe that is made again finds its own demand, if it finds anything. -/
theorem NestsDots.setPath_probe {doc : Document} (h : doc.NestsDots) {key : String} {value : Value}
    (hprobe : IsProbe key value) : (doc.setPath [key] value).NestsDots := by
  refine forall_mem_update h fun hdot => ?_
  obtain ⟨field, index, hkey, hne, hdigits, rfl⟩ := hprobe
  refine ⟨field, index, hkey, hne, hdigits, ?_⟩
  cases hold : doc.get? key with
  | none => exact Value.mergeOver_none _
  | some old =>
    obtain ⟨-, -, -, -, -, rfl⟩ := h _ (get?_mem hold) hdot
    rfl

end Document

def Builder.isProbe : Builder → Bool
  | .builtin .hasIndex => true
  | .builtin .hasIndexAfter => true
  | _ => false

theorem Definition.exists_elementPath {d : Definition} (h : d.builder.isProbe = true) {o : Operands}
    {host : Host} {settings : Settings} {doc : Document}
    (hdoc : d.build host o settings = .ok doc) :
    ∃ index, doc = [(elementPath o.left index, .object [("$exists", .bool true)])] := by
  rw [Definition.build] at hdoc
  split at hdoc
  · rename_i kind hkind
    rw [hkind] at h
    cases kind with
    | hasIndex =>
      obtain ⟨index, -, hdoc⟩ := exists_of_bind_eq_ok hdoc
      cases hdoc
      exact ⟨index, rfl⟩
    | hasIndexAfter =>
      obtain ⟨index, -, hdoc⟩ := exists_of_bind_eq_ok hdoc
      cases hdoc
      exact ⟨index + 1, rfl⟩
    | _ => cases h
  · rename_i name hname
    rw [hname] at h
    cases h

namespace Compiler
variable {c : Compiler}

/-- Keys are read as paths, those of index probes apart. -/
structure ExpandsDots (c : Compiler) : Prop where
  merge : c.settings.merge = .dotted
  literals : c.settings.mergeLiterals ≠ some .literal
  clauses : c.settings.mergeClauses ≠ some .literal
  probes : ∀ d ∈ c.settings.table, d.merge = some .literal → d.builder.isProbe = true

theorem standard_expandsDots (builders : Builders) : (standard builders).ExpandsDots where
  merge := rfl
  literals := by simp [standard, braced]
  clauses := by simp [standard, braced]
  probes := by
    have hall : Table.standard.all (fun d => d.merge != some .literal || d.builder.isProbe) = true :=
      rfl
    intro d hd hmerge
    simpa [hmerge] using List.all_eq_true.mp hall d hd

theorem ExpandsDots.getD {strategy : Option Strategy} (h : strategy ≠ some .literal) :
    strategy.getD .dotted = .dotted := by
  cases strategy with
  | none => rfl
  | some strategy =>
    cases strategy with
    | dotted => rfl
    | literal => exact absurd rfl h

theorem ExpandsDots.merge_of_literal (hc : c.ExpandsDots) {f : Fragment}
    (h : c.clauseStrategy f = .literal) : f.merge = some .literal := by
  rw [clauseStrategy, hc.merge] at h
  cases hf : f.merge with
  | none =>
    rw [hf, Option.none_or, ExpandsDots.getD hc.clauses] at h
    cases h
  | some strategy =>
    rw [hf] at h
    exact congrArg some h

theorem ExpandsDots.nestsDots_merge (hc : c.ExpandsDots) {inputs : List Input}
    {part : Strategy × Document} (hpart : c.ItemOf inputs (.ok part)) {doc : Document}
    (h : doc.NestsDots) : (doc.merge part.1 part.2).NestsDots := by
  have hdotted : ∀ fragment, (doc.merge .dotted fragment).NestsDots := fun fragment =>
    Document.merge_induct h fun entry _ doc hdoc => hdoc.setPath_segments entry.1 entry.2
  cases hpart with
  | document source _ =>
    rw [hc.merge]
    exact hdotted source
  | literal text source _ _ _ =>
    rw [hc.merge, ExpandsDots.getD hc.literals]
    exact hdotted source
  | clause text clause f _ _ hfragment =>
    dsimp only
    cases hstrategy : c.clauseStrategy f with
    | dotted => exact hdotted f.document
    | literal =>
      obtain ⟨d, hd, captures, -, hbuild, hmerge⟩ := Table.exists_of_fragment hfragment
      have hprobe := hc.probes d hd (hmerge ▸ hc.merge_of_literal hstrategy)
      obtain ⟨index, hdoc⟩ := Definition.exists_elementPath hprobe hbuild
      rw [hdoc]
      exact h.setPath_probe (isProbe_elementPath _ index)

theorem ExpandsDots.nestsDots_run (hc : c.ExpandsDots) {inputs : List Input} {doc : Document}
    (h : c.run inputs = .ok doc) : doc.NestsDots :=
  run_induct (by simp [Document.NestsDots]) (fun _ hpart _ => hc.nestsDots_merge hpart) h

end Compiler

theorem compile_eq_standard (builders : Builders) (inputs : List Input) :
    compile (.basic builders) inputs = (Compiler.standard builders).compile inputs := by
  rw [compile, Compiler.build_standard]
  rfl

/-- Under the default settings a key on the top level has a dot in it only if it is that of an index
probe: it ends in a dot and the digits of an index, and its value is the demand that the element be
there. -/
theorem compile_nests_dots (builders : Builders) (inputs : List Input)
    (hlast : ∀ overlay, inputs.getLast? ≠ some (.overlay overlay)) (doc : Document)
    (h : compile (.basic builders) inputs = .ok doc) :
    ∀ key value, (key, value) ∈ doc → '.' ∈ key.toList → IsProbe key value := by
  rw [compile_eq_standard, Compiler.compile_eq_run _ hlast] at h
  intro key value hmem hdot
  exact (Compiler.standard_expandsDots builders).nestsDots_run h (key, value) hmem hdot

/-- One key as the path of a field, as an index probe, and with an index beyond the whole numbers that
doubles tell apart. -/
theorem compile_nests_dots_mixed :
    let builders : Builders := fun _ _ _ => .ok []
    let inputs : List Input :=
      [.document [("a.5", .null)], .list [.text "a#>=5,a.5=x", .scalar .null], .text "a.5#>1e22"]
    let doc : Document :=
      [("a", .object [("5", .string "x")]), ("a.5", .object [("$exists", .bool true)]),
        ("a.5.10000000000000000000000", .object [("$exists", .bool true)])]
    (∀ overlay, inputs.getLast? ≠ some (.overlay overlay)) ∧
      compile (.basic builders) inputs = .ok doc ∧
      IsProbe "a.5" (.object [("$exists", .bool true)]) ∧
      IsProbe "a.5.10000000000000000000000" (.object [("$exists", .bool true)]) := by
  intro builders inputs doc
  have hlast : ∀ overlay, inputs.getLast? ≠ some (.overlay overlay) := by
    intro overlay h
    cases h
  let c := Compiler.standard builders
  have hitems : c.items inputs =
      [.ok (.dotted, [("a.5", .null)]), c.clauseItem "a#>=5", c.clauseItem "a.5=x",
        c.clauseItem "a.5#>1e22"] := by rfl
  have hprobe : c.clauseItem "a#>=5" =
      .ok (.literal, [("a.5", .object [("$exists", .bool true)])]) :=
    (Compiler.clauseItem_eq_filter {} false _).trans rfl
  have hfield : c.clauseItem "a.5=x" = .ok (.dotted, [("a.5", .string "x")]) :=
    (Compiler.clauseItem_eq_filter {} false _).trans rfl
  have hfar : c.clauseItem "a.5#>1e22" =
      .ok (.literal, [("a.5.10000000000000000000000", .object [("$exists", .bool true)])]) :=
    (Compiler.clauseItem_eq_filter {} false _).trans rfl
  have hdoc : compile (.basic builders) inputs = .ok doc := by
    rw [compile_eq_standard, c.compile_eq_run hlast, c.run_eq_outcome, hitems, hprobe, hfield, hfar]
    rfl
  have hprobes := compile_nests_dots builders inputs hlast doc hdoc
  exact ⟨hlast, hdoc, hprobes _ _ (by simp [doc]) (by decide),
    hprobes _ _ (by simp [doc]) (by decide)⟩

end FilterQuery
