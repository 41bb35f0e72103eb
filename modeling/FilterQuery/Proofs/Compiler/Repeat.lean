import FilterQuery.Proofs.Compiler.Items
import FilterQuery.Proofs.Compiler.Standard
import FilterQuery.Proofs.Document.Replay
import FilterQuery.Proofs.Literal.WellFormed
import FilterQuery.Proofs.Operator.WellFormed

/-! Compiling inputs twice over. Main statement: the second time changes nothing. -/
namespace FilterQuery

/-- The documents among the inputs have no object with a key twice. -/
def Input.WellFormed (inputs : List Input) : Prop :=
  ∀ doc, .document doc ∈ inputs.flatMap Input.spread → doc.WellFormed

theorem Item.outcome_append_self (ends : Error → Bool) (items : List Item)
    (h : ∀ part ∈ Item.parts items, part.2.WellFormed) :
    Item.outcome ends (items ++ items) = Item.outcome ends items := by
  have hparts : Document.mergeAll [] (Item.parts items ++ Item.parts items) =
      Document.mergeAll [] (Item.parts items) := by
    rw [Document.mergeAll, List.foldl_append]
    exact Document.mergeAll_mergeAll [] Document.wellFormed_nil _ h
  rw [Item.outcome, Item.outcome, Item.faults_append, Item.parts_append, hparts,
    List.find?_append, Option.or_self]

theorem Compiler.items_wellFormed {c : Compiler} (hc : c.settings.table.WellFormed c.host)
    {inputs : List Input} (hinputs : Input.WellFormed inputs) :
    ∀ part ∈ Item.parts (c.items inputs), part.2.WellFormed := by
  intro part hpart
  cases itemOf_of_mem (Item.mem_of_mem_parts hpart) with
  | document doc hinput => exact hinputs doc hinput
  | literal text doc _ _ hdecode => exact Literal.decode_wellFormed hdecode
  | clause text clause f _ _ hfragment => exact hc.fragment hfragment

/-- Inputs without an overlay at the end give the same twice over as once: the same fault, or the
same document with all its keys in the same order. -/
theorem compile_append_self (c : Compiler) (hc : c.settings.table.WellFormed c.host)
    (inputs : List Input) (hinputs : Input.WellFormed inputs)
    (hlast : ∀ overlay, inputs.getLast? ≠ some (.overlay overlay)) :
    c.compile (inputs ++ inputs) = c.compile inputs := by
  have htwice : ∀ overlay, (inputs ++ inputs).getLast? ≠ some (.overlay overlay) := by
    intro overlay
    rw [List.getLast?_append, Option.or_self]
    exact hlast overlay
  rw [c.compile_eq_run htwice, c.compile_eq_run hlast, c.run_eq_outcome, c.run_eq_outcome,
    c.items_append]
  exact Item.outcome_append_self c.ends _ (Compiler.items_wellFormed hc hinputs)

theorem compile_append_self_overwritten :
    let above : Definition :=
      { id := "..", shape := .between, merge := some .literal, builder := .custom "above" }
    let builders : Builders := fun _ o _ => .ok (applied o.left "$gt" (.string (o.raw.getD "")))
    let c := Compiler.braced builders
      { throwOnError := false, mergeLiterals := some .literal, dialect := .strict,
        table := [above, .binary "=" .equal] } false
    let inputs : List Input :=
      [.text "a=b,a.b..c", .list [.document [("a", .object [("b", .object []), ("d", .null)])]],
        .list [.list []], .text "\x7b\"a.b\":[]\x7d", .text "a.b=e"]
    c.settings.table.WellFormed c.host ∧ Input.WellFormed inputs ∧
    (∀ overlay, inputs.getLast? ≠ some (.overlay overlay)) ∧
    c.compile (inputs ++ inputs) = c.compile inputs ∧
    c.compile inputs = .ok [("a", .object [("b", .string "e"), ("d", .null)]),
      ("a.b", .array [])] := by
  intro above builders c inputs
  have hc : c.settings.table.WellFormed c.host := by
    intro d hd name hname o settings doc ho hdoc
    cases hdoc
    exact applied_wellFormed (by simp [Value.WellFormed]) _ _
  have hinputs : Input.WellFormed inputs := by
    intro doc hdoc
    obtain rfl : doc = [("a", .object [("b", .object []), ("d", .null)])] := by
      simpa [inputs, Input.spread] using hdoc
    simp [Document.wellFormed_iff, Value.WellFormed, entriesWellFormed]
  have hlast : ∀ overlay, inputs.getLast? ≠ some (.overlay overlay) := by
    intro overlay h
    cases h
  refine ⟨hc, hinputs, hlast, compile_append_self c hc inputs hinputs hlast, ?_⟩
  have hclauses : c.textItems "a=b,a.b..c" =
      [.ok (.dotted, [("a", .string "b")]),
        .ok (.literal, [("a.b", .object [("$gt", .string "c")])])] := by
    subst c builders above
    rfl
  have hbraces : c.isObjectLike "\x7b\"a.b\":[]\x7d" = true := by
    subst c
    decide
  have hdecode : Literal.decode c.settings.dialect "\x7b\"a.b\":[]\x7d" =
      .ok [("a.b", .array [])] := by
    subst c
    simp [Compiler.braced, Literal.decode, Literal.Dialect.read?, Literal.Strict.read?,
      Literal.Strict.readWithin?, Literal.Strict.maxDepth, Literal.Strict.readValue?, Literal.Strict.skip,
      Literal.Strict.isSpace, Literal.Strict.readEntries?, Literal.Strict.readString?,
      Document.ofEntries, Document.insert, Document.update]
  have hliteral : c.textItems "\x7b\"a.b\":[]\x7d" = [.ok (.literal, [("a.b", .array [])])] := by
    rw [Compiler.textItems, if_pos hbraces, hdecode]
    rfl
  have hclause : c.textItems "a.b=e" = [.ok (.dotted, [("a.b", .string "e")])] := by
    subst c builders above
    rfl
  rw [c.compile_eq_run hlast, c.run_eq_outcome]
  simp only [Compiler.items, inputs, List.flatMap_cons, List.flatMap_nil, Compiler.inputItems,
    hclauses, hliteral, hclause]
  rfl

end FilterQuery
