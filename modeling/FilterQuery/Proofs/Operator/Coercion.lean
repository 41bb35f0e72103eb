import FilterQuery.Proofs.Operator.Grammar
import FilterQuery.Proofs.Operator.Precedence

/-! The guess of the type of a right operand. Main statement: it changes the value that three kinds
of operators put into a document, and nothing else. -/
namespace FilterQuery

namespace Kind
variable {kind : Kind}

/-- The document of a field and the value of its operand, for the kinds that put in the value. All
others take the text of the operand, or none. -/
def holding? : Kind → Option (String → Value → Document)
  | notEqual => some fun left value => applied left "$ne" value
  | equal => some fun left value => .single left value
  | size => some fun left value => applied left "$size" value
  | _ => none

theorem build_of_holding {holding : String → Value → Document} (h : kind.holding? = some holding)
    (o : Operands) (prefs : Preferences) :
    kind.build o prefs = o.requireValue.map (holding o.left) := by
  cases kind with
  | notEqual | equal | size =>
    cases h
    rw [build]
    cases o.requireValue <;> rfl
  | _ => cases h

theorem build_of_text (h : kind.holding? = none) (o : Operands) (prefs : Preferences)
    (value : Option Value) (coerceOperands : Bool) :
    kind.build { o with value } { prefs with coerceOperands } = kind.build o prefs := by
  cases kind with
  | notEqual | equal | size => cases h
  | _ => rfl

end Kind

theorem Operands.requireValue_eq {o : Operands} {f : String → Value} (h : o.value = o.raw.map f) :
    o.requireValue = o.requireRaw.map f := by
  rw [requireValue, requireRaw, h]
  cases o.raw <;> rfl

theorem Definition.merge_of_fragment {d : Definition} {host : Host} {settings : Settings}
    {clause : String} {captures : Captures} {f : Fragment}
    (h : d.fragment host settings clause captures = .ok f) : f.merge = d.merge := by
  rw [fragment] at h
  cases hbuild : d.build host (d.operands settings.toPreferences clause captures) settings with
  | error e =>
    rw [hbuild] at h
    cases h
  | ok document =>
    rw [hbuild] at h
    cases h
    rfl

namespace Definition
variable {d : Definition} {kind : Kind} (hkind : d.builder = .builtin kind) (host : Host)
  (settings : Settings) (clause : String) (captures : Captures) (coerceOperands : Bool)
include hkind

theorem fragment_of_text (h : kind.holding? = none) :
    d.fragment host { settings with coerceOperands } clause captures =
      d.fragment host settings clause captures := by
  let prefs : Preferences := { settings.toPreferences with coerceOperands }
  rw [fragment, fragment, build, build, hkind]
  have hbuild := kind.build_of_text h (d.operands settings.toPreferences clause captures)
    settings.toPreferences (d.operands prefs clause captures).value coerceOperands
  exact congrArg _ hbuild

theorem fragment_of_holding {holding : String → Value → Document}
    (h : kind.holding? = some holding) :
    d.fragment host { settings with coerceOperands } clause captures =
      (d.operands settings.toPreferences clause captures).requireRaw.map fun raw =>
        ⟨holding (d.operands settings.toPreferences clause captures).left
          (if coerceOperands then .guess raw else .string raw), d.merge⟩ := by
  let prefs : Preferences := { settings.toPreferences with coerceOperands }
  let o := d.operands prefs clause captures
  have hvalue : o.requireValue = o.requireRaw.map fun raw =>
      if coerceOperands then .guess raw else .string raw := Operands.requireValue_eq rfl
  rw [fragment, build, hkind]
  dsimp only
  rw [Kind.build_of_holding h, hvalue]
  -- the switch has no part in whether there is a text
  have hraw : o.requireRaw = (d.operands settings.toPreferences clause captures).requireRaw := rfl
  rw [hraw]
  cases (d.operands settings.toPreferences clause captures).requireRaw <;> rfl

omit coerceOperands in
/-- One definition with and without the guess: the same failure, or the same fragment up to the value
that the kind holds. -/
theorem fragment_coercion :
    (∃ e, ∀ coerceOperands : Bool,
      d.fragment host { settings with coerceOperands } clause captures = .error e) ∨
    match kind.holding? with
    | none => ∃ f, f.merge = d.merge ∧ ∀ coerceOperands : Bool,
        d.fragment host { settings with coerceOperands } clause captures = .ok f
    | some holding => ∃ left raw, ∀ coerceOperands : Bool,
        d.fragment host { settings with coerceOperands } clause captures =
          .ok ⟨holding left (if coerceOperands then .guess raw else .string raw), d.merge⟩ := by
  cases hholding : kind.holding? with
  | none =>
    have hsame := fun coerceOperands =>
      d.fragment_of_text hkind host settings clause captures coerceOperands hholding
    cases hf : d.fragment host settings clause captures with
    | error e => exact .inl ⟨e, fun coerceOperands => (hsame coerceOperands).trans hf⟩
    | ok f =>
      exact .inr ⟨f, merge_of_fragment hf, fun coerceOperands => (hsame coerceOperands).trans hf⟩
  | some holding =>
    have hheld := fun coerceOperands =>
      d.fragment_of_holding hkind host settings clause captures coerceOperands hholding
    cases hraw : (d.operands settings.toPreferences clause captures).requireRaw with
    | error e =>
      rw [hraw] at hheld
      exact .inl ⟨e, hheld⟩
    | ok raw =>
      rw [hraw] at hheld
      exact .inr ⟨_, raw, hheld⟩

end Definition

/-- With built-in operators, a strict compilation of a clause gives the same with or without the
guess of the operand's type: the same error, or the same fragment. Only the kinds that hold the value
of their operand hold the text in one case and the guess from this text in the other. -/
theorem compileClause_coercion (host : Host) (table : Table) (htable : table.BuiltIn)
    (settings : Settings) (hstrict : settings.throwOnError = true) (clause : String) :
    (∃ e, ∀ coerceOperands : Bool,
      table.compileClause host { settings with coerceOperands } clause = .error e) ∨
    ∃ before d after captures kind, table = before ++ d :: after ∧
      (∀ e ∈ before, e.captures host.read? clause = .ok none) ∧
      d.captures host.read? clause = .ok (some captures) ∧ d.builder = .builtin kind ∧
      match kind.holding? with
      | none => ∃ f, f.merge = d.merge ∧ ∀ coerceOperands : Bool,
          table.compileClause host { settings with coerceOperands } clause = .ok f
      | some holding => ∃ left raw, ∀ coerceOperands : Bool,
          table.compileClause host { settings with coerceOperands } clause =
            .ok ⟨holding left (if coerceOperands then .guess raw else .string raw), d.merge⟩ := by
  have hcompile : ∀ coerceOperands : Bool,
      table.compileClause host { settings with coerceOperands } clause =
        table.fragment host { settings with coerceOperands } clause := fun coerceOperands =>
    @Table.compileClause_strict table host { settings with coerceOperands } hstrict clause
  simp only [hcompile]
  obtain ⟨e, he⟩ | ⟨before, d, after, captures, hsplit, hbefore, hd, hfragment⟩ :=
    table.fragment_cases host clause
  · exact .inl ⟨e, fun _ => he _⟩
  obtain ⟨kind, hkind⟩ := htable d (by simp [hsplit])
  simp only [hfragment]
  obtain hfail | hbuilt := d.fragment_coercion hkind host settings clause captures
  · exact .inl hfail
  · exact .inr ⟨before, d, after, captures, kind, hsplit, hbefore, hd, hkind, hbuilt⟩

/-- Under an operator with a pattern of its own, the switch makes a number of the text. -/
theorem compileClause_coercion_size :
    let host : Host := .basic fun _ _ _ => .ok []
    let table : Table := [.patterned "counts" "^(?<a>[a-z]+) counts (?<b>.+)$" .size]
    table.BuiltIn ∧
    table.compileClause host { coerceOperands := false } "tags counts 2" =
      .ok ⟨applied "tags" "$size" (.string "2"), none⟩ ∧
    table.compileClause host {} "tags counts 2" =
      .ok ⟨applied "tags" "$size" (.number (.ofNat 2)), none⟩ := by
  intro host table
  have hguess : Value.guess "2" = .number (.ofNat 2) := by
    rw [Value.guess, show Number.ofText? "2" = some (.ofNat 2) by decide +kernel]
  have htable : table.BuiltIn := by
    intro d hd
    rw [List.mem_singleton.mp hd]
    exact ⟨_, rfl⟩
  have hplain : table.compileClause host { coerceOperands := false } "tags counts 2" =
      .ok ⟨applied "tags" "$size" (.string "2"), none⟩ := rfl
  refine ⟨htable, hplain, ?_⟩
  obtain ⟨e, he⟩ | ⟨before, d, after, captures, kind, hsplit, -, -, hkind, hresult⟩ :=
    compileClause_coercion host table htable {} rfl "tags counts 2"
  · cases hplain.symm.trans (he false)
  · cases before with
    | cons e before => simp [table] at hsplit
    | nil =>
      obtain ⟨rfl, rfl⟩ := List.cons.inj hsplit
      cases hkind
      obtain ⟨left, raw, hresult⟩ := hresult
      cases hplain.symm.trans (hresult false)
      rw [← hguess]
      exact hresult true

end FilterQuery
