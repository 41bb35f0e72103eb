import FilterQuery.Clause
import FilterQuery.Proofs.Document.Entries
import FilterQuery.Proofs.Value.Guess

/-! What operators build: documents in which no object has a key twice, from operands that are plain
values. -/
namespace FilterQuery

theorem Value.guess_wellFormed (text : String) : (Value.guess text).WellFormed := by
  rw [Value.guess]
  split
  · simp [Value.WellFormed]
  · split
    · simp [Value.WellFormed]
    · split <;> simp [Value.WellFormed]

theorem Preferences.operandValue_wellFormed (prefs : Preferences) (raw : String) :
    (prefs.operandValue raw).WellFormed := by
  rw [operandValue]
  split
  · exact Value.guess_wellFormed raw
  · simp [Value.WellFormed]

theorem Document.single_wellFormed {value : Value} (h : value.WellFormed) (key : String) :
    (Document.single key value).WellFormed :=
  (Document.wellFormed_iff _).mpr ⟨List.nodup_singleton key, by simpa [Document.single] using h⟩

theorem applied_wellFormed {value : Value} (h : value.WellFormed) (left symbol : String) :
    (applied left symbol value).WellFormed :=
  Document.single_wellFormed (Document.single_wellFormed h symbol) left

theorem exists_of_bind_eq_ok {α β : Type} {x : Except Error α} {f : α → Except Error β} {b : β}
    (h : (x >>= f) = .ok b) : ∃ a, x = .ok a ∧ f a = .ok b := by
  cases x with
  | error e => cases h
  | ok a => exact ⟨a, rfl, h⟩

namespace Operands

def WellFormed (o : Operands) : Prop :=
  ∀ value, o.value = some value → value.WellFormed

theorem WellFormed.requireValue {o : Operands} (h : o.WellFormed) {value : Value}
    (hv : o.requireValue = .ok value) : value.WellFormed := by
  obtain ⟨raw, -, hvalue⟩ := exists_of_bind_eq_ok hv
  cases hvalue
  cases hsome : o.value with
  | none => simp [Value.WellFormed]
  | some value => exact h value hsome

theorem requireElements_wellFormed {o : Operands} {separator : Char} {value : Value}
    (hv : o.requireElements separator = .ok value) : value.WellFormed := by
  obtain ⟨raw, -, hvalue⟩ := exists_of_bind_eq_ok hv
  cases hvalue
  refine Value.wellFormed_array fun item hitem => ?_
  obtain ⟨text, -, rfl⟩ := List.mem_map.mp hitem
  exact Value.guess_wellFormed text

end Operands

theorem Kind.build_wellFormed {kind : Kind} {o : Operands} {prefs : Preferences} {doc : Document}
    (ho : o.WellFormed) (h : kind.build o prefs = .ok doc) : doc.WellFormed := by
  cases kind with
  | notEqual | size =>
    obtain ⟨value, hvalue, hdoc⟩ := exists_of_bind_eq_ok h
    cases hdoc
    exact applied_wellFormed (ho.requireValue hvalue) _ _
  | equal =>
    obtain ⟨value, hvalue, hdoc⟩ := exists_of_bind_eq_ok h
    cases hdoc
    exact Document.single_wellFormed (ho.requireValue hvalue) _
  | isNull | isUndefined | isFalse | isTrue =>
    cases h
    exact Document.single_wellFormed (by simp [Value.WellFormed]) _
  | absent | present =>
    cases h
    exact applied_wellFormed (by simp [Value.WellFormed]) _ _
  | notAmong | among =>
    obtain ⟨value, hvalue, hdoc⟩ := exists_of_bind_eq_ok h
    cases hdoc
    exact applied_wellFormed (Operands.requireElements_wellFormed hvalue) _ _
  | occurs | starts | ends | hasIndex | hasIndexAfter | atLeast | atMost | above | below =>
    obtain ⟨operand, -, hdoc⟩ := exists_of_bind_eq_ok h
    cases hdoc
    exact applied_wellFormed (by simp [Value.WellFormed]) _ _

/-! ### Fragments and the operands they are built from -/

theorem Preferences.isScalar_operandValue (prefs : Preferences) (raw : String) :
    (prefs.operandValue raw).isScalar = true := by
  rw [operandValue]
  split
  · exact Value.isScalar_guess raw
  · rfl

/-- The value on the right of a clause comes from its text, and is never undefined. -/
theorem Definition.exists_operandValue {d : Definition} {prefs : Preferences} {clause : String}
    {captures : Captures} {value : Value}
    (h : (d.operands prefs clause captures).requireValue = .ok value) :
    ∃ raw, value = prefs.operandValue raw := by
  obtain ⟨raw, hraw, hvalue⟩ := exists_of_bind_eq_ok h
  rw [Operands.requireRaw] at hraw
  split at hraw
  · rename_i text htext
    have hsome : (d.operands prefs clause captures).value = some (prefs.operandValue text) :=
      congrArg (Option.map prefs.operandValue) htext
    rw [hsome] at hvalue
    cases hvalue
    exact ⟨text, rfl⟩
  · cases hraw

namespace Table
variable {table : Table} {host : Host} {settings : Settings} {clause : String} {f : Fragment}

/-- A fragment is what one of the definitions makes of the clause it matches. -/
theorem exists_of_fragment (h : table.fragment host settings clause = .ok f) :
    ∃ d ∈ table, ∃ captures, d.captures host.read? clause = .ok (some captures) ∧
      d.build host (d.operands settings.toPreferences clause captures) settings = .ok f.document ∧
      f.merge = d.merge := by
  induction table with
  | nil => cases h
  | cons d rest ih =>
    rw [Table.fragment] at h
    split at h
    · cases h
    · obtain ⟨e, he, hbuilt⟩ := ih h
      exact ⟨e, List.mem_cons_of_mem d he, hbuilt⟩
    · rename_i captures hcaptures
      refine ⟨d, List.mem_cons_self, captures, hcaptures, ?_⟩
      rw [Definition.fragment] at h
      cases hbuild : d.build host (d.operands settings.toPreferences clause captures) settings with
      | error e =>
        rw [hbuild] at h
        cases h
      | ok document =>
        rw [hbuild] at h
        cases h
        exact ⟨rfl, rfl⟩

/-- Custom builders keep to documents in which no object has a key twice. -/
def WellFormed (table : Table) (host : Host) : Prop :=
  ∀ d ∈ table, ∀ name, d.builder = .custom name → ∀ o settings doc, o.WellFormed →
    host.build name o settings = .ok doc → doc.WellFormed

theorem WellFormed.fragment (h : table.WellFormed host)
    (hf : table.fragment host settings clause = .ok f) : f.document.WellFormed := by
  obtain ⟨d, hd, captures, -, hbuild, -⟩ := exists_of_fragment hf
  have hoperands : (d.operands settings.toPreferences clause captures).WellFormed := by
    intro value hvalue
    obtain ⟨raw, -, rfl⟩ := Option.map_eq_some_iff.mp hvalue
    exact settings.operandValue_wellFormed raw
  rw [Definition.build] at hbuild
  split at hbuild
  · exact Kind.build_wellFormed hoperands hbuild
  · rename_i name hbuilder
    exact h d hd name hbuilder _ _ _ hoperands hbuild

end Table
end FilterQuery
