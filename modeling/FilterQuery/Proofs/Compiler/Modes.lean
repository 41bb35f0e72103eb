import FilterQuery.Proofs.Compiler.Items
import FilterQuery.Proofs.Compiler.Standard
import FilterQuery.Proofs.Operator.Grammar

/-! Strict and lenient compilations. Both follow from the items of the inputs: a strict one ends with
the first fault, a lenient one with the first fault that cannot be passed over. -/
namespace FilterQuery

namespace Item

theorem outcome_eq_ok_iff (ends : Error → Bool) (items : List Item) (doc : Document) :
    outcome ends items = .ok doc ↔
      (∀ e ∈ faults items, ends e = false) ∧ Document.mergeAll [] (parts items) = doc := by
  rw [outcome]
  cases hfind : (faults items).find? ends with
  | none =>
    have hall : ∀ e ∈ faults items, ends e = false := by simpa using hfind
    simpa using fun _ => hall
  | some e =>
    have hmem := List.mem_of_find?_eq_some hfind
    have he := List.find?_some hfind
    simp only [reduceCtorEq, false_iff, not_and]
    intro hall
    rw [hall e hmem] at he
    cases he

end Item

namespace Table

end Table

namespace Compiler

def withMode (c : Compiler) (throwOnError : Bool) : Compiler :=
  { c with settings := { c.settings with throwOnError } }

abbrev strict (c : Compiler) : Compiler := c.withMode true

abbrev lenient (c : Compiler) : Compiler := c.withMode false

end Compiler

end FilterQuery
