import FilterQuery.Compiler
import FilterQuery.Proofs.Document.Writes

/-! Compilations as folds. Every input contributes items, each a fragment with its strategy or the
reason why there is none. Main statement: a compilation ends with the first fault that its mode does
not pass over, or else merges all the fragments there are. -/
namespace FilterQuery

/-- What an input or clause contributes: a fragment with the strategy it is merged by, or a fault. -/
abbrev Item := Except Error (Strategy × Document)

namespace Item

def faults (items : List Item) : List Error :=
  items.filterMap fun
    | .ok _ => none
    | .error e => some e

def parts (items : List Item) : List (Strategy × Document) :=
  items.filterMap Except.toOption

@[simp] theorem faults_error (e : Error) (rest : List Item) :
    faults (.error e :: rest) = e :: faults rest := rfl

@[simp] theorem parts_error (e : Error) (rest : List Item) :
    parts (.error e :: rest) = parts rest := rfl

theorem mem_of_mem_faults {items : List Item} {e : Error} (h : e ∈ faults items) :
    .error e ∈ items := by
  obtain ⟨item, hitem, hfault⟩ := List.mem_filterMap.mp h
  cases item with
  | ok part => cases hfault
  | error fault =>
    cases hfault
    exact hitem

theorem mem_of_mem_parts {items : List Item} {part : Strategy × Document} (h : part ∈ parts items) :
    .ok part ∈ items := by
  obtain ⟨item, hitem, hok⟩ := List.mem_filterMap.mp h
  cases item with
  | ok found =>
    cases hok
    exact hitem
  | error e => cases hok

theorem faults_append (a b : List Item) : faults (a ++ b) = faults a ++ faults b :=
  List.filterMap_append

theorem parts_append (a b : List Item) : parts (a ++ b) = parts a ++ parts b :=
  List.filterMap_append

/-- What items give if some faults end the compilation and all others are passed over. -/
def outcome (ends : Error → Bool) (items : List Item) : Except Error Document :=
  match (faults items).find? ends with
  | some e => .error e
  | none => .ok (Document.mergeAll [] (parts items))

def applyAll (ends : Error → Bool) : Document → List Item → Except Error Document
  | doc, [] => .ok doc
  | doc, .ok part :: rest => applyAll ends (doc.merge part.1 part.2) rest
  | doc, .error e :: rest => if ends e then .error e else applyAll ends doc rest

theorem applyAll_eq (ends : Error → Bool) (doc : Document) (items : List Item) :
    applyAll ends doc items =
      match (faults items).find? ends with
      | some e => .error e
      | none => .ok (doc.mergeAll (parts items)) := by
  induction items generalizing doc with
  | nil => rfl
  | cons item rest ih =>
    cases item with
    | ok part => exact ih (doc.merge part.1 part.2)
    | error e =>
      rw [applyAll, ih doc]
      by_cases he : ends e <;> simp [he]

theorem applyAll_append (ends : Error → Bool) (doc : Document) (a b : List Item) :
    applyAll ends doc (a ++ b) = (applyAll ends doc a).bind fun doc => applyAll ends doc b := by
  induction a generalizing doc with
  | nil => rfl
  | cons item rest ih =>
    cases item with
    | ok part => exact ih (doc.merge part.1 part.2)
    | error e =>
      simp only [List.cons_append, applyAll, ih doc]
      by_cases he : ends e
      · simp [he, Except.bind]
      · simp [he]

/-- Only a fault that ends the compilation comes out of it. -/
theorem ends_of_applyAll_eq_error {ends : Error → Bool} {doc : Document} {items : List Item}
    {e : Error} (h : applyAll ends doc items = .error e) : ends e = true := by
  rw [applyAll_eq] at h
  split at h
  · rename_i fault hfind
    cases h
    exact List.find?_some hfind
  · simp at h

end Item

namespace Compiler

def clauseItem (c : Compiler) (clause : String) : Item :=
  (c.settings.table.fragment c.host c.settings clause).map fun f =>
    (c.clauseStrategy f, f.document)

/-- What a text contributes: one item for a literal, or one for each clause that is not empty. -/
def textItems (c : Compiler) (text : String) : List Item :=
  if c.isObjectLike text then
    [(Literal.decode c.settings.dialect text).map fun doc =>
      (c.settings.mergeLiterals.getD c.settings.merge, doc)]
  else
    ((Field.split c.settings.clauseSeparator text).filter fun clause => !clause.isEmpty).map
      c.clauseItem

def inputItems (c : Compiler) : Input → List Item
  | .document doc => [.ok (c.settings.merge, doc)]
  | .text text => c.textItems text
  | .scalar _ => []
  | .list _ => [.error (.input .nestedList)]
  | .overlay _ => [.error (.input .misplacedOverlay)]

def items (c : Compiler) (inputs : List Input) : List Item :=
  inputs.flatMap fun
    | .list inner => inner.flatMap c.inputItems
    | input => c.inputItems input

def ends (c : Compiler) (e : Error) : Bool :=
  c.settings.throwOnError || !e.isSuppressible

theorem items_eq (c : Compiler) (inputs : List Input) :
    c.items inputs = (inputs.flatMap Input.spread).flatMap c.inputItems := by
  rw [items, List.flatMap_assoc]
  refine List.flatMap_congr fun input _ => ?_
  cases input <;> simp [Input.spread]

theorem items_append (c : Compiler) (a b : List Input) :
    c.items (a ++ b) = c.items a ++ c.items b :=
  List.flatMap_append

theorem merge_empty (doc : Document) (strategy : Strategy) : doc.merge strategy [] = doc := by
  cases strategy <;> rfl

theorem applyClauses_eq (c : Compiler) (doc : Document) (clauses : List String) :
    c.applyClauses doc clauses =
      Item.applyAll c.ends doc ((clauses.filter fun clause => !clause.isEmpty).map c.clauseItem) := by
  induction clauses generalizing doc with
  | nil => rfl
  | cons clause rest ih =>
    rw [applyClauses]
    by_cases hempty : clause.isEmpty
    · simpa [hempty] using ih doc
    · simp only [hempty, Bool.not_false, Bool.false_eq_true, if_false, List.filter_cons_of_pos,
        List.map_cons]
      rw [Table.compileClause, clauseItem]
      cases c.settings.table.fragment c.host c.settings clause with
      | ok f => exact ih _
      | error e =>
        -- a clause that is left out merges the empty fragment
        have hmode : (!c.settings.throwOnError && e.isSuppressible) = !c.ends e := by
          simp [ends, Bool.not_or]
        simp only [hmode, Except.map, Item.applyAll]
        by_cases he : c.ends e
        · simp [he]
        · simp [he, ih, Fragment.empty, merge_empty]

theorem apply_eq (c : Compiler) (doc : Document) (input : Input) :
    (match c.apply doc input with
      | .ok doc => Except.ok doc
      | .error e => if c.ends e then .error e else .ok doc) =
      Item.applyAll c.ends doc (c.inputItems input) := by
  cases input with
  | document source => rfl
  | scalar value => rfl
  | list inner => rfl
  | overlay overlay => rfl
  | text text =>
    simp only [apply, applyText, inputItems, textItems]
    by_cases hobject : c.isObjectLike text
    · simp only [hobject, if_true]
      cases Literal.decode c.settings.dialect text <;> rfl
    · simp only [hobject, Bool.false_eq_true, if_false]
      rw [applyClauses_eq]
      split
      · rename_i result heq
        exact heq.symm
      · rename_i e heq
        rw [if_pos (Item.ends_of_applyAll_eq_error heq)]
        exact heq.symm

theorem applyAll_eq (c : Compiler) (doc : Document) (inputs : List Input) :
    c.applyAll doc inputs = Item.applyAll c.ends doc (inputs.flatMap c.inputItems) := by
  induction inputs generalizing doc with
  | nil => rfl
  | cons input rest ih =>
    rw [applyAll, List.flatMap_cons, Item.applyAll_append, ← apply_eq]
    cases c.apply doc input with
    | ok result => exact ih result
    | error e =>
      by_cases he : c.ends e
      · simp only [he, if_true, Except.bind]
        exact if_pos he
      · simp only [he, Bool.false_eq_true, if_false, Except.bind, ← ih]
        exact if_neg he

/-- Where an item comes from: a document, a literal or a clause, or what is wrong with an input. -/
inductive ItemOf (c : Compiler) (inputs : List Input) : Item → Prop where
  | document (doc : Document) (hinput : .document doc ∈ inputs.flatMap Input.spread) :
      ItemOf c inputs (.ok (c.settings.merge, doc))
  | literal (text : String) (doc : Document) (hinput : .text text ∈ inputs.flatMap Input.spread)
      (hobject : c.isObjectLike text = true)
      (hdecode : Literal.decode c.settings.dialect text = .ok doc) :
      ItemOf c inputs (.ok (c.settings.mergeLiterals.getD c.settings.merge, doc))
  | clause (text clause : String) (f : Fragment)
      (hinput : .text text ∈ inputs.flatMap Input.spread) (hobject : c.isObjectLike text = false)
      (hfragment : c.settings.table.fragment c.host c.settings clause = .ok f) :
      ItemOf c inputs (.ok (c.clauseStrategy f, f.document))
  | literalFault (text : String) (e : Error)
      (hdecode : Literal.decode c.settings.dialect text = .error e) : ItemOf c inputs (.error e)
  | clauseFault (clause : String) (e : Error)
      (hfragment : c.settings.table.fragment c.host c.settings clause = .error e) :
      ItemOf c inputs (.error e)
  | inputFault (fault : InputFault) : ItemOf c inputs (.error (.input fault))

theorem itemOf_of_textItems {c : Compiler} {inputs : List Input} {text : String}
    (hinput : .text text ∈ inputs.flatMap Input.spread) {item : Item}
    (h : item ∈ c.textItems text) : c.ItemOf inputs item := by
  rw [textItems] at h
  split at h
  · rename_i hobject
    obtain rfl := List.mem_singleton.mp h
    cases hdecode : Literal.decode c.settings.dialect text with
    | error e => exact .literalFault text e hdecode
    | ok doc => exact .literal text doc hinput hobject hdecode
  · rename_i hobject
    obtain ⟨clause, -, rfl⟩ := List.mem_map.mp h
    rw [clauseItem]
    cases hfragment : c.settings.table.fragment c.host c.settings clause with
    | error e => exact .clauseFault clause e hfragment
    | ok f => exact .clause text clause f hinput (Bool.eq_false_iff.mpr hobject) hfragment

theorem itemOf_of_mem {c : Compiler} {inputs : List Input} {item : Item}
    (h : item ∈ c.items inputs) : c.ItemOf inputs item := by
  rw [items_eq] at h
  obtain ⟨input, hinput, hitem⟩ := List.mem_flatMap.mp h
  cases input with
  | document doc =>
    obtain rfl := List.mem_singleton.mp hitem
    exact .document doc hinput
  | text text => exact itemOf_of_textItems hinput hitem
  | scalar value => cases hitem
  | list inner =>
    obtain rfl := List.mem_singleton.mp hitem
    exact .inputFault .nestedList
  | overlay overlay =>
    obtain rfl := List.mem_singleton.mp hitem
    exact .inputFault .misplacedOverlay

theorem run_eq_outcome (c : Compiler) (inputs : List Input) :
    c.run inputs = Item.outcome c.ends (c.items inputs) := by
  rw [run, applyAll_eq, ← items_eq, Item.applyAll_eq]
  rfl

/-- A document that a compilation gives is the merge of all the fragments there are. -/
theorem eq_mergeAll_of_run {c : Compiler} {inputs : List Input} {doc : Document}
    (h : c.run inputs = .ok doc) : doc = Document.mergeAll [] (Item.parts (c.items inputs)) := by
  rw [run_eq_outcome, Item.outcome] at h
  split at h
  · cases h
  · cases h
    rfl

/-- What holds of the empty document and stays true with each fragment that is merged holds of what a
compilation gives. -/
theorem run_induct {c : Compiler} {inputs : List Input} {P : Document → Prop} (hempty : P [])
    (hstep : ∀ part, c.ItemOf inputs (.ok part) → ∀ doc, P doc → P (doc.merge part.1 part.2))
    {doc : Document} (h : c.run inputs = .ok doc) : P doc := by
  rw [eq_mergeAll_of_run h]
  exact List.foldlRecOn _ _ hempty fun doc hdoc part hpart =>
    hstep part (itemOf_of_mem (Item.mem_of_mem_parts hpart)) doc hdoc

theorem compile_eq_run (c : Compiler) {inputs : List Input}
    (h : ∀ overlay, inputs.getLast? ≠ some (.overlay overlay)) :
    c.compile inputs = c.run inputs := by
  rw [compile]
  split
  · rename_i overlay hlast
    exact absurd hlast (h overlay)
  · rfl

end Compiler
end FilterQuery
