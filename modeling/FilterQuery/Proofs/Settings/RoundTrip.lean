import FilterQuery.Proofs.Toml.Strings
import FilterQuery.Settings.File
import Mathlib.Data.List.TakeDrop

/-! Settings as texts. Main statement: what an overlay says, its operator table aside, is read back
from its text. -/
namespace FilterQuery

namespace Toml

/-! ### Lines -/

def isBareKey (key : String) : Bool :=
  !key.toList.isEmpty && key.toList.all isBare

section
variable {key : String} {rest : List Char}

theorem ne_of_isBare {c x : Char} (h : isBare c = true) (hx : isBare x = false) : c ≠ x :=
  ne_of_apply_ne isBare (by simp [h, hx])

theorem isBareKey_iff :
    isBareKey key = true ↔ key.toList ≠ [] ∧ ∀ c ∈ key.toList, isBare c = true := by
  simp [isBareKey]

theorem exists_of_isBareKey (h : isBareKey key = true) :
    ∃ c cs, key.toList = c :: cs ∧ isBare c = true := by
  obtain ⟨hne, hall⟩ := isBareKey_iff.mp h
  obtain ⟨c, cs, hcs⟩ := List.exists_cons_of_ne_nil hne
  exact ⟨c, cs, hcs, hall c (by simp [hcs])⟩

theorem skip_of_not_isSpace {c : Char} (h : isSpace c = false) : skip (c :: rest) = c :: rest := by
  simp [skip, h]

theorem isSpace_of_isBare {c : Char} (h : isBare c = true) : isSpace c = false := by
  simp [isSpace, ne_of_isBare h (show isBare ' ' = false from rfl),
    ne_of_isBare h (show isBare '\t' = false from rfl)]

theorem readKey?_bare (h : isBareKey key = true) :
    readKey? (key.toList ++ ' ' :: rest) = some (key.toList, ' ' :: rest) := by
  have hspan : (key.toList ++ ' ' :: rest).span isBare = (key.toList, ' ' :: rest) := by
    have hall := (isBareKey_iff.mp h).2
    rw [List.span_eq_takeWhile_dropWhile, List.takeWhile_append_of_pos hall,
      List.dropWhile_append_of_pos hall]
    simp [show isBare ' ' = false from rfl]
  obtain ⟨c, cs, hcs, hc⟩ := exists_of_isBareKey h
  have hquote : ∀ x, isBare x = false → ∀ t, key.toList ++ ' ' :: rest ≠ x :: t := by
    intro x hx t heq
    rw [hcs] at heq
    exact ne_of_isBare hc hx (List.cons.inj heq).1
  rw [readKey?, hspan]
  · simp [hcs]
  · exact hquote '"' rfl
  · exact hquote '\'' rfl

theorem exists_writeString (cs : List Char) :
    ∃ quote t, writeString cs = quote :: t ∧ (quote = '"' ∨ quote = '\'') := by
  cases hform : Form.of cs <;> simp [writeString, hform]

theorem readScalar?_writeScalar (value : Scalar) (hbasic : rest.head? ≠ some '"')
    (hliteral : rest.head? ≠ some '\'') :
    readScalar? (writeScalar value ++ rest) = some (value, rest) := by
  cases value with
  | bool b => cases b <;> rfl
  | string s =>
    obtain ⟨quote, t, ht, hquote⟩ := exists_writeString s.toList
    have hletter : ∀ x, x ≠ '"' ∧ x ≠ '\'' → ∀ u, writeString s.toList ++ rest ≠ x :: u := by
      rintro x ⟨hx, hx'⟩ u heq
      rw [ht] at heq
      obtain ⟨rfl, -⟩ := List.cons.inj heq
      exact hquote.elim hx hx'
    rw [writeScalar, readScalar?, readString?_writeString s.toList hbasic hliteral]
    · simp
    · exact fun u => hletter 't' (by decide) _
    · exact fun u => hletter 'f' (by decide) _

theorem skip_writeScalar (value : Scalar) :
    skip (writeScalar value ++ rest) = writeScalar value ++ rest := by
  cases value with
  | bool b => cases b <;> rfl
  | string s =>
    obtain ⟨quote, t, ht, hquote⟩ := exists_writeString s.toList
    rw [writeScalar, ht]
    exact skip_of_not_isSpace (by obtain rfl | rfl := hquote <;> rfl)

theorem write_cons (value : Scalar) (entries : List Entry) :
    write ((key, value) :: entries) =
      key.toList ++ ' ' :: '=' :: ' ' :: (writeScalar value ++ '\n' :: write entries) := by
  simp [write]

theorem readEntry?_write (h : isBareKey key = true) (value : Scalar) (entries : List Entry) :
    readEntry? (write ((key, value) :: entries)) = some ((key, value), write entries) := by
  have hskip : skip (' ' :: (writeScalar value ++ '\n' :: write entries)) =
      writeScalar value ++ '\n' :: write entries := skip_writeScalar value
  rw [write_cons, readEntry?, readKey?_bare h]
  simp only [show ∀ t, skip (' ' :: '=' :: t) = '=' :: t from fun _ => rfl, hskip]
  rw [readScalar?_writeScalar value (by simp) (by simp)]
  simp [show ∀ t, endLine? ('\n' :: t) = some t from fun _ => rfl]

theorem endLine?_bare {c : Char} (h : isBare c = true) : endLine? (c :: rest) = none := by
  have hne : c ≠ '#' ∧ c ≠ '\n' ∧ c ≠ '\r' :=
    ⟨ne_of_isBare h rfl, ne_of_isBare h rfl, ne_of_isBare h rfl⟩
  rw [endLine?, skip_of_not_isSpace (isSpace_of_isBare h)]
  simp [hne, afterLineEnd?]

theorem exists_write (h : isBareKey key = true) (value : Scalar) (entries : List Entry) :
    ∃ c t, write ((key, value) :: entries) = c :: t ∧ isBare c = true := by
  obtain ⟨c, cs, hcs, hc⟩ := exists_of_isBareKey h
  exact ⟨c, _, by rw [write_cons, hcs]; rfl, hc⟩

theorem readLines?_write {entries : List Entry} (h : ∀ e ∈ entries, isBareKey e.1 = true)
    {fuel : Nat} (hfuel : entries.length < fuel) :
    readLines? fuel (write entries) = some entries := by
  induction entries generalizing fuel with
  | nil =>
    obtain ⟨fuel, rfl⟩ := Nat.exists_eq_add_of_lt hfuel
    rfl
  | cons e entries ih =>
    obtain ⟨fuel, rfl⟩ := Nat.exists_eq_succ_of_ne_zero (Nat.ne_zero_of_lt hfuel)
    obtain ⟨hkey, htail⟩ := List.forall_mem_cons.mp h
    obtain ⟨c, t, ht, hc⟩ := exists_write hkey e.2 entries
    have hentry := readEntry?_write hkey e.2 entries
    rw [ht] at hentry
    rw [ht, readLines?, skip_of_not_isSpace (isSpace_of_isBare hc)]
    simp only [endLine?_bare hc, hentry, ih htail (Nat.lt_of_succ_lt_succ hfuel), Option.map_some]

theorem length_le_write (entries : List Entry) : entries.length ≤ (write entries).length := by
  induction entries with
  | nil => exact Nat.le_refl 0
  | cons e entries ih =>
    obtain ⟨key, value⟩ := e
    simp only [write_cons, List.length_cons, List.length_append]
    omega

theorem read?_write {entries : List Entry} (h : ∀ e ∈ entries, isBareKey e.1 = true) :
    read? (write entries) = some entries := by
  have hmark : dropMark (write entries) = write entries := by
    cases entries with
    | nil => rfl
    | cons e entries =>
      obtain ⟨c, t, ht, hc⟩ := exists_write (h e List.mem_cons_self) e.2 entries
      rw [ht, dropMark]
      exact fun u heq => ne_of_isBare hc rfl (List.cons.inj heq).1
  rw [read?, hmark]
  exact readLines?_write h (Nat.lt_succ_of_le (length_le_write entries))

end
end Toml

@[simp] theorem Strategy.ofName?_name (s : Strategy) : Strategy.ofName? s.name = some s := by
  cases s <;> rfl

@[simp] theorem Literal.Dialect.ofRelaxed_isRelaxed (d : Literal.Dialect) :
    Literal.Dialect.ofRelaxed d.isRelaxed = d := by
  cases d <;> rfl

namespace Overlay

/-! ### Fields -/

@[simp] theorem separator?_singleton (c : Char) : separator? (.singleton c) = some c := by
  simp [separator?]

theorem isBareKey_toEntries (o : Overlay) : ∀ e ∈ o.toEntries, Toml.isBareKey e.1 = true := by
  have hkeys : ["throw_on_error", "merge", "merge_json", "merge_clauses", "relaxed_decoder",
      "object_pattern", "coerce_right_operand", "array_separator", "clause_separator"].all
      Toml.isBareKey = true := by
    decide
  intro e he
  apply List.all_eq_true.mp hkeys
  simp only [toEntries, List.mem_append, List.mem_map] at he
  rcases he with (((((((he | he) | he) | he) | he) | he) | he) | he) | he <;>
  · obtain ⟨value, -, rfl⟩ := he
    simp

/-- A field that is written only if it is present is read back. -/
theorem foldlM_field {α : Type} (field : Option α) {entry : α → Toml.Entry}
    (put : Option α → Overlay) (h : ∀ a, addEntry? (put none) (entry a) = some (put (some a))) :
    (field.toList.map entry).foldlM addEntry? (put none) = some (put field) := by
  cases field with
  | none => rfl
  | some a => simpa using h a

theorem foldlM_append_field {α : Type} {start : Overlay} {before : List Toml.Entry}
    (field : Option α) {entry : α → Toml.Entry} (put : Option α → Overlay)
    (h : ∀ a, addEntry? (put none) (entry a) = some (put (some a)))
    (hbefore : before.foldlM addEntry? start = some (put none)) :
    (before ++ field.toList.map entry).foldlM addEntry? start = some (put field) := by
  rw [List.foldlM_append, hbefore]
  exact foldlM_field field put h

theorem ofEntries?_toEntries (o : Overlay) :
    ofEntries? o.toEntries = some { o with table := none } := by
  simp only [ofEntries?, toEntries, Option.toList_map, List.map_map]
  -- From the last field back to the first: before an entry is added, its field and those after it
  -- are absent.
  refine foldlM_append_field o.clauseSeparator
    (fun clauseSeparator => { o with clauseSeparator, table := none })
    (by simp [fill?, addEntry?]) ?_
  refine foldlM_append_field o.arraySeparator
    (fun arraySeparator => { o with arraySeparator, clauseSeparator := none, table := none })
    (by simp [fill?, addEntry?]) ?_
  refine foldlM_append_field o.coerceOperands
    (fun coerceOperands => { o with
      coerceOperands, arraySeparator := none, clauseSeparator := none, table := none })
    (by simp [fill?, addEntry?]) ?_
  refine foldlM_append_field o.objectPattern
    (fun objectPattern => { o with
      objectPattern, coerceOperands := none, arraySeparator := none, clauseSeparator := none,
      table := none })
    (by simp [fill?, addEntry?]) ?_
  refine foldlM_append_field o.dialect
    (fun dialect =>
      { throwOnError := o.throwOnError, merge := o.merge, mergeLiterals := o.mergeLiterals,
        mergeClauses := o.mergeClauses, dialect })
    (by simp [fill?, addEntry?]) ?_
  refine foldlM_append_field o.mergeClauses
    (fun mergeClauses =>
      { throwOnError := o.throwOnError, merge := o.merge, mergeLiterals := o.mergeLiterals,
        mergeClauses })
    (by simp [fill?, addEntry?]) ?_
  refine foldlM_append_field o.mergeLiterals
    (fun mergeLiterals => { throwOnError := o.throwOnError, merge := o.merge, mergeLiterals })
    (by simp [fill?, addEntry?]) ?_
  refine foldlM_append_field o.merge (fun merge => { throwOnError := o.throwOnError, merge })
    (by simp [fill?, addEntry?]) ?_
  exact foldlM_field o.throwOnError (fun throwOnError => { throwOnError })
    (by simp [fill?, addEntry?])

/-- What an overlay says, apart from its operators, can be read back from its text. -/
theorem ofText_toText (o : Overlay) : ofText o.toText = .ok { o with table := none } := by
  rw [ofText, toText, String.toList_ofList, Toml.read?_write o.isBareKey_toEntries,
    Option.bind_some, ofEntries?_toEntries]

-- Rows of both quotes and a line break: no form holds the pattern as it is.
example : ({ objectPattern := some "\\s'''\n\"\"\"\"" } : Overlay).toText =
    "object_pattern = \"\"\"\n\\\\s'''\n\"\"\\\"\"\"\"\"\n" :=
  rfl

end Overlay
end FilterQuery
