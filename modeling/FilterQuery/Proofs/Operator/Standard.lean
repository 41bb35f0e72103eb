import FilterQuery.Proofs.Operator.Occurrence

/-! The operators that are known unless told otherwise: the texts that stand on either side of them,
and the two that take a bare key alone. -/
namespace FilterQuery
open Text Pattern

def reservedChars : List Char :=
  ['=', '<', '>', '!', '?', '~', '^', '[', ']', '|', '#', '\x7b', '\x7d']

def markChars : List Char := ['=', '<', '>']

/-- A key without blanks and reserved characters whose end is not part of an operator. -/
structure BareKey (key : String) : Prop where
  nonempty : key.toList ≠ []
  chars : ∀ c ∈ key.toList, isBlank c = false ∧ c ∉ reservedChars
  last : ∀ c, key.toList.getLast? = some c → c ≠ '/' ∧ c ≠ '$'

/-- A text on one line that no operator cuts and no blank in front shortens. -/
structure OperandText (value : String) : Prop where
  nonempty : value.toList ≠ []
  start : ∀ c, value.toList.head? = some c → isBlank c = false
  chars : ∀ c ∈ value.toList, c ≠ '\n' ∧ c ≠ '=' ∧ c ≠ '<' ∧ c ≠ '>'

structure BareText (cs : List Char) : Prop where
  nonempty : cs ≠ []
  chars : ∀ c ∈ cs, isBlank c = false ∧ c ∉ reservedChars

theorem BareKey.bareText {key : String} (hk : BareKey key) : BareText key.toList :=
  ⟨hk.nonempty, hk.chars⟩

theorem blank_not_mem {chars : List Char} (h : chars.any isBlank = false) {c : Char}
    (hc : isBlank c = true) : c ∉ chars := by
  intro hmem
  exact List.any_eq_false.mp h c hmem hc

namespace BareText
variable {cs : List Char}

theorem not_mem (h : BareText cs) {c : Char} (hc : c ∈ reservedChars) : c ∉ cs :=
  fun hmem => (h.chars c hmem).2 hc

theorem exists_concat (h : BareText cs) : ∃ init d, cs = init ++ [d] ∧ isBlank d = false := by
  have hend := List.dropLast_append_getLast h.nonempty
  exact ⟨_, _, hend.symm, (h.chars _ (List.getLast_mem h.nonempty)).1⟩

theorem trimEnd_append (h : BareText cs) {g : List Char} (hg : ∀ c ∈ g, isBlank c = true) :
    trimEnd (cs ++ g) = cs := by
  obtain ⟨init, d, rfl, hd⟩ := h.exists_concat
  rw [Text.trimEnd_append _ hg, trimEnd_concat init hd]

theorem trim_append (h : BareText cs) {g : List Char} (hg : ∀ c ∈ g, isBlank c = true) :
    trim (cs ++ g) = cs := by
  obtain ⟨c, rest, rfl⟩ := List.exists_cons_of_ne_nil h.nonempty
  rw [trim, List.cons_append, trimStart_cons _ (h.chars c List.mem_cons_self).1,
    ← List.cons_append, h.trimEnd_append hg]

theorem trim_eq (h : BareText cs) : trim cs = cs :=
  trim_of_no_blank fun c hc => (h.chars c hc).1

theorem fieldBefore_append (h : BareText cs) {g : List Char} (hg : ∀ c ∈ g, isBlank c = true) :
    Definition.fieldBefore (cs ++ g) = cs := by
  rw [Definition.fieldBefore, h.trimEnd_append hg, if_neg h.nonempty]

theorem lineFeed_not_mem (h : BareText cs) : '\n' ∉ cs := by
  intro hmem
  exact absurd (h.chars _ hmem).1 (by decide)

end BareText

theorem OperandText.operandAfter_append {value : String} (hv : OperandText value) {g : List Char}
    (hg : ∀ c ∈ g, isBlank c = true) :
    Definition.operandAfter (g ++ value.toList) = value.toList := by
  obtain ⟨c, cs, hcs⟩ := List.exists_cons_of_ne_nil hv.nonempty
  have htrim : trimStart (g ++ value.toList) = value.toList := by
    rw [trimStart_append _ hg, hcs]
    exact trimStart_cons cs (hv.start c (by simp [hcs]))
  rw [Definition.operandAfter, htrim, if_neg hv.nonempty]

def bareChars : CharSet :=
  .complement (.union .blank (reservedChars.foldr (fun c set => .union (.single c) set) .empty))

theorem contains_foldr_single (chars : List Char) (c : Char) :
    (chars.foldr (fun c set => CharSet.union (.single c) set) .empty).contains c =
      decide (c ∈ chars) := by
  induction chars with
  | nil => rfl
  | cons t chars ih =>
    rw [List.foldr_cons, CharSet.contains, ih, CharSet.contains_single]
    simp [eq_comm]

theorem contains_bareChars (c : Char) :
    bareChars.contains c = true ↔ isBlank c = false ∧ c ∉ reservedChars := by
  simp [bareChars, CharSet.contains, contains_foldr_single]

def bareToEnd : Pattern :=
  .seq (.capture "a" (.many true (.one bareChars))) .finish

theorem run_bareToEnd {cs : List Char} (h : BareText cs) (offset : Nat) (captures : Captures) :
    bareToEnd.run ⟨offset, cs, captures⟩ (fun here => some here.captures) =
      some (⟨"a", cs, cs.length⟩ :: captures) := by
  obtain ⟨c, rest, rfl⟩ := List.exists_cons_of_ne_nil h.nonempty
  exact Definition.run_capture_finish _ _ _ fun x hx => (contains_bareChars x).mpr (h.chars x hx)

theorem refuses_bareToEnd {cs : List Char} (h : ¬ BareText cs) :
    Definition.Refuses bareToEnd cs := by
  intro offset captures
  cases cs with
  | nil => rfl
  | cons c rest =>
    rw [bareToEnd, Pattern.run, Pattern.run, run_many_cons]
    split
    · rename_i hc
      refine further_eq_none fun u w hrest hu => ?_
      cases w with
      | nil =>
        rw [List.append_nil] at hrest
        subst hrest
        have hall : ∀ x ∈ c :: rest, bareChars.contains x = true :=
          List.forall_mem_cons.mpr ⟨hc, hu⟩
        exact absurd ⟨by simp, fun x hx => (contains_bareChars x).mp (hall x hx)⟩ h
      | cons d w => rfl
    · rfl

namespace Definition

def falseKey : Definition :=
  { patterned "false" ("^!(?<a>" ++ Table.bareKey ++ ")$") .isFalse with forValues := true }

def trueKey : Definition :=
  { patterned "true" ("^(?<a>" ++ Table.bareKey ++ ")$") .isTrue with forValues := true }

theorem parse?_falseKey :
    parse? falseKey.source = some (.seq .start (.seq (.one (.single '!')) bareToEnd)) := by rfl

theorem parse?_trueKey : parse? trueKey.source = some (.seq .start bareToEnd) := by rfl

theorem captures_falseKey (clause : String) :
    falseKey.captures read? clause =
      .ok (match clause.toList with
        | [] => none
        | c :: cs => if '!' = c then
            bareToEnd.run ⟨1, cs, []⟩ fun here => some here.captures else none) := by
  rw [captures_of_parse? parse?_falseKey]
  refine congrArg Except.ok ((match?_start _ clause).trans ?_)
  cases clause.toList with
  | nil => rfl
  | cons c cs => simp [Pattern.run, CharSet.contains_single]

theorem captures_trueKey (clause : String) :
    trueKey.captures read? clause =
      .ok (bareToEnd.run ⟨0, clause.toList, []⟩ fun here => some here.captures) := by
  rw [captures_of_parse? parse?_trueKey]
  exact congrArg Except.ok (match?_start _ clause)

theorem exists_captures_falseKey {clause : String} {key : List Char}
    (hclause : clause.toList = '!' :: key) (h : BareText key) :
    ∃ captures, falseKey.captures read? clause = .ok (some captures) ∧
      ∀ prefs, falseKey.operands prefs clause captures =
        { clause, left := String.ofList key, token := "false", raw := none, value := none } := by
  refine ⟨[⟨"a", key, key.length⟩], ?_, ?_⟩
  · rw [captures_falseKey, hclause]
    exact congrArg Except.ok (run_bareToEnd h 1 [])
  · intro prefs
    simp [operands, Captures.get?, Capture.text, h.trim_eq, falseKey, patterned]

theorem exists_captures_trueKey {clause : String} (h : BareText clause.toList) :
    ∃ captures, trueKey.captures read? clause = .ok (some captures) ∧
      ∀ prefs, trueKey.operands prefs clause captures =
        { clause, left := clause, token := "true", raw := none, value := none } := by
  refine ⟨[⟨"a", clause.toList, clause.toList.length⟩], ?_, ?_⟩
  · rw [captures_trueKey]
    exact congrArg Except.ok (run_bareToEnd h 0 [])
  · intro prefs
    simp [operands, Captures.get?, Capture.text, h.trim_eq, trueKey, patterned]

theorem captures_falseKey_eq_none {clause : String}
    (h : ∀ key, clause.toList = '!' :: key → ¬ BareText key) :
    falseKey.captures read? clause = .ok none := by
  rw [captures_falseKey]
  refine congrArg Except.ok ?_
  cases hcs : clause.toList with
  | nil => rfl
  | cons c cs =>
    dsimp only
    split
    · rename_i hc
      subst hc
      exact refuses_bareToEnd (h cs hcs) 1 []
    · rfl

/-- Whether the id of an operator occurs in a clause, if it is the id that the operator goes by. -/
def mayMatch (clause : String) (d : Definition) : Bool :=
  match d.shape with
  | .custom _ => true
  | _ => decide (d.id.toList <:+: clause.toList)

theorem captures_of_not_mayMatch {d : Definition} {clause : String}
    (h : d.mayMatch clause = false) : d.captures read? clause = .ok none := by
  rw [mayMatch] at h
  cases hshape : d.shape with
  | custom source => simp [hshape] at h
  | between => exact captures_eq_none (.inl hshape) (by simpa [hshape] using h)
  | after => exact captures_eq_none (.inr hshape) (by simpa [hshape] using h)

theorem captures_trueKey_eq_none {clause : String} (h : ¬ BareText clause.toList) :
    trueKey.captures read? clause = .ok none := by
  rw [captures_trueKey]
  exact congrArg Except.ok (refuses_bareToEnd h 0 [])

end Definition

namespace Table

theorem fragment_append {host : Host} {before : Table} (after : Table) (settings : Settings)
    {clause : String} (h : ∀ d ∈ before, d.captures host.read? clause = .ok none) :
    Table.fragment (before ++ after) host settings clause = after.fragment host settings clause := by
  induction before with
  | nil => rfl
  | cons d before ih =>
    rw [List.forall_mem_cons] at h
    rw [List.cons_append, Table.fragment, h.1]
    exact ih h.2

/-- Operators whose id does not occur in a clause have no say in what it compiles to. -/
theorem fragment_eq_filter (table : Table) (builders : Builders) (settings : Settings)
    (clause : String) :
    table.fragment (.basic builders) settings clause =
      Table.fragment (table.filter (Definition.mayMatch clause)) (.basic builders) settings
        clause := by
  induction table with
  | nil => rfl
  | cons d rest ih =>
    cases hmatch : d.mayMatch clause with
    | true => rw [List.filter_cons_of_pos hmatch, Table.fragment, Table.fragment, ih]
    | false =>
      rw [List.filter_cons_of_neg (by simp [hmatch]), Table.fragment,
        Definition.captures_of_not_mayMatch hmatch]
      exact ih

/-- The operators that are made of an id; the two for bare keys come after them. -/
def idOperators : Table := standard.take 20

theorem standard_eq : standard = idOperators ++ [Definition.falseKey, Definition.trueKey] := rfl

theorem exists_parse?_standard : ∀ d ∈ standard, ∃ p, parse? d.source = some p := by
  have hshape : ∀ d ∈ idOperators, d.shape = .between ∨ d.shape = .after := by decide
  rw [standard_eq]
  simp only [List.forall_mem_append, List.forall_mem_cons, List.not_mem_nil, false_imp_iff,
    implies_true, and_true]
  refine ⟨fun d hd => ?_, ⟨_, Definition.parse?_falseKey⟩, _, Definition.parse?_trueKey⟩
  obtain h | h := hshape d hd
  · exact ⟨_, Definition.parse?_source_between h⟩
  · exact ⟨_, Definition.parse?_source_after h⟩

theorem check_eq_ok_iff {read? : PatternReader} {table : Table} :
    table.check read? = .ok () ↔ ∀ d ∈ table, ∃ m, d.matcher read? = .ok m := by
  induction table with
  | nil => simp [check]
  | cons d rest ih =>
    rw [check, List.forall_mem_cons, ← ih]
    cases d.matcher read? <;> simp

theorem check_of_subset_standard {table : Table} (h : table ⊆ standard) :
    table.check Pattern.read? = .ok () := by
  refine check_eq_ok_iff.mpr fun d hd => ?_
  obtain ⟨p, hp⟩ := exists_parse?_standard d (h hd)
  exact ⟨_, Definition.matcher_of_parse? hp⟩

end Table
end FilterQuery
