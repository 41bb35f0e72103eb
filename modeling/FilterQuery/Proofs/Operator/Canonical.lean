import FilterQuery.Proofs.Operator.Standard
import Mathlib.Data.List.Zip

/-! Canonical clauses: a bare key, an operator and perhaps an operand, with blanks between them. Main
statement: each of them is compiled by its own operator, whatever operators come first in the table. -/
namespace FilterQuery
open Text

def Definition.outcome (d : Definition) (host : Host) (settings : Settings) (o : Operands) :
    Except Error Fragment :=
  match d.build host o settings with
  | .ok document => .ok ⟨document, d.merge⟩
  | .error e => if !settings.throwOnError && e.isSuppressible then .ok .empty else .error e

namespace Table

/-- A clause is compiled by a definition: no earlier one matches it, this one takes it apart into a
field, an operator and perhaps an operand, and what it builds from these is the result. -/
structure CompiledBy (table : Table) (clause : String) (d : Definition) (left token : String)
    (raw : Option String) : Prop where
  first : ∃ before after, table = before ++ d :: after ∧
    ∀ e ∈ before, e.captures Pattern.read? clause = .ok none
  operands : ∃ captures, d.captures Pattern.read? clause = .ok (some captures) ∧
    ∀ prefs, d.operands prefs clause captures =
      { clause, left, token, raw, value := raw.map prefs.operandValue }
  result : ∀ builders settings, table.compileClause (.basic builders) settings clause =
    d.outcome (.basic builders) settings
      { clause, left, token, raw, value := raw.map settings.operandValue }

theorem compiledBy_of_captures {before : Table} (after : Table) {d : Definition}
    {clause left token : String} {raw : Option String}
    (hbefore : ∀ e ∈ before, e.captures Pattern.read? clause = .ok none)
    (hd : ∃ captures, d.captures Pattern.read? clause = .ok (some captures) ∧
      ∀ prefs, d.operands prefs clause captures =
        { clause, left, token, raw, value := raw.map prefs.operandValue }) :
    CompiledBy (before ++ d :: after) clause d left token raw := by
  refine ⟨⟨before, after, rfl, hbefore⟩, hd, fun builders settings => ?_⟩
  obtain ⟨captures, hcaptures, hoperands⟩ := hd
  rw [compileClause, fragment_append _ _ hbefore, Table.fragment, hcaptures]
  dsimp only
  rw [Definition.fragment, hoperands, Definition.outcome]
  cases d.build _ _ settings <;> rfl

end Table

namespace Definition

def isKeyChar (c : Char) : Bool := !reservedChars.contains c

def isOperandChar (c : Char) : Bool := !markChars.contains c

def cuts (cs : List Char) : List (List Char × List Char) := cs.inits.zip cs.tails

/-- Whether an id can occur in a clause with another operator `op`: inside one stretch of the clause,
or across an end of `op`. Characters that `follows` admits come after `op`, and the stretch before it
does not end with one of `ends`. -/
def mayOccur (ends : List Char) (follows : Char → Bool) (op id : List Char) : Bool :=
  id.all isKeyChar || decide (id <:+: op) || (cuts id).any fun (l, r) =>
    (l.isSuffixOf op && r.all follows) ||
      (l.all isKeyChar && !l.getLast?.any ends.contains &&
        (r.isPrefixOf op || op.isPrefixOf r && (r.drop op.length).all follows))

theorem mayOccur_of_isInfix {ends : List Char} {follows : Char → Bool} {op id x y : List Char}
    (hx : ∀ c ∈ x, isKeyChar c = true) (hends : ∀ c ∈ ends, x.getLast? ≠ some c)
    (hy : ∀ c ∈ y, follows c = true) (h : id <:+: x ++ (op ++ y)) :
    mayOccur ends follows op id = true := by
  have hcut : ∀ l r, id = l ++ r → (l, r) ∈ cuts id :=
    fun l r hid => List.mem_zip_inits_tails.mpr hid.symm
  simp only [mayOccur, Bool.or_eq_true, decide_eq_true_eq, List.any_eq_true]
  obtain hin | hin | ⟨l, r, hid, hl, hr⟩ := List.infix_append_iff.mp h
  · exact .inl (.inl (List.all_eq_true.mpr fun c hc => hx c (hin.subset hc)))
  · obtain hop | hrest | ⟨l, r, hid, hl, hr⟩ := List.infix_append_iff.mp hin
    · exact .inl (.inr hop)
    · refine .inr ⟨([], id), hcut [] id rfl, ?_⟩
      simpa using .inl fun c hc => hy c (hrest.subset hc)
    · refine .inr ⟨(l, r), hcut l r hid, ?_⟩
      simpa [hl] using .inl fun c hc => hy c (hr.subset hc)
  · have hkey : l.all isKeyChar = true := List.all_eq_true.mpr fun c hc => hx c (hl.subset hc)
    have hlast : l.getLast?.any ends.contains = false := by
      cases hc : l.getLast? with
      | none => rfl
      | some c =>
        obtain ⟨u, rfl⟩ := hl
        have hxc : (u ++ l).getLast? = some c := by rw [List.getLast?_append, hc]; rfl
        simpa using fun hmem => hends c hmem hxc
    refine .inr ⟨(l, r), hcut l r hid, ?_⟩
    simp only [hkey, hlast, Bool.true_and, Bool.not_false, Bool.or_eq_true, Bool.and_eq_true]
    -- what is left of the id ends inside the operator or goes on after it
    obtain ⟨w, hw⟩ := hr
    obtain ⟨t, rfl, -⟩ | ⟨t, rfl, ht⟩ := List.append_eq_append_iff.mp hw
    · exact .inr (.inl (by simp))
    · refine .inr (.inr ⟨by simp, ?_⟩)
      rw [List.drop_left, List.all_eq_true]
      exact fun c hc => hy c (by simp [ht, hc])

/-- Whether an operator can occur in a clause before its proper place, partly in front of it. -/
def reoccurs (op : List Char) : Bool :=
  (cuts op).any fun (l, r) => !l.isEmpty && l.all isKeyChar && r.isPrefixOf op

theorem reoccurs_of_isPrefix {op v r : List Char} (hv : ∀ c ∈ v, isKeyChar c = true) (hne : v ≠ [])
    (hop : op ≠ []) (h : op <+: v ++ (op ++ r)) : reoccurs op = true := by
  simp only [reoccurs, List.any_eq_true]
  obtain ⟨w, hw⟩ := h
  obtain ⟨t, rfl, -⟩ | ⟨t, rfl, ht⟩ := List.append_eq_append_iff.mp hw
  · refine ⟨(op, []), List.mem_zip_inits_tails.mpr (List.append_nil op), ?_⟩
    have hkey : op.all isKeyChar = true :=
      List.all_eq_true.mpr fun c hc => hv c (List.mem_append_left t hc)
    simp [hop, hkey]
  · refine ⟨(v, t), List.mem_zip_inits_tails.mpr rfl, ?_⟩
    have hkey : v.all isKeyChar = true := List.all_eq_true.mpr hv
    have hlong : t <+: (v ++ t) ++ r := ⟨w, ht.symm⟩
    have hprefix : t <+: v ++ t :=
      List.prefix_of_prefix_length_le hlong (List.prefix_append _ _) (by simp)
    simp [hne, hkey, hprefix]

def isSolid : List Char → Bool
  | [] => false
  | c :: cs => !isBlank c && !reoccurs (c :: cs)

theorem exists_of_isSolid {id : List Char} (h : isSolid id = true) :
    ∃ x xs, id = x :: xs ∧ isBlank x = false ∧ reoccurs id = false := by
  cases id with
  | nil => cases h
  | cons x xs => exact ⟨x, xs, rfl, by simpa [isSolid] using h⟩

/-- The characters that can come after an operator: those of an operand, if it takes one. -/
def follows (d : Definition) (c : Char) : Bool :=
  d.shape == .between && isOperandChar c

theorem captures_eq_none_of_mayOccur {ends : List Char} {d e : Definition}
    (he : e.shape = .between ∨ e.shape = .after)
    (hno : mayOccur ends d.follows d.id.toList e.id.toList = false) {clause : String}
    {x y : List Char} (hclause : clause.toList = x ++ (d.id.toList ++ y))
    (hx : ∀ c ∈ x, isKeyChar c = true) (hends : ∀ c ∈ ends, x.getLast? ≠ some c)
    (hy : ∀ c ∈ y, d.follows c = true) : e.captures Pattern.read? clause = .ok none := by
  refine captures_eq_none he fun hin => ?_
  rw [hclause] at hin
  rw [mayOccur_of_isInfix hx hends hy hin] at hno
  cases hno

end Definition

section
variable {key gap : List Char}

theorem BareText.isKeyChar_append (hk : BareText key) (hgap : ∀ c ∈ gap, isBlank c = true) :
    ∀ c ∈ key ++ gap, Definition.isKeyChar c = true := by
  intro c hc
  have hreserved : c ∉ reservedChars := by
    obtain hc | hc := List.mem_append.mp hc
    · exact (hk.chars c hc).2
    · exact blank_not_mem (by decide) (hgap c hc)
  simpa [Definition.isKeyChar] using hreserved

theorem OperandText.isOperandChar_append {value : String} (hv : OperandText value)
    (hgap : ∀ c ∈ gap, isBlank c = true) :
    ∀ c ∈ gap ++ value.toList, Definition.isOperandChar c = true := by
  intro c hc
  have hmark : c ∉ markChars := by
    obtain hc | hc := List.mem_append.mp hc
    · exact blank_not_mem (by decide) (hgap c hc)
    · simpa [markChars] using (hv.chars c hc).2
  simpa [Definition.isOperandChar] using hmark

theorem getLast?_append_ne {c : Char} (hc : isBlank c = false) (hkey : key.getLast? ≠ some c)
    (hgap : ∀ c ∈ gap, isBlank c = true) : (key ++ gap).getLast? ≠ some c := by
  rw [List.getLast?_append]
  cases hlast : gap.getLast? with
  | none => simpa using hkey
  | some b =>
    intro hb
    obtain rfl : b = c := by simpa using hb
    rw [hgap b (List.mem_of_getLast? hlast)] at hc
    cases hc

end

namespace Table
variable {ends : List Char} {before : Table} (after : Table) {d : Definition}
  {key w₁ w₂ value : String}

/-- A key, an operator and an operand are compiled by the operator, if no earlier one can occur
there. -/
theorem compiledBy_between (hshape : d.shape = .between)
    (hsolid : Definition.isSolid d.id.toList = true)
    (hbefore : ∀ e ∈ before, (e.shape = .between ∨ e.shape = .after) ∧
      Definition.mayOccur ends d.follows d.id.toList e.id.toList = false)
    (hk : BareText key.toList)
    (hends : ∀ c ∈ ends, isBlank c = false ∧ key.toList.getLast? ≠ some c)
    (hw₁ : ∀ c ∈ w₁.toList, isBlank c = true) (hw₂ : ∀ c ∈ w₂.toList, isBlank c = true)
    (hv : OperandText value) :
    CompiledBy (before ++ d :: after) (key ++ w₁ ++ d.id ++ w₂ ++ value) d key d.id
      (some value) := by
  have hclause : (key ++ w₁ ++ d.id ++ w₂ ++ value).toList =
      (key.toList ++ w₁.toList) ++ (d.id.toList ++ (w₂.toList ++ value.toList)) := by simp
  have hx := hk.isKeyChar_append hw₁
  refine compiledBy_of_captures after (fun e he => ?_) ?_
  · refine Definition.captures_eq_none_of_mayOccur (hbefore e he).1 (hbefore e he).2 hclause hx
      (fun c hc => getLast?_append_ne (hends c hc).1 (hends c hc).2 hw₁) fun c hc => ?_
    rw [Definition.follows, hshape, hv.isOperandChar_append hw₂ c hc]
    rfl
  · obtain ⟨x, xs, hid, hblank, hplace⟩ := Definition.exists_of_isSolid hsolid
    have hfirst : ∀ u v, key.toList ++ w₁.toList = u ++ v → u ≠ [] → v ≠ [] →
        ¬ d.id.toList <+: v ++ (d.id.toList ++ (w₂.toList ++ value.toList)) := by
      intro u v huv _ hv hprefix
      have hkey : ∀ c ∈ v, Definition.isKeyChar c = true :=
        fun c hc => hx c (huv ▸ List.mem_append_right u hc)
      rw [Definition.reoccurs_of_isPrefix hkey hv (by simp [hid]) hprefix] at hplace
      cases hplace
    have hcaptures := Definition.exists_captures_between hshape hid hblank hclause
      (by simp [hk.nonempty]) (by simp [hv.nonempty])
      (by rw [hk.fieldBefore_append hw₁]; exact hk.lineFeed_not_mem)
      (by rw [hv.operandAfter_append hw₂]; exact fun hc => (hv.chars _ hc).1 rfl) hfirst
    rw [hk.trim_append hw₁, hv.operandAfter_append hw₂, String.ofList_toList,
      String.ofList_toList] at hcaptures
    exact hcaptures

theorem compiledBy_adjacent (hshape : d.shape = .between)
    (hsolid : Definition.isSolid d.id.toList = true)
    (hbefore : ∀ e ∈ before, (e.shape = .between ∨ e.shape = .after) ∧
      Definition.mayOccur [] d.follows d.id.toList e.id.toList = false)
    (hk : BareText key.toList) (hv : OperandText value) :
    CompiledBy (before ++ d :: after) (key ++ d.id ++ value) d key d.id (some value) := by
  have hempty : ∀ c ∈ "".toList, isBlank c = true := by simp
  have hcompiled := compiledBy_between after hshape hsolid hbefore hk (by simp) hempty hempty hv
  rwa [String.append_empty, String.append_empty] at hcompiled

theorem compiledBy_after (hshape : d.shape = .after)
    (hsolid : Definition.isSolid d.id.toList = true)
    (hbefore : ∀ e ∈ before, (e.shape = .between ∨ e.shape = .after) ∧
      Definition.mayOccur ends d.follows d.id.toList e.id.toList = false)
    (hk : BareText key.toList)
    (hends : ∀ c ∈ ends, isBlank c = false ∧ key.toList.getLast? ≠ some c)
    (hw₁ : ∀ c ∈ w₁.toList, isBlank c = true) :
    CompiledBy (before ++ d :: after) (key ++ w₁ ++ d.id) d key d.id none := by
  have hclause : (key ++ w₁ ++ d.id).toList =
      (key.toList ++ w₁.toList) ++ d.id.toList := by simp
  refine compiledBy_of_captures after (fun e he => ?_) ?_
  · rw [← List.append_nil d.id.toList] at hclause
    exact Definition.captures_eq_none_of_mayOccur (hbefore e he).1 (hbefore e he).2 hclause
      (hk.isKeyChar_append hw₁)
      (fun c hc => getLast?_append_ne (hends c hc).1 (hends c hc).2 hw₁) (by simp)
  · obtain ⟨x, xs, hid, hblank, -⟩ := Definition.exists_of_isSolid hsolid
    have hcaptures := Definition.exists_captures_after hshape hid hblank hclause
      (by simp [hk.nonempty]) (by rw [hk.fieldBefore_append hw₁]; exact hk.lineFeed_not_mem)
    rw [hk.trim_append hw₁, String.ofList_toList] at hcaptures
    exact hcaptures

theorem idOperators_isSolid : ∀ d ∈ idOperators, (d.shape = .between ∨ d.shape = .after) ∧
    Definition.isSolid d.id.toList = true := by
  decide

theorem idOperators_pairwise : idOperators.Pairwise fun e d =>
    Definition.mayOccur ['/', '$'] d.follows d.id.toList e.id.toList = false := by
  decide

/-- Each operator with an id has its place in the table, after others that cannot occur in its
clauses. -/
theorem exists_idOperators_split {d : Definition} (hd : d ∈ idOperators) :
    ∃ before after, standard = before ++ d :: after ∧
      ∀ e ∈ before, (e.shape = .between ∨ e.shape = .after) ∧
        Definition.mayOccur ['/', '$'] d.follows d.id.toList e.id.toList = false := by
  obtain ⟨before, after, hsplit⟩ := List.append_of_mem hd
  have hpair := idOperators_pairwise
  rw [hsplit, List.pairwise_append] at hpair
  refine ⟨before, after ++ [.falseKey, .trueKey], ?_, fun e he => ⟨?_, ?_⟩⟩
  · rw [standard_eq, hsplit]
    simp
  · exact (idOperators_isSolid e (by simp [hsplit, he])).1
  · exact hpair.2.2 e he d List.mem_cons_self

theorem mem_idOperators {d : Definition} (hd : d ∈ standard)
    (hshape : d.shape = .between ∨ d.shape = .after) : d ∈ idOperators := by
  rw [standard_eq, List.mem_append] at hd
  refine hd.resolve_right fun hbare => ?_
  have hcustom : ∀ d ∈ [Definition.falseKey, .trueKey], ¬ (d.shape = .between ∨ d.shape = .after) := by
    decide
  exact hcustom d hbare hshape

/-- Every id holds a character that stands in no bare key, and that is not the mark of negation. -/
theorem captures_idOperators_eq_none {clause : String} {key : List Char} (hk : BareText key)
    (hclause : clause.toList ⊆ '!' :: key) :
    ∀ d ∈ idOperators, d.captures Pattern.read? clause = .ok none := by
  have hmark : ∀ d ∈ idOperators, d.id.toList.any ['=', '<', '>', '?'].contains = true := by
    decide
  intro d hd
  refine Definition.captures_eq_none (idOperators_isSolid d hd).1 fun hin => ?_
  obtain ⟨c, hc, hreserved⟩ := List.any_eq_true.mp (hmark d hd)
  have hmem := hclause (hin.subset hc)
  have hsub : ∀ c ∈ ['=', '<', '>', '?'], c ∈ reservedChars ∧ c ≠ '!' := by
    simp [reservedChars]
  have hc' := hsub c (by simpa using hreserved)
  exact hk.not_mem hc'.1 ((List.mem_cons.mp hmem).resolve_left hc'.2)

end Table

section
variable {key : String}

theorem BareKey.ends (hk : BareKey key) :
    ∀ c ∈ ['/', '$'], isBlank c = false ∧ key.toList.getLast? ≠ some c := by
  have hblank : isBlank '/' = false ∧ isBlank '$' = false := by decide
  simp only [List.forall_mem_cons, List.not_mem_nil, false_imp_iff, implies_true, and_true]
  exact ⟨⟨hblank.1, fun h => (hk.last _ h).1 rfl⟩, hblank.2, fun h => (hk.last _ h).2 rfl⟩

namespace Table

theorem standard_compiledBy_between {d : Definition} (hd : d ∈ standard)
    (hshape : d.shape = .between) (hk : BareKey key) {w₁ w₂ value : String}
    (hw₁ : ∀ c ∈ w₁.toList, isBlank c = true) (hw₂ : ∀ c ∈ w₂.toList, isBlank c = true)
    (hv : OperandText value) :
    standard.CompiledBy (key ++ w₁ ++ d.id ++ w₂ ++ value) d key d.id (some value) := by
  have hid := mem_idOperators hd (.inl hshape)
  obtain ⟨before, after, htable, hbefore⟩ := exists_idOperators_split hid
  rw [htable]
  exact compiledBy_between after hshape (idOperators_isSolid d hid).2 hbefore hk.bareText hk.ends
    hw₁ hw₂ hv

theorem standard_compiledBy_after {d : Definition} (hd : d ∈ standard) (hshape : d.shape = .after)
    (hk : BareKey key) {w₁ : String} (hw₁ : ∀ c ∈ w₁.toList, isBlank c = true) :
    standard.CompiledBy (key ++ w₁ ++ d.id) d key d.id none := by
  have hid := mem_idOperators hd (.inr hshape)
  obtain ⟨before, after, htable, hbefore⟩ := exists_idOperators_split hid
  rw [htable]
  exact compiledBy_after after hshape (idOperators_isSolid d hid).2 hbefore hk.bareText hk.ends hw₁

theorem standard_compiledBy_falseKey (hk : BareText key.toList) :
    standard.CompiledBy ("!" ++ key) .falseKey key "false" none := by
  have hclause : ("!" ++ key).toList = '!' :: key.toList := by simp
  have hcaptures := Definition.exists_captures_falseKey hclause hk
  rw [String.ofList_toList] at hcaptures
  rw [standard_eq]
  exact compiledBy_of_captures [.trueKey] (captures_idOperators_eq_none hk (by simp)) hcaptures

theorem standard_compiledBy_trueKey (hk : BareText key.toList) :
    standard.CompiledBy key .trueKey key "true" none := by
  have hfalse : Definition.falseKey.captures Pattern.read? key = .ok none := by
    refine Definition.captures_falseKey_eq_none fun rest hrest => ?_
    exact absurd (by simp [hrest]) (hk.not_mem (by decide : '!' ∈ reservedChars))
  have htable : standard = (idOperators ++ [.falseKey]) ++ .trueKey :: [] := rfl
  rw [htable]
  refine compiledBy_of_captures [] ?_ (Definition.exists_captures_trueKey hk)
  simp only [List.forall_mem_append, List.forall_mem_singleton]
  exact ⟨captures_idOperators_eq_none hk (by simp), hfalse⟩

end Table

/-- No operator of the standard table takes a canonical clause from another. A bare key, an operator
and an operand, with any blanks between them, are compiled by that operator; so are a bare key and an
operator after it, a bare key after an exclamation mark, and a bare key alone. -/
theorem standard_compiles_canonical (hk : BareKey key) :
    (∀ d ∈ Table.standard, d.shape = .between → ∀ w₁ w₂ value : String,
      (∀ c ∈ w₁.toList, isBlank c = true) → (∀ c ∈ w₂.toList, isBlank c = true) →
      OperandText value →
      Table.standard.CompiledBy (key ++ w₁ ++ d.id ++ w₂ ++ value) d key d.id (some value)) ∧
    (∀ d ∈ Table.standard, d.shape = .after → ∀ w₁ : String, (∀ c ∈ w₁.toList, isBlank c = true) →
      Table.standard.CompiledBy (key ++ w₁ ++ d.id) d key d.id none) ∧
    (∃ d, Table.standard.get? "false" = some d ∧
      Table.standard.CompiledBy ("!" ++ key) d key "false" none) ∧
    ∃ d, Table.standard.get? "true" = some d ∧ Table.standard.CompiledBy key d key "true" none := by
  refine ⟨?_, ?_, ⟨.falseKey, rfl, Table.standard_compiledBy_falseKey hk.bareText⟩,
    .trueKey, rfl, Table.standard_compiledBy_trueKey hk.bareText⟩
  · intro d hd hshape w₁ w₂ value hw₁ hw₂ hv
    exact Table.standard_compiledBy_between hd hshape hk hw₁ hw₂ hv
  · intro d hd hshape w₁ hw₁
    exact Table.standard_compiledBy_after hd hshape hk hw₁

theorem standard_compiles_canonical_slash :
    let host : Host := .basic fun _ _ _ => .ok []
    BareKey "a/b" ∧ OperandText "7" ∧
      Table.standard.compileClause host {} "a/b\n#>\t7" =
        .ok ⟨[("a/b.8", .object [("$exists", .bool true)])], some .literal⟩ ∧
      Table.standard.compileClause host {} "a/b ===null" = .ok ⟨[("a/b", .null)], none⟩ ∧
      Table.standard.compileClause host {} "!a/b" = .ok ⟨[("a/b", .bool false)], none⟩ ∧
      Table.standard.compileClause host {} "a/b" = .ok ⟨[("a/b", .bool true)], none⟩ := by
  intro host
  have hchars : isBlank 'a' = false ∧ isBlank '/' = false ∧ isBlank 'b' = false := by decide
  have hk : BareKey "a/b" := ⟨by decide, by simp [reservedChars, hchars], by simp⟩
  have hseven : isBlank '7' = false := by decide
  have hv : OperandText "7" := ⟨by decide, by simp [hseven], by simp⟩
  have hblank : isBlank '\n' = true ∧ isBlank '\t' = true ∧ isBlank ' ' = true := by decide
  obtain ⟨hbetween, hafter, ⟨negated, hfalse, hnegated⟩, alone, htrue, halone⟩ :=
    standard_compiles_canonical hk
  cases hfalse
  cases htrue
  have hprobe := hbetween { Definition.binary "#>" .hasIndexAfter with merge := some .literal }
    (List.mem_iff_getElem?.mpr ⟨12, rfl⟩) rfl "\n" "\t" "7" (by simp [hblank]) (by simp [hblank]) hv
  have hnull := hafter (.unary "===null" .isNull) (List.mem_iff_getElem?.mpr ⟨1, rfl⟩) rfl " "
    (by simp [hblank])
  exact ⟨hk, hv, (hprobe.result _ {}).trans rfl, (hnull.result _ {}).trans rfl,
    (hnegated.result _ {}).trans rfl, (halone.result _ {}).trans rfl⟩

theorem compileClause_assignment (builders : Builders) (settings : Settings) (hk : BareKey key)
    {value : String} (hv : OperandText value) :
    Table.standard.compileClause (.basic builders) settings
        (String.ofList (key.toList ++ '=' :: value.toList)) =
      .ok ⟨Document.single key (settings.operandValue value), none⟩ := by
  let assign : Definition := { Definition.binary "=" .equal with forValues := true }
  have hmem : assign ∈ Table.standard := List.mem_iff_getElem?.mpr ⟨17, rfl⟩
  have hempty : ∀ c ∈ "".toList, isBlank c = true := by simp
  have hclause : String.ofList (key.toList ++ '=' :: value.toList) =
      key ++ "" ++ assign.id ++ "" ++ value := by
    rw [← String.toList_inj]
    simp [assign, Definition.binary]
  rw [hclause, (Table.standard_compiledBy_between hmem rfl hk hempty hempty hv).result]
  rfl

end
end FilterQuery
