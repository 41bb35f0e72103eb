import FilterQuery.Proofs.Operator.Standard

/-! The language of clauses. Main statement: a clause on one line is recognized exactly if it has a
mark inside, ends with a question mark or is a bare key, negated or not; and a recognized clause fails
through its operand only. -/
namespace FilterQuery
open Text

namespace Operands
variable {α β : Type} {o : Operands}

def Blames (o : Operands) (x : Except Error α) : Prop :=
  ∀ e, x = .error e → ∃ fault, e = .operand o.clause fault

theorem blames_ok (a : α) : o.Blames (.ok a) := by
  intro e he
  cases he

theorem blames_fail (fault : OperandFault) : o.Blames (o.fail fault : Except Error α) := by
  intro e he
  cases he
  exact ⟨fault, rfl⟩

theorem Blames.bind {x : Except Error α} {f : α → Except Error β} (hx : o.Blames x)
    (hf : ∀ a, o.Blames (f a)) : o.Blames (x >>= f) := by
  intro e he
  cases x with
  | error e' =>
    cases he
    exact hx e rfl
  | ok a => exact hf a e he

theorem requireRaw_blames : o.Blames o.requireRaw := by
  rw [requireRaw]
  split
  · exact blames_ok _
  · exact blames_fail _

theorem requireValue_blames : o.Blames o.requireValue :=
  requireRaw_blames.bind fun _ => blames_ok _

theorem requireElements_blames (separator : Char) : o.Blames (o.requireElements separator) :=
  requireRaw_blames.bind fun _ => blames_ok _

theorem requireNumber_blames : o.Blames o.requireNumber := by
  refine requireRaw_blames.bind fun raw => ?_
  split
  · exact blames_ok _
  · exact blames_fail _

theorem requireIndex_blames : o.Blames o.requireIndex := by
  refine requireNumber_blames.bind fun n => ?_
  split
  · split
    · exact blames_fail _
    · exact blames_ok _
  · exact blames_fail _

end Operands

open Operands in
theorem Kind.build_blames (kind : Kind) (o : Operands) (prefs : Preferences) :
    o.Blames (kind.build o prefs) := by
  cases kind with
  | notEqual | equal | size => exact requireValue_blames.bind fun _ => blames_ok _
  | occurs | starts | ends => exact requireRaw_blames.bind fun _ => blames_ok _
  | notAmong | among => exact (requireElements_blames _).bind fun _ => blames_ok _
  | hasIndex | hasIndexAfter => exact requireIndex_blames.bind fun _ => blames_ok _
  | atLeast | atMost | above | below => exact requireNumber_blames.bind fun _ => blames_ok _
  | isNull | isUndefined | absent | present | isFalse | isTrue => exact blames_ok _

/-- A fragment, or a fault in the operand of the clause. -/
def IsSettled (clause : String) (x : Except Error Fragment) : Prop :=
  (∃ f, x = .ok f) ∨ ∃ fault, x = .error (.operand clause fault)

namespace Definition

def isBuiltin (read? : PatternReader) (d : Definition) : Bool :=
  match d.builder with
  | .builtin _ => (d.matcher read?).isOk
  | .custom _ => false

theorem exists_captures_of_isBuiltin {read? : PatternReader} {d : Definition}
    (h : d.isBuiltin read? = true) (clause : String) :
    ∃ captures?, d.captures read? clause = .ok captures? := by
  rw [captures]
  cases hmatcher : d.matcher read? with
  | error e =>
    rw [isBuiltin, hmatcher] at h
    cases hbuilder : d.builder <;> simp [hbuilder, Except.isOk, Except.toBool] at h
  | ok m => exact ⟨m clause, rfl⟩

theorem fragment_settled {host : Host} {d : Definition} (h : d.isBuiltin host.read? = true)
    (settings : Settings) (clause : String) (captures : Captures) :
    IsSettled clause (d.fragment host settings clause captures) := by
  rw [fragment, build]
  cases hbuilder : d.builder with
  | custom name => simp [isBuiltin, hbuilder] at h
  | builtin kind =>
    dsimp only
    cases hbuild : kind.build (d.operands settings.toPreferences clause captures)
        settings.toPreferences with
    | ok document => exact .inl ⟨_, rfl⟩
    | error e =>
      obtain ⟨fault, rfl⟩ := kind.build_blames _ settings.toPreferences e hbuild
      exact .inr ⟨fault, rfl⟩

end Definition

namespace Table
variable {host : Host}

/-- All builders are built in; the patterns may be any. -/
def BuiltIn (table : Table) : Prop :=
  ∀ d ∈ table, ∃ kind, d.builder = .builtin kind

theorem fragment_eq_unrecognized {table : Table} (settings : Settings) {clause : String}
    (h : ∀ d ∈ table, d.captures host.read? clause = .ok none) :
    table.fragment host settings clause = .error (.unrecognizedClause clause) := by
  have happend := fragment_append [] settings h
  rw [List.append_nil] at happend
  exact happend

/-- One definition that matches is enough for a clause to be settled, by this one or by an earlier
one. -/
theorem fragment_settled {table : Table} (h : ∀ d ∈ table, d.isBuiltin host.read? = true)
    (settings : Settings) {clause : String} {d : Definition} (hd : d ∈ table) {captures : Captures}
    (hcaptures : d.captures host.read? clause = .ok (some captures)) :
    IsSettled clause (table.fragment host settings clause) := by
  induction table with
  | nil => cases hd
  | cons e rest ih =>
    rw [List.forall_mem_cons] at h
    obtain ⟨captures?, he⟩ := Definition.exists_captures_of_isBuiltin h.1 clause
    rw [Table.fragment, he]
    cases captures? with
    | some found => exact Definition.fragment_settled h.1 settings clause found
    | none =>
      obtain rfl | hrest := List.mem_cons.mp hd
      · rw [hcaptures] at he
        cases he
      · exact ih h.2 hrest

theorem isBuiltin_of_check {read? : PatternReader} {table : Table} (h : table.BuiltIn)
    (hcheck : table.check read? = .ok ()) : ∀ d ∈ table, d.isBuiltin read? = true := by
  intro d hd
  obtain ⟨kind, hkind⟩ := h d hd
  obtain ⟨m, hm⟩ := check_eq_ok_iff.mp hcheck d hd
  rw [Definition.isBuiltin, hkind, hm]
  rfl

theorem standard_builtIn : standard.BuiltIn := by
  unfold BuiltIn Table.standard
  simp [Definition.binary, Definition.unary, Definition.patterned]

theorem standard_isBuiltin : ∀ d ∈ standard, d.isBuiltin Pattern.read? = true :=
  isBuiltin_of_check standard_builtIn (check_of_subset_standard (List.Subset.refl standard))

theorem compileClause_strict (table : Table) (host : Host) {settings : Settings}
    (h : settings.throwOnError = true) (clause : String) :
    table.compileClause host settings clause = table.fragment host settings clause := by
  rw [compileClause, h]
  split
  · rename_i hf
    exact hf.symm
  · rename_i he
    exact he.symm

end Table

/-- The clauses that a standard operator matches, if they stand on one line. -/
inductive Recognized (cs : List Char) : Prop where
  | marked (i : Nat) (m : Char) (hm : m ∈ markChars) (hpos : 1 ≤ i) (hlt : i + 1 < cs.length)
      (hi : cs[i]? = some m)
  | asked (hlast : cs.getLast? = some '?') (hlen : 2 ≤ cs.length)
  | bare (h : BareText cs)
  | negated (key : List Char) (hcs : cs = '!' :: key) (h : BareText key)

namespace Recognized
variable {cs : List Char}

theorem of_mark {pre r : List Char} {m : Char} (hm : m ∈ markChars) (hcs : cs = pre ++ m :: r)
    (hpre : pre ≠ []) (hr : r ≠ []) : Recognized cs := by
  have hpre := List.length_pos_of_ne_nil hpre
  have hr := List.length_pos_of_ne_nil hr
  refine .marked pre.length m hm hpre ?_ ?_
  · rw [hcs, List.length_append, List.length_cons]
    omega
  · rw [hcs, List.getElem?_append_right (Nat.le_refl _), Nat.sub_self]
    rfl

theorem exists_first_mark {i : Nat} {m : Char} (hpos : 1 ≤ i) (hlt : i + 1 < cs.length)
    (hi : cs[i]? = some m) : ∃ c p r, cs = c :: p ++ m :: r ∧ m ∉ p ∧ r ≠ [] := by
  obtain ⟨j, rfl⟩ := Nat.exists_eq_add_of_le' hpos
  cases cs with
  | nil => cases hi
  | cons c rest =>
    rw [List.getElem?_cons_succ] at hi
    obtain ⟨p, r, rfl, hp⟩ := List.eq_append_cons_of_mem (List.mem_of_getElem? hi)
    refine ⟨c, p, r, rfl, hp, ?_⟩
    have hle : p.length ≤ j := by
      by_contra hj
      rw [List.getElem?_append_left (by omega)] at hi
      exact hp (List.mem_of_getElem? hi)
    rintro rfl
    simp only [List.length_cons, List.length_append, List.length_nil] at hlt
    omega

end Recognized

section
variable {clause : String}

theorem exists_captures_of_mark (hline : '\n' ∉ clause.toList) {m : Char} (hm : m ∈ markChars)
    {c : Char} {p r : List Char} (hclause : clause.toList = c :: p ++ m :: r) (hp : m ∉ p)
    (hr : r ≠ []) :
    ∃ d ∈ Table.standard, ∃ captures, d.captures Pattern.read? clause = .ok (some captures) := by
  have hsingle : ∀ m ∈ markChars, isBlank m = false ∧
      ∃ d ∈ Table.standard, d.shape = .between ∧ d.id.toList = [m] := by
    simp only [markChars, List.forall_mem_cons, List.not_mem_nil, false_imp_iff, implies_true,
      and_true]
    decide
  obtain ⟨hblank, d, hd, hshape, hid⟩ := hsingle m hm
  have hfirst : ∀ u v, c :: p = u ++ v → u ≠ [] → v ≠ [] →
      ¬ d.id.toList <+: v ++ (d.id.toList ++ r) := by
    intro u v huv hu hv hprefix
    obtain ⟨y, u, rfl⟩ := List.exists_cons_of_ne_nil hu
    obtain ⟨x, v, rfl⟩ := List.exists_cons_of_ne_nil hv
    obtain ⟨-, rfl⟩ : c = y ∧ p = u ++ x :: v := by simpa using huv
    obtain rfl : m = x := by simpa [hid, List.cons_prefix_cons] using hprefix
    exact hp (by simp)
  have hfield := Definition.lineFeed_not_mem_fieldBefore hline hclause
  have hoperand : '\n' ∉ Definition.operandAfter r :=
    Definition.lineFeed_not_mem_operandAfter hline (hclause.trans (List.append_cons _ m r))
  obtain ⟨captures, hcaptures, -⟩ := Definition.exists_captures_between hshape hid hblank
    (by rw [hclause, hid]; rfl) (by simp) hr hfield hoperand hfirst
  exact ⟨d, hd, captures, hcaptures⟩

theorem exists_captures_of_question (hline : '\n' ∉ clause.toList) {pre : List Char}
    (hclause : clause.toList = pre ++ ['?']) (hpre : pre ≠ []) :
    ∃ d ∈ Table.standard, ∃ captures, d.captures Pattern.read? clause = .ok (some captures) := by
  have hfield := Definition.lineFeed_not_mem_fieldBefore hline hclause
  let present : Definition := .unary "?" .present
  have hid : present.id.toList = ['?'] := show "?".toList = ['?'] from rfl
  have hshape : present.shape = .after := rfl
  obtain ⟨captures, hcaptures, -⟩ := Definition.exists_captures_after hshape hid (by decide)
    (by rw [hclause, hid]) hpre hfield
  exact ⟨present, List.mem_iff_getElem?.mpr ⟨19, rfl⟩, captures, hcaptures⟩

theorem exists_captures_of_recognized (hline : '\n' ∉ clause.toList)
    (h : Recognized clause.toList) :
    ∃ d ∈ Table.standard, ∃ captures, d.captures Pattern.read? clause = .ok (some captures) := by
  cases h with
  | marked i m hm hpos hlt hi =>
    obtain ⟨c, p, r, hclause, hp, hr⟩ := Recognized.exists_first_mark hpos hlt hi
    exact exists_captures_of_mark hline hm hclause hp hr
  | asked hlast hlen =>
    obtain ⟨pre, hclause⟩ := List.getLast?_eq_some_iff.mp hlast
    refine exists_captures_of_question hline hclause ?_
    rintro rfl
    simp [hclause] at hlen
  | bare h =>
    obtain ⟨captures, hcaptures, -⟩ := Definition.exists_captures_trueKey h
    exact ⟨.trueKey, by simp [Table.standard_eq], captures, hcaptures⟩
  | negated key hclause h =>
    obtain ⟨captures, hcaptures, -⟩ := Definition.exists_captures_falseKey hclause h
    exact ⟨.falseKey, by simp [Table.standard_eq], captures, hcaptures⟩

/-- Operators with an operand hold a mark; the others end with a question mark or start with a mark
that is not their end. -/
theorem captures_idOperators_of_not_recognized (h : ¬ Recognized clause.toList) :
    ∀ d ∈ Table.idOperators, d.captures Pattern.read? clause = .ok none := by
  have hids : ∀ d ∈ Table.idOperators,
      (d.shape = .between ∧ d.id.toList.any markChars.contains = true) ∨
      (d.shape = .after ∧ (d.id.toList.getLast? = some '?' ∨
        d.id.toList.head?.any markChars.contains = true ∧ 2 ≤ d.id.toList.length)) := by
    decide
  intro d hd
  obtain ⟨hshape, hmark⟩ | ⟨hshape, hend⟩ := hids d hd
  · refine Definition.captures_between_eq_none hshape fun pre r hclause hpre => ?_
    by_contra hr
    obtain ⟨m, hmid, hm⟩ := List.any_eq_true.mp hmark
    obtain ⟨a, b, hid⟩ := List.append_of_mem hmid
    have hcs : clause.toList = (pre ++ a) ++ m :: (b ++ r) := by simp [hclause, hid]
    exact h (.of_mark (by simpa using hm) hcs (by simp [hpre]) (by simp [hr]))
  · refine Definition.captures_after_eq_none hshape fun pre r hclause hpre => ?_
    rintro rfl
    rw [List.append_nil] at hclause
    obtain hlast | ⟨hhead, hlen⟩ := hend
    · refine h (.asked (by rw [hclause, List.getLast?_append, hlast]; rfl) ?_)
      have hpos := List.length_pos_of_ne_nil hpre
      have hid : d.id.toList ≠ [] := by
        intro hnil
        simp [hnil] at hlast
      have hpos' := List.length_pos_of_ne_nil hid
      rw [hclause, List.length_append]
      omega
    · cases hid : d.id.toList with
      | nil => simp [hid] at hlen
      | cons m b =>
        have hb : b ≠ [] := by
          rintro rfl
          simp [hid] at hlen
        rw [hid] at hclause hhead
        exact h (.of_mark (by simpa using hhead) hclause hpre hb)

theorem captures_standard_of_not_recognized (h : ¬ Recognized clause.toList) :
    ∀ d ∈ Table.standard, d.captures Pattern.read? clause = .ok none := by
  rw [Table.standard_eq]
  simp only [List.forall_mem_append, List.forall_mem_cons, List.not_mem_nil, false_imp_iff,
    implies_true, and_true]
  refine ⟨captures_idOperators_of_not_recognized h, ?_, ?_⟩
  · exact Definition.captures_falseKey_eq_none fun key hkey hbare => h (.negated key hkey hbare)
  · exact Definition.captures_trueKey_eq_none fun hbare => h (.bare hbare)

end

/-- Under the standard operators, a strict compilation refuses a clause on one line as unrecognized
exactly if it has no mark inside, does not end with a question mark after something else, and is no
bare key, negated or not. Any other clause gives a fragment or a fault in its operand. -/
theorem compileClause_unrecognized_iff (builders : Builders) (settings : Settings)
    (hstrict : settings.throwOnError = true) (clause : String) (hline : '\n' ∉ clause.toList) :
    (Table.standard.compileClause (.basic builders) settings clause =
        .error (.unrecognizedClause clause) ↔ ¬ Recognized clause.toList) ∧
    (Recognized clause.toList →
      (∃ f, Table.standard.compileClause (.basic builders) settings clause = .ok f) ∨
        ∃ fault, Table.standard.compileClause (.basic builders) settings clause =
          .error (.operand clause fault)) := by
  rw [Table.standard.compileClause_strict _ hstrict clause]
  have hsettled : Recognized clause.toList →
      IsSettled clause (Table.standard.fragment (.basic builders) settings clause) := by
    intro h
    obtain ⟨d, hd, captures, hcaptures⟩ := exists_captures_of_recognized hline h
    exact Table.fragment_settled Table.standard_isBuiltin settings hd hcaptures
  refine ⟨⟨fun herror h => ?_, fun h => ?_⟩, hsettled⟩
  · obtain ⟨f, hf⟩ | ⟨fault, hfault⟩ := hsettled h
    · rw [hf] at herror
      cases herror
    · rw [hfault] at herror
      cases herror
  · exact Table.fragment_eq_unrecognized settings (captures_standard_of_not_recognized h)

theorem compileClause_unrecognized_ends :
    let host : Host := .basic fun _ _ _ => .ok []
    '\n' ∉ "=a b>".toList ∧ ¬ Recognized "=a b>".toList ∧
      Table.standard.compileClause host {} "=a b>" = .error (.unrecognizedClause "=a b>") := by
  intro host
  have hno : ¬ Recognized "=a b>".toList := by
    intro h
    cases h with
    | marked i m hm hpos hlt hi =>
      have hi' : i = 1 ∨ i = 2 ∨ i = 3 := by
        simp at hlt
        omega
      obtain rfl | rfl | rfl := hi' <;> simp [markChars] at hi hm <;> simp [← hi] at hm
    | asked hlast hlen => simp at hlast
    | bare h => exact h.not_mem (c := '=') (by decide) (by simp)
    | negated key hcs h => simp at hcs
  have hline : '\n' ∉ "=a b>".toList := by decide
  exact ⟨hline, hno, ((compileClause_unrecognized_iff _ {} rfl "=a b>" hline).1).mpr hno⟩

end FilterQuery
