import FilterQuery.Proofs.Operator.Grammar
import FilterQuery.Proofs.Operator.Search
import FilterQuery.Proofs.Operator.WellFormed

/-! Negated clauses. Main statement: under the standard operators `k!=v` and `k=v` never give the same
document, whatever operators occur inside the key and the value. -/
namespace FilterQuery
open Text

/-! ### Where a clause is negated -/

section
variable {id cs : List Char} {p : Nat}

/-- What is added to the end of a text does not change where another one first occurs in it. -/
theorem FirstPlace.append (h : FirstPlace id cs p) (hid : id ≠ []) (w : List Char) :
    FirstPlace id (cs ++ w) p := by
  have hlength := h.add_length_le hid
  refine ⟨h.pos, ?_, fun q hpos hlt hin => h.least q hpos hlt ?_⟩
  · rw [List.drop_append_of_le_length (by omega)]
    exact h.occurs.trans (List.prefix_append _ w)
  · rw [List.drop_append_of_le_length (by omega)] at hin
    refine List.prefix_of_prefix_length_le hin (List.prefix_append _ w) ?_
    rw [List.length_drop]
    omega

end

def negationMark : List Char := ['!', '=']

section
variable {key value : List Char}

theorem firstPlace_negated (hkey : key ≠ []) (hno : ∀ p, ¬ FirstPlace negationMark key p) :
    FirstPlace negationMark (key ++ (negationMark ++ value)) key.length := by
  refine ⟨List.length_pos_iff.mpr hkey, ?_, fun q hpos hlt hin => ?_⟩
  · rw [List.drop_left]
    exact List.prefix_append _ _
  · rw [List.drop_append_of_le_length (by omega)] at hin
    have hsplit := List.take_append_drop q key
    have htake : key.take q ≠ [] := by
      rw [← List.length_pos_iff, List.length_take]
      omega
    -- the mark would have to start in the key: with its last character, or before it
    cases hdrop : key.drop q with
    | nil =>
      have hlength := congrArg List.length hdrop
      rw [List.length_drop, List.length_nil] at hlength
      omega
    | cons x rest =>
      rw [hdrop] at hin hsplit
      cases rest with
      | nil => simp [negationMark, List.cons_prefix_cons] at hin
      | cons y rest =>
        obtain ⟨rfl, rfl⟩ : '!' = x ∧ '=' = y := by
          simpa [negationMark, List.cons_prefix_cons] using hin
        have hkey : key = key.take q ++ (negationMark ++ rest) := hsplit.symm
        obtain ⟨p, hp, -⟩ := exists_firstPlace hkey htake
        exact hno p hp

theorem trim_ne_of_equal {pre r : List Char} (hno : ∀ p, ¬ FirstPlace negationMark key p)
    (hclause : key ++ '=' :: value = pre ++ (negationMark ++ r)) (hpre : pre ≠ []) :
    trim key ≠ trim pre := by
  obtain ⟨t, rfl, ht⟩ | ⟨t, rfl, ht⟩ := List.append_eq_append_iff.mp hclause
  · cases t with
    | nil => simp [negationMark] at ht
    | cons c t =>
      -- the mark stands in the value, so the part before it holds the key and more
      obtain ⟨rfl, -⟩ : '=' = c ∧ value = t ++ (negationMark ++ r) := by simpa using ht
      exact (trim_append_cons_ne key t (by decide)).symm
  · cases t with
    | nil => simp [negationMark] at ht
    | cons c t =>
      obtain ⟨rfl, hrest⟩ : '!' = c ∧ '=' :: r = t ++ '=' :: value := by
        simpa [negationMark] using ht
      -- the mark starts in the key: with its last character, or it is all inside
      cases t with
      | nil => exact trim_append_cons_ne pre [] (by decide)
      | cons d t =>
        obtain ⟨rfl, -⟩ : '=' = d ∧ r = t ++ '=' :: value := by simpa using hrest
        have hkey : pre ++ '!' :: '=' :: t = pre ++ (negationMark ++ t) := rfl
        obtain ⟨p, hp, -⟩ := exists_firstPlace hkey hpre
        exact absurd hp (hno p)

end

/-! ### What is built -/

theorem Definition.operandAfter_append_cons (u : List Char) {c : Char} (w : List Char)
    (h : isBlank c = false) : operandAfter (u ++ c :: w) = trimStart u ++ c :: w := by
  rw [operandAfter, trimStart_append_cons u w h, if_neg (by simp)]

theorem Preferences.operandValue_of_isForeign (prefs : Preferences) {raw : String} {c : Char}
    (h : isForeign c = true) (hc : c ∈ raw.toList) : prefs.operandValue raw = .string raw := by
  rw [operandValue]
  split
  · exact Value.guess_of_isForeign h hc
  · rfl

theorem same_single (left left' : String) (value value' : Value) :
    (Document.single left value).same (.single left' value') =
      (decide (left' = left) && value.same value') := by
  by_cases hleft : left' = left
  · simp [Document.same, Document.single, sameEntries, Document.get?, hleft]
  · simp [Document.same, Document.single, sameEntries, Document.get?, hleft]

theorem exists_of_same_object {symbol : String} {value value' : Value}
    (h : (Value.object [(symbol, value)]).same value' = true) :
    ∃ operand, value' = .object [(symbol, operand)] ∧ value.same operand = true := by
  cases value' with
  | object entries =>
    rw [Value.same, Bool.and_eq_true] at h
    obtain ⟨⟨key, operand⟩, rfl⟩ := List.length_eq_one_iff.mp (beq_iff_eq.mp h.1).symm
    by_cases hkey : key = symbol
    · subst hkey
      exact ⟨operand, rfl, by simpa [sameEntries, Document.get?] using h.2⟩
    · simp [sameEntries, Document.get?, hkey] at h
  | _ => cases h

/-- A field with an operator applied to it differs from a field with a value if the fields are two,
or the value is no object with the same operator, or the operands differ. -/
theorem applied_distinct {left left' symbol : String} {value value' : Value}
    (h : left ≠ left' ∨ ∀ operand, value' = .object [(symbol, operand)] →
      value ≠ operand ∧ value.same operand = false) :
    applied left symbol value ≠ .single left' value' ∧
      (applied left symbol value).same (.single left' value') = false := by
  refine ⟨fun heq => ?_, Bool.eq_false_iff.mpr fun hsame => ?_⟩
  · obtain ⟨hleft, hobject⟩ : left = left' ∧ Value.object [(symbol, value)] = value' := by
      simpa [applied, Document.single] using heq
    obtain hne | hdistinct := h
    · exact hne hleft
    · exact (hdistinct value hobject.symm).1 rfl
  · rw [applied, same_single, Bool.and_eq_true, decide_eq_true_eq] at hsame
    obtain ⟨operand, hobject, hoperand⟩ := exists_of_same_object hsame.2
    obtain hne | hdistinct := h
    · exact hne hsame.1.symm
    · rw [(hdistinct operand hobject).2] at hoperand
      cases hoperand

theorem Kind.exists_single {kind : Kind} (hkind : kind ≠ .notEqual) {d : Definition}
    {prefs : Preferences} {clause : String} {captures : Captures} {doc : Document}
    (h : kind.build (d.operands prefs clause captures) prefs = .ok doc) :
    ∃ left value, doc = .single left value ∧ ∀ operand, value ≠ .object [("$ne", operand)] := by
  cases kind with
  | notEqual => exact absurd rfl hkind
  | isNull | isUndefined | isFalse | isTrue =>
    cases h
    exact ⟨_, _, rfl, fun _ => Value.noConfusion⟩
  | equal =>
    obtain ⟨value, hvalue, hdoc⟩ := exists_of_bind_eq_ok h
    cases hdoc
    obtain ⟨raw, rfl⟩ := Definition.exists_operandValue hvalue
    refine ⟨_, _, rfl, fun operand hobject => ?_⟩
    have hscalar := prefs.isScalar_operandValue raw
    rw [hobject] at hscalar
    cases hscalar
  | absent | present =>
    cases h
    exact ⟨_, _, rfl, by simp⟩
  | occurs | starts | ends | notAmong | among | size | hasIndex | hasIndexAfter | atLeast | atMost
  | above | below =>
    obtain ⟨operand, -, hdoc⟩ := exists_of_bind_eq_ok h
    cases hdoc
    exact ⟨_, _, rfl, by simp⟩

def Builder.mayNegate : Builder → Bool
  | builtin kind => kind == .notEqual
  | custom _ => true

def Definition.negation : Definition := .binary "!=" .notEqual

namespace Table
open Definition

theorem standard_eq_cons : standard = negation :: standard.tail := rfl

theorem fragment_negation {clause : String} {field operand : List Char}
    (h : negation.Takes clause field negationMark (some operand)) (builders : Builders)
    (settings : Settings) :
    standard.fragment (.basic builders) settings clause =
      .ok ⟨applied (String.ofList field) "$ne" (settings.operandValue (String.ofList operand)),
        none⟩ := by
  obtain ⟨captures, hcaptures, hoperands⟩ := h.exists_operands
  rw [standard_eq_cons, Table.fragment, hcaptures]
  dsimp only
  rw [Definition.fragment, hoperands]
  rfl

/-- Only the operator of negation builds negated documents. -/
theorem exists_single_of_fragment {host : Host} {settings : Settings} {clause : String}
    {f : Fragment} (hno : negation.captures host.read? clause = .ok none)
    (h : standard.fragment host settings clause = .ok f) :
    ∃ left value, f.document = .single left value ∧
      ∀ operand, value ≠ .object [("$ne", operand)] := by
  have hkinds : standard.tail.all (fun d => !d.builder.mayNegate) = true := by rfl
  rw [standard_eq_cons, Table.fragment, hno] at h
  obtain ⟨d, hd, captures, -, hbuild, -⟩ := exists_of_fragment h
  have hkind := List.all_eq_true.mp hkinds d hd
  rw [Definition.build] at hbuild
  split at hbuild
  · rename_i kind hbuilder
    rw [hbuilder] at hkind
    exact Kind.exists_single (by simpa [Builder.mayNegate] using hkind) hbuild
  · rename_i name hbuilder
    rw [hbuilder] at hkind
    cases hkind

end Table

section
open Definition
variable {clause : String} {key value : List Char}

theorem takes_negation (hline : '\n' ∉ clause.toList) {p : Nat}
    (hp : FirstPlace negationMark clause.toList p) (hlt : p + 2 < clause.toList.length) :
    negation.Takes clause (trim (clause.toList.take p)) negationMark
      (some (operandAfter (clause.toList.drop (p + 2)))) :=
  takes_firstPlace rfl rfl (by decide) hline hp hlt

/-- A clause that is negated inside its key is cut there, whatever follows the key. -/
theorem takes_negation_of_key (hline : '\n' ∉ clause.toList) {p : Nat}
    (hp : FirstPlace negationMark key p) {c : Char} {w : List Char} (hc : isBlank c = false)
    (hclause : clause.toList = key ++ c :: w) :
    negation.Takes clause (trim (key.take p)) negationMark
      (some (trimStart (key.drop (p + 2)) ++ c :: w)) := by
  have hlength : p + 2 ≤ key.length := hp.add_length_le (by decide)
  have hplace := hp.append (by decide) (c :: w)
  rw [← hclause] at hplace
  have htakes := takes_negation hline hplace (by simp [hclause]; omega)
  rwa [hclause, List.take_append_of_le_length (by omega), List.drop_append_of_le_length hlength,
    operandAfter_append_cons _ _ hc] at htakes

section
variable {builders : Builders} {settings : Settings} {negated plain : String} {f g : Fragment}

/-- A key that is itself negated gives both clauses one field, and operands of two lengths. -/
theorem distinct_of_negated_key (hnegated : negated.toList = key ++ (negationMark ++ value))
    (hplain : plain.toList = key ++ '=' :: value) (hline : '\n' ∉ key ++ value) {p : Nat}
    (hp : FirstPlace negationMark key p)
    (hf : Table.standard.fragment (.basic builders) settings negated = .ok f)
    (hg : Table.standard.fragment (.basic builders) settings plain = .ok g) :
    f.document ≠ g.document ∧ f.document.same g.document = false := by
  have htakes := takes_negation_of_key (by simp_all [negationMark]) hp (by decide) hnegated
  have htakes' := takes_negation_of_key (by simp_all) hp (by decide) hplain
  rw [Table.fragment_negation htakes] at hf
  rw [Table.fragment_negation htakes'] at hg
  cases hf
  cases hg
  -- both operands hold the sign that follows the key, so neither is guessed to be a number
  have hforeign : isForeign '=' = true := by decide
  rw [settings.operandValue_of_isForeign hforeign (by simp),
    settings.operandValue_of_isForeign hforeign (by simp)]
  refine applied_distinct (.inr fun operand hobject => ?_)
  obtain rfl : _ = operand := by simpa using hobject
  simp [Value.same]

/-- A key that is not negated is the field of the negated clause, but not of the other one, should that
be negated as well. -/
theorem distinct_of_plain_key (hnegated : negated.toList = key ++ (negationMark ++ value))
    (hplain : plain.toList = key ++ '=' :: value) (hline : '\n' ∉ key ++ value) (hkey : key ≠ [])
    (hvalue : value ≠ []) (hno : ∀ p, ¬ FirstPlace negationMark key p)
    (hf : Table.standard.fragment (.basic builders) settings negated = .ok f)
    (hg : Table.standard.fragment (.basic builders) settings plain = .ok g) :
    f.document ≠ g.document ∧ f.document.same g.document = false := by
  have hplace : FirstPlace negationMark negated.toList key.length := by
    rw [hnegated]
    exact firstPlace_negated hkey hno
  have hlength : key.length + 2 < negated.toList.length := by
    have hpos := List.length_pos_iff.mpr hvalue
    simp [hnegated, negationMark]
    omega
  have htakes := takes_negation (by simp_all [negationMark]) hplace hlength
  rw [hnegated, List.take_left] at htakes
  rw [Table.fragment_negation htakes] at hf
  cases hf
  have hplainLine : '\n' ∉ plain.toList := by simp_all
  have hparse : Pattern.parse? negation.source = some (betweenPattern "!=") :=
    parse?_source_between rfl
  have hcaptures := captures_of_parse? hparse plain
  cases hmatch : (betweenPattern "!=").match? plain with
  | none =>
    rw [hmatch] at hcaptures
    obtain ⟨left, other, hdoc, hother⟩ := Table.exists_single_of_fragment hcaptures hg
    rw [hdoc]
    exact applied_distinct (.inr fun operand hobject => absurd hobject (hother operand))
  | some captures =>
    rw [hmatch] at hcaptures
    obtain ⟨p, hp, hlt⟩ :=
      (captures_between_iff rfl rfl (by decide) hplainLine).mp ⟨captures, hcaptures⟩
    have hplace : FirstPlace negationMark plain.toList p := hp
    rw [Table.fragment_negation (takes_negation hplainLine hplace hlt)] at hg
    cases hg
    have hne := trim_ne_of_equal hno (hplain.symm.trans hplace.eq_append)
      (hplace.take_ne_nil (by decide))
    exact applied_distinct (.inl fun hleft => hne (String.ofList_inj.mp hleft))

end
end

/-- A negated clause and the same clause without the negation never give the same document. -/
theorem compileClause_negation (builders : Builders) (settings : Settings)
    (hstrict : settings.throwOnError = true) (key value : String) (hkey : key ≠ "")
    (hvalue : value ≠ "") (hkeyLine : '\n' ∉ key.toList) (hvalueLine : '\n' ∉ value.toList)
    (f g : Fragment)
    (hf : Table.standard.compileClause (.basic builders) settings (key ++ "!=" ++ value) = .ok f)
    (hg : Table.standard.compileClause (.basic builders) settings (key ++ "=" ++ value) = .ok g) :
    f ≠ g ∧ f.document.same g.document = false := by
  rw [Table.standard.compileClause_strict _ hstrict] at hf hg
  have hnegated : (key ++ "!=" ++ value).toList =
      key.toList ++ (negationMark ++ value.toList) := by simp [negationMark]
  have hplain : (key ++ "=" ++ value).toList = key.toList ++ '=' :: value.toList := by simp
  have hline : '\n' ∉ key.toList ++ value.toList := by simp [hkeyLine, hvalueLine]
  have hdistinct : f.document ≠ g.document ∧ f.document.same g.document = false := by
    by_cases hinside : ∃ p, FirstPlace negationMark key.toList p
    · obtain ⟨p, hp⟩ := hinside
      exact distinct_of_negated_key hnegated hplain hline hp hf hg
    · exact distinct_of_plain_key hnegated hplain hline (by simpa using hkey) (by simpa using hvalue)
        (fun p hp => hinside ⟨p, hp⟩) hf hg
  exact ⟨fun h => hdistinct.1 (congrArg Fragment.document h), hdistinct.2⟩

theorem compileClause_negation_shared :
    let host : Host := .basic fun _ _ _ => .ok []
    let f : Fragment := ⟨applied "a!" "$ne" (.string "x"), none⟩
    let g : Fragment := ⟨applied "a" "$ne" (.string "x"), none⟩
    Table.standard.compileClause host {} ("a!" ++ "!=" ++ "x") = .ok f ∧
      Table.standard.compileClause host {} ("a!" ++ "=" ++ "x") = .ok g ∧
      f ≠ g ∧ f.document.same g.document = false := by
  intro host f g
  have hf : Table.standard.compileClause host {} ("a!" ++ "!=" ++ "x") = .ok f := by rfl
  have hg : Table.standard.compileClause host {} ("a!" ++ "=" ++ "x") = .ok g := by rfl
  exact ⟨hf, hg, compileClause_negation _ {} rfl "a!" "x" (by decide) (by decide) (by decide)
    (by decide) f g hf hg⟩

end FilterQuery
