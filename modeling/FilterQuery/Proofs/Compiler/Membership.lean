import FilterQuery.Proofs.Compiler.Standard
import FilterQuery.Proofs.Document.Writes
import FilterQuery.Proofs.Field.Elements
import FilterQuery.Proofs.Operator.Canonical

/-! Membership in a list of quoted elements. The splitting into clauses takes such a list for the one
quoted value of an assignment and drops its first and its last quote. Main statement: what is compiled
are the elements of the rest, and these are the elements of the list only if there is just one, with no
separator in it. -/
namespace FilterQuery
open Text FilterQuery.Field

/-- A bare key that has no meaning to the splitting of clauses and of paths, whatever its end is. -/
structure WordKey (key : String) : Prop where
  bare : BareText key.toList
  plain : ∀ c ∈ key.toList, c ≠ ',' ∧ c ≠ '\'' ∧ c ≠ '\\' ∧ c ≠ '.'

namespace Table

def membership : List (Definition × String) :=
  [(.binary "![]=" .notAmong, "$nin"), (.binary "[]=" .among, "$in")]

section
variable {d : Definition} {symbol : String}

theorem mem_membership : (d, symbol) ∈ membership ↔
    (d = .binary "![]=" .notAmong ∧ symbol = "$nin") ∨ d = .binary "[]=" .among ∧ symbol = "$in" := by
  simp [membership]

theorem outcome_of_mem_membership (hd : (d, symbol) ∈ membership) (host : Host)
    (settings : Settings) {o : Operands} {raw : String} (hraw : o.raw = some raw) :
    d.outcome host settings o =
      .ok ⟨applied o.left symbol (.array (values settings.arraySeparator raw)), none⟩ := by
  have helements : o.requireElements settings.arraySeparator =
      .ok (.array (values settings.arraySeparator raw)) := by
    simp only [Operands.requireElements, Operands.requireRaw, hraw]
    rfl
  obtain ⟨rfl, rfl⟩ | ⟨rfl, rfl⟩ := mem_membership.mp hd <;>
  · simp only [Definition.outcome, Definition.build, Definition.binary, Kind.build, helements]
    rfl

theorem standard_compiledBy_membership (hd : (d, symbol) ∈ membership) {key value : String}
    (hk : BareText key.toList) (hv : OperandText value) :
    standard.CompiledBy (key ++ d.id ++ value) d key d.id (some value) := by
  -- an earlier id that starts in the key would have to go on as `d` starts, and none does: the last
  -- character of the key does not matter
  have hsplit : ∃ before after, standard = before ++ d :: after ∧ d.shape = .between ∧
      Definition.isSolid d.id.toList = true ∧
      ∀ e ∈ before, (e.shape = .between ∨ e.shape = .after) ∧
        Definition.mayOccur [] d.follows d.id.toList e.id.toList = false := by
    obtain ⟨rfl, -⟩ | ⟨rfl, -⟩ := mem_membership.mp hd
    · exact ⟨standard.take 8, standard.drop 9, rfl, rfl, by decide, by decide⟩
    · exact ⟨standard.take 9, standard.drop 10, rfl, rfl, by decide, by decide⟩
  obtain ⟨before, after, htable, hshape, hsolid, hbefore⟩ := hsplit
  rw [htable]
  exact compiledBy_adjacent after hshape hsolid hbefore hk hv

end
end Table

theorem closes_eq_false {separator : Char} {after : List Symbol}
    (h : ∀ s ∈ after, s.lead ≠ separator) (hex : ∃ s ∈ after, isBlank s.lead = false) :
    closes separator after = false := by
  rw [closes]
  split
  · rename_i hnil
    obtain ⟨s, hs, hblank⟩ := hex
    rw [List.dropWhile_eq_nil_iff.mp hnil s hs] at hblank
    cases hblank
  · rename_i s rest hcons
    have hs : s ∈ after := (List.dropWhile_suffix _).subset (hcons ▸ List.mem_cons_self)
    simpa using h s hs

section
variable {key : String} {elements : List String}

theorem operandText_innerText (hne : elements ≠ [])
    (h : ∀ element ∈ elements, ElementText element) : OperandText (innerText elements) := by
  obtain ⟨element, rest, rfl⟩ := List.exists_cons_of_ne_nil hne
  have he := h element List.mem_cons_self
  obtain ⟨tail, htail⟩ := exists_innerText_cons element rest
  obtain ⟨c, cs, hcs⟩ := List.exists_cons_of_ne_nil he.nonempty
  refine ⟨by simp [htail, hcs], ?_, fun c hc => ?_⟩
  · intro d hd
    obtain rfl : c = d := by simpa [htail, hcs] using hd
    exact he.head_not_blank hcs
  · have hno : ∀ d ∈ ['\\', ',', '\n', '=', '<', '>'], c ≠ d :=
      fun d hd hcd => not_mem_innerText h hd (hcd ▸ hc)
    simp only [List.forall_mem_cons] at hno
    exact ⟨hno.2.2.1, hno.2.2.2.1, hno.2.2.2.2.1, hno.2.2.2.2.2.1⟩

/-- Split at commas, the list and what it is assigned to are one field. -/
theorem scan_elements {left : List Char} (hleft : ∀ c ∈ left, c ≠ quote ∧ c ≠ escape ∧ c ≠ ',')
    (h : ∀ element ∈ elements, ElementText element) :
    scan ',' .outside []
        (symbols ',' (left ++ assign :: quote :: ((innerText elements).toList ++ [quote]))) =
      [left ++ assign :: quote :: ((innerText elements).toList ++ [quote])] := by
  let inner := (innerText elements).toList
  have hplain : ∀ c ∈ left ++ assign :: quote :: (inner ++ [quote]), c ≠ escape := by
    simp only [List.forall_mem_append, List.forall_mem_cons]
    exact ⟨fun c hc => (hleft c hc).2.1, by decide, by decide,
      fun c hc hce => not_mem_innerText h (by decide : escape ∈ _) (hce ▸ hc), by decide, by simp⟩
  have hsymbols : symbols ',' (left ++ assign :: quote :: (inner ++ [quote])) =
      (left ++ [assign]).map .plain ++ .plain quote :: (inner.map .plain ++ .plain quote :: []) := by
    rw [symbols_plain hplain]
    simp
  have hinner : ∀ v w, inner.map Symbol.plain = v ++ .plain quote :: w →
      closes ',' (w ++ .plain quote :: []) = false := by
    -- a quote inside the list is followed by another quote, and by no comma
    intro v w hvw
    refine closes_eq_false ?_ ⟨.plain quote, by simp, by decide⟩
    rw [List.forall_mem_append, List.forall_mem_singleton]
    refine ⟨fun s hs => ?_, by decide⟩
    have hmem : s ∈ inner.map Symbol.plain := by simp [hvw, hs]
    obtain ⟨c, hc, rfl⟩ := List.mem_map.mp hmem
    exact fun hcomma : c = ',' => not_mem_innerText h (by decide : ',' ∈ _) (hcomma ▸ hc)
  have hscan := scan_assigned (by decide) (fun c hc => ⟨(hleft c hc).1, (hleft c hc).2.2⟩) hinner rfl
  rw [map_char_plain] at hscan
  rw [hsymbols, hscan]
  rfl

/-- Splitting into clauses leaves the list in one clause, without its first and its last quote. -/
theorem split_elements (mark : List Char) {left : String} (hleft : left.toList = mark ++ [assign])
    (hstart : trimStart mark = mark) (hmark : ∀ c ∈ mark, c ≠ quote ∧ c ≠ escape ∧ c ≠ ',')
    (hne : elements ≠ []) (h : ∀ element ∈ elements, ElementText element) :
    split ',' (left ++ elementsText elements) = [left ++ innerText elements] := by
  have htext : (left ++ elementsText elements).toList =
      mark ++ assign :: quote :: ((innerText elements).toList ++ [quote]) := by
    simp [hleft, toList_elementsText hne]
  have hclause : (left ++ innerText elements).toList =
      mark ++ assign :: (innerText elements).toList := by
    simp [hleft]
  have hassign : ¬ [assign, quote] <:+: (innerText elements).toList :=
    fun hin => not_mem_innerText h (by decide : assign ∈ _) (hin.subset (by simp))
  rw [split, htext, scan_elements hmark h, List.map_singleton,
    finish_assignment mark (lastAssignment?_eq_none hassign), hstart, ← hclause, String.ofList_toList]

variable {d : Definition} {symbol : String}

theorem split_membership (hk : WordKey key) (hd : (d, symbol) ∈ Table.membership)
    (hne : elements ≠ []) (h : ∀ element ∈ elements, ElementText element) :
    split ',' (key ++ d.id ++ elementsText elements) = [key ++ d.id ++ innerText elements] := by
  have hid : ∃ mark, d.id.toList = mark ++ [assign] ∧
      ∀ c ∈ mark, c ≠ quote ∧ c ≠ escape ∧ c ≠ ',' := by
    obtain ⟨rfl, -⟩ | ⟨rfl, -⟩ := Table.mem_membership.mp hd
    · exact ⟨['!', '[', ']'], rfl, by simp [quote, escape]⟩
    · exact ⟨['[', ']'], rfl, by simp [quote, escape]⟩
  obtain ⟨mark, hid, hmark⟩ := hid
  obtain ⟨c, cs, hcs⟩ := List.exists_cons_of_ne_nil hk.bare.nonempty
  refine split_elements (key.toList ++ mark) (by simp [hid]) ?_ ?_ hne h
  · rw [hcs]
    exact trimStart_cons _ (hk.bare.chars c (by simp [hcs])).1
  · rw [List.forall_mem_append]
    exact ⟨fun c hc => ⟨(hk.plain c hc).2.1, (hk.plain c hc).2.2.1, (hk.plain c hc).1⟩, hmark⟩

theorem compileText_elementsText (builders : Builders) (hk : WordKey key)
    (hd : (d, symbol) ∈ Table.membership)
    (hne : elements ≠ []) (h : ∀ element ∈ elements, ElementText element) :
    (Compiler.standard builders).compileText (key ++ d.id ++ elementsText elements) =
      .ok (applied key symbol (.array (values '|' (innerText elements)))) := by
  let fragment := applied key symbol (.array (values '|' (innerText elements)))
  have htext : (key ++ d.id ++ elementsText elements).toList =
      key.toList ++ (d.id.toList ++ (elementsText elements).toList) := by simp
  refine Compiler.compileText_of_applyClauses (Compiler.isObjectLike_of_bareText hk.bare htext) ?_
  have hclause : (Compiler.standard builders).settings.table.compileClause
      (Compiler.standard builders).host (Compiler.standard builders).settings
        (key ++ d.id ++ innerText elements) = .ok ⟨fragment, none⟩ := by
    have hcompiled := Table.standard_compiledBy_membership hd hk.bare (operandText_innerText hne h)
    exact (hcompiled.result builders {}).trans (Table.outcome_of_mem_membership hd _ {} rfl)
  have hnonempty : (key ++ d.id ++ innerText elements).isEmpty = false := by
    simp [← String.toList_eq_nil_iff, hk.bare.nonempty]
  have hmerge : Document.merge [] .dotted fragment = fragment :=
    Document.merge_single [] (fun hc => (hk.plain _ hc).2.2.2 rfl) _
  rw [split_membership hk hd hne h, Compiler.applyClauses, hnonempty, if_neg Bool.false_ne_true,
    hclause]
  exact congrArg Except.ok hmerge

/-- A list of quoted elements, read alone, is what it says. Assigned to a key by an operator of
membership it is not, unless it has one element only, with no separator in it: what is compiled are the
elements of the list without its first and its last quote. -/
theorem compileText_membership (builders : Builders) (hk : WordKey key) (hne : elements ≠ [])
    (h : ∀ element ∈ elements, ElementText element) :
    values '|' (elementsText elements) = elements.map Value.guess ∧
      ∃ c, Compiler.build (.basic builders) {} false = .ok c ∧
        ∀ op symbol, (op, symbol) ∈ [("[]=", "$in"), ("![]=", "$nin")] →
          c.compileText (key ++ op ++ elementsText elements) =
            .ok (applied key symbol (.array (values '|' (innerText elements)))) ∧
          (c.compileText (key ++ op ++ elementsText elements) =
              .ok (applied key symbol (.array (elements.map Value.guess))) ↔
            ∃ element, elements = [element] ∧ '|' ∉ element.toList) := by
  refine ⟨values_elementsText hne h, Compiler.standard builders, Compiler.build_standard, ?_⟩
  intro op symbol hop
  have hcompile : (Compiler.standard builders).compileText (key ++ op ++ elementsText elements) =
      .ok (applied key symbol (.array (values '|' (innerText elements)))) := by
    simp only [List.mem_cons, List.not_mem_nil, or_false, Prod.mk.injEq] at hop
    obtain ⟨rfl, rfl⟩ | ⟨rfl, rfl⟩ := hop
    · have hcompile :=
        compileText_elementsText builders hk (Table.mem_membership.mpr (.inr ⟨rfl, rfl⟩)) hne h
      rwa [Definition.binary] at hcompile
    · have hcompile :=
        compileText_elementsText builders hk (Table.mem_membership.mpr (.inl ⟨rfl, rfl⟩)) hne h
      rwa [Definition.binary] at hcompile
  refine ⟨hcompile, ?_⟩
  rw [hcompile, ← values_innerText_eq_iff hne h]
  simp [applied, Document.single]

theorem compileText_membership_separator :
    let host : Host := .basic fun _ _ _ => .ok []
    WordKey "k$" ∧ (∀ element ∈ ["a", "b|c"], ElementText element) ∧
      ∃ c, Compiler.build host {} false = .ok c ∧
        c.compileText "k$[]='a'|'b|c'" =
          .ok [("k$", .object [("$in", .array [.string "a'", .string "'b", .string "c"])])] ∧
        c.compileText "k$![]='a'|'b|c'" =
          .ok [("k$", .object [("$nin", .array [.string "a'", .string "'b", .string "c"])])] := by
  intro host
  have hblank : isBlank 'k' = false ∧ isBlank '$' = false := by decide
  have hk : WordKey "k$" := ⟨⟨by decide, by simp [reservedChars, hblank]⟩, by simp⟩
  have hitems : ∀ element ∈ ["a", "b|c"], ElementText element := by
    simp only [List.forall_mem_cons, List.not_mem_nil, false_imp_iff, implies_true, and_true]
    exact ⟨⟨by decide, by decide, by simp⟩, by decide, by decide, by simp⟩
  have hvalues : values '|' (innerText ["a", "b|c"]) =
      [.string "a'", .string "'b", .string "c"] := by rfl
  have htext : "k$" ++ "[]=" ++ elementsText ["a", "b|c"] = "k$[]='a'|'b|c'" ∧
      "k$" ++ "![]=" ++ elementsText ["a", "b|c"] = "k$![]='a'|'b|c'" := by decide +kernel
  obtain ⟨-, c, hbuild, hcompile⟩ :=
    compileText_membership (fun _ _ _ => .ok []) hk (by simp) hitems
  have hin := (hcompile "[]=" "$in" (by simp)).1
  have hnotIn := (hcompile "![]=" "$nin" (by simp)).1
  rw [hvalues, htext.1] at hin
  rw [hvalues, htext.2] at hnotIn
  exact ⟨hk, hitems, c, hbuild, hin, hnotIn⟩

/-- Two elements are enough: each keeps one of its quotes. -/
theorem compileText_membership_pair :
    let host : Host := .basic fun _ _ _ => .ok []
    WordKey "k" ∧ (∀ element ∈ ["a", "b"], ElementText element) ∧
      ∃ c, Compiler.build host {} false = .ok c ∧
        c.compileText "k[]='a'|'b'" =
          .ok (applied "k" "$in" (.array [.string "a'", .string "'b"])) ∧
        c.compileText "k[]='a'|'b'" ≠
          .ok (applied "k" "$in" (.array (["a", "b"].map Value.guess))) := by
  intro host
  have hblank : isBlank 'k' = false := by decide
  have hk : WordKey "k" := ⟨⟨by decide, by simp [reservedChars, hblank]⟩, by simp⟩
  have hitems : ∀ element ∈ ["a", "b"], ElementText element := by
    simp only [List.forall_mem_cons, List.not_mem_nil, false_imp_iff, implies_true, and_true]
    exact ⟨⟨by decide, by decide, by simp⟩, by decide, by decide, by simp⟩
  have hvalues : values '|' (innerText ["a", "b"]) = [.string "a'", .string "'b"] := by rfl
  have hguess : ["a", "b"].map Value.guess = [.string "a", .string "b"] := by rfl
  have htext : "k" ++ (Definition.binary "[]=" .among).id ++ elementsText ["a", "b"] =
      "k[]='a'|'b'" := by decide +kernel
  have hcompile :=
    compileText_elementsText host.build hk (Table.mem_membership.mpr (.inr ⟨rfl, rfl⟩)) (by simp)
      hitems
  rw [hvalues, htext] at hcompile
  refine ⟨hk, hitems, Compiler.standard host.build, Compiler.build_standard, hcompile, ?_⟩
  rw [hcompile, hguess]
  simp [applied, Document.single]

end
end FilterQuery
