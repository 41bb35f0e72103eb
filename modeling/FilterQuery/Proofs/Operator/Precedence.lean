import FilterQuery.Proofs.Operator.Standard

/-! Which definition of a table compiles a clause. Main statement: a definition that is added to a
table changes nothing for the clauses that an earlier one matches, nor for those that it does not
match itself. -/
namespace FilterQuery

def Definition.isMatch (d : Definition) (read? : PatternReader) (clause : String) : Bool :=
  match d.captures read? clause with
  | .ok (some _) => true
  | _ => false

section
variable {d : Definition} {read? : PatternReader} {clause : String}

theorem Definition.captures_of_isMatch (h : d.isMatch read? clause = true) :
    ∃ captures, d.captures read? clause = .ok (some captures) := by
  rw [isMatch] at h
  split at h
  · rename_i captures hcaptures
    exact ⟨captures, hcaptures⟩
  · cases h

theorem Definition.captures_of_not_isMatch (hmatcher : ∃ m, d.matcher read? = .ok m)
    (h : d.isMatch read? clause = false) : d.captures read? clause = .ok none := by
  obtain ⟨m, hm⟩ := hmatcher
  have hcaptures : d.captures read? clause = .ok (m clause) := by
    rw [captures, hm]
    rfl
  rw [isMatch, hcaptures] at h
  cases hmatch : m clause with
  | none => rw [hcaptures, hmatch]
  | some captures =>
    rw [hmatch] at h
    cases h

end

namespace Table

/-- Whatever the settings are, a clause is refused by the table, or it is the first definition it
matches that decides. -/
theorem fragment_cases (table : Table) (host : Host) (clause : String) :
    (∃ e, ∀ settings, table.fragment host settings clause = .error e) ∨
    ∃ before d after captures, table = before ++ d :: after ∧
      (∀ e ∈ before, e.captures host.read? clause = .ok none) ∧
      d.captures host.read? clause = .ok (some captures) ∧
      ∀ settings, table.fragment host settings clause =
        d.fragment host settings clause captures := by
  induction table with
  | nil => exact .inl ⟨_, fun _ => rfl⟩
  | cons d rest ih =>
    simp only [Table.fragment]
    cases hcaptures : d.captures host.read? clause with
    | error e => exact .inl ⟨e, fun _ => rfl⟩
    | ok captures? =>
      cases captures? with
      | some captures => exact .inr ⟨[], d, rest, captures, rfl, by simp, hcaptures, fun _ => rfl⟩
      | none =>
        obtain herror | ⟨before, e, after, captures, htable, hbefore, he, hfragment⟩ := ih
        · exact .inl herror
        · refine .inr ⟨d :: before, e, after, captures, ?_, ?_, he, hfragment⟩
          · rw [htable, List.cons_append]
          · exact List.forall_mem_cons.mpr ⟨hcaptures, hbefore⟩

section
variable {table : Table} {d : Definition} {host : Host} (settings : Settings) (clause : String)

/-- Definitions that are added at the end see the clauses that nothing before them matches. -/
theorem compileClause_append (htable : ∀ e ∈ table, ∃ m, e.matcher host.read? = .ok m)
    (later : Table) :
    compileClause (table ++ later) host settings clause =
      if table.any (·.isMatch host.read? clause) then table.compileClause host settings clause
      else later.compileClause host settings clause := by
  induction table with
  | nil => rfl
  | cons d rest ih =>
    rw [List.forall_mem_cons] at htable
    rw [List.cons_append, List.any_cons]
    cases hmatch : d.isMatch host.read? clause with
    | true =>
      obtain ⟨captures, hcaptures⟩ := Definition.captures_of_isMatch hmatch
      simp [compileClause, Table.fragment, hcaptures]
    | false =>
      have hskip : ∀ others, compileClause (d :: others) host settings clause =
          compileClause others host settings clause := by
        intro others
        rw [compileClause, Table.fragment, Definition.captures_of_not_isMatch htable.1 hmatch]
        rfl
      rw [hskip, hskip, ih htable.2, Bool.false_or]

theorem compileClause_cons (hd : ∃ m, d.matcher host.read? = .ok m) (rest : Table) :
    compileClause (d :: rest) host settings clause =
      if d.isMatch host.read? clause then compileClause [d] host settings clause
      else rest.compileClause host settings clause := by
  have happend :=
    compileClause_append settings clause (List.forall_mem_singleton.mpr hd) rest
  rwa [List.singleton_append, List.any_cons, List.any_nil, Bool.or_false] at happend

theorem insertBefore_eq (table : Table) (id : String) (d : Definition) :
    table.insertBefore id d =
      table.takeWhile (fun e => e.id != id) ++ d :: table.dropWhile (fun e => e.id != id) := by
  induction table with
  | nil => rfl
  | cons e rest ih =>
    rw [insertBefore]
    by_cases he : e.id = id
    · simp [he]
    · simp [he, ih]

theorem compileClause_insertBefore (htable : ∀ e ∈ table, ∃ m, e.matcher host.read? = .ok m)
    (hd : ∃ m, d.matcher host.read? = .ok m) (id : String) :
    (table.insertBefore id d).compileClause host settings clause =
      if (table.takeWhile fun e => e.id != id).any (·.isMatch host.read? clause) then
        table.compileClause host settings clause
      else if d.isMatch host.read? clause then compileClause [d] host settings clause
      else table.compileClause host settings clause := by
  have hbefore : ∀ e ∈ table.takeWhile fun e => e.id != id, ∃ m, e.matcher host.read? = .ok m :=
    fun e he => htable e ((List.takeWhile_sublist _).subset he)
  -- the table is cut at the same place, with or without the definition
  have hold :=
    compileClause_append settings clause hbefore (table.dropWhile fun e => e.id != id)
  rw [List.takeWhile_append_dropWhile] at hold
  rw [insertBefore_eq, compileClause_append settings clause hbefore,
    compileClause_cons settings clause hd, hold]
  split <;> rfl

variable {settings clause} in
theorem compileClause_fault {before : Table} (after : Table) {captures : Captures} {fault : Error}
    (hbefore : ∀ e ∈ before, e.captures host.read? clause = .ok none)
    (hd : d.captures host.read? clause = .ok (some captures))
    (hfault : d.build host (d.operands settings.toPreferences clause captures) settings =
      .error fault) :
    compileClause (before ++ d :: after) host settings clause =
      if !settings.throwOnError && fault.isSuppressible then .ok .empty else .error fault := by
  rw [compileClause, fragment_append _ _ hbefore, Table.fragment, hd]
  dsimp only
  rw [Definition.fragment, hfault]
  rfl

end
end Table

/-- A definition is tried where it is put. Pushed to the end of a table it compiles the clauses that
nothing else matches; prepended it compiles all that it matches; inserted it compiles those of them
that no definition before its place matches. All other clauses are compiled as before. If the
definition that compiles a clause fails to build a fragment, none of the later ones is tried. -/
theorem compileClause_extended (host : Host) (table : Table) (d : Definition)
    (htable : table.check host.read? = .ok ()) (hd : ∃ m, d.matcher host.read? = .ok m)
    (settings : Settings) (clause : String) :
    (table.push d).compileClause host settings clause =
      (if table.any (·.isMatch host.read? clause) then table.compileClause host settings clause
        else Table.compileClause [d] host settings clause) ∧
    (table.prepend d).compileClause host settings clause =
      (if d.isMatch host.read? clause then Table.compileClause [d] host settings clause
        else table.compileClause host settings clause) ∧
    (∀ id, (table.insertBefore id d).compileClause host settings clause =
      if (table.takeWhile fun e => e.id != id).any (·.isMatch host.read? clause) then
        table.compileClause host settings clause
      else if d.isMatch host.read? clause then Table.compileClause [d] host settings clause
      else table.compileClause host settings clause) ∧
    ∀ (before after : Table) (chosen : Definition) (captures : Captures) (fault : Error),
      (∀ e ∈ before, e.captures host.read? clause = .ok none) →
      chosen.captures host.read? clause = .ok (some captures) →
      chosen.build host (chosen.operands settings.toPreferences clause captures) settings =
        .error fault →
      Table.compileClause (before ++ chosen :: after) host settings clause =
        if !settings.throwOnError && fault.isSuppressible then .ok .empty else .error fault := by
  have hmatchers := Table.check_eq_ok_iff.mp htable
  refine ⟨?_, ?_, fun id => ?_, fun before after chosen captures fault => ?_⟩
  · exact Table.compileClause_append settings clause hmatchers [d]
  · exact Table.compileClause_cons settings clause hd table
  · exact Table.compileClause_insertBefore settings clause hmatchers hd id
  · exact Table.compileClause_fault after

/-- A comparison that is inserted before two others of one id fails on its operand, where an
assignment further down would not. Put after them it is not tried, and the first of them fails on its
own. -/
theorem compileClause_extended_fault :
    let host : Host := .basic fun _ _ _ => .ok []
    let table : Table :=
      [.unary "?" .present, .binary ">" .above, .binary "=" .equal, .binary ">" .below]
    table.check host.read? = .ok () ∧
    (Definition.binary ">=" .atLeast).matcher host.read? =
      .ok (Definition.betweenPattern ">=").match? ∧
    (table.insertBefore ">" (.binary ">=" .atLeast)).compileClause host {} "a>=x" =
      .error (.operand "a>=x" (.notNumber "x")) ∧
    (table.push (.binary ">=" .atLeast)).compileClause host {} "a>=x" =
      .error (.operand "a>=x" (.notNumber "=x")) ∧
    (table.insertBefore ">" (.binary ">=" .atLeast)).compileClause host {} "a=x" =
      .ok ⟨[("a", .string "x")], none⟩ := by
  intro host table
  have htable : table.check host.read? = .ok () := rfl
  have hd : (Definition.binary ">=" .atLeast).matcher host.read? =
      .ok (Definition.betweenPattern ">=").match? :=
    Definition.matcher_of_parse? (Definition.parse?_source_between rfl)
  have hbefore : (table.takeWhile fun e => e.id != ">") = [.unary "?" .present] := by
    simp [table, Definition.unary, Definition.binary]
  have hextended := compileClause_extended host table (.binary ">=" .atLeast) htable ⟨_, hd⟩ {}
  refine ⟨htable, hd, ?_, ?_, ?_⟩
  · rw [(hextended "a>=x").2.2.1, hbefore]
    rfl
  · rw [(hextended "a>=x").1]
    rfl
  · rw [(hextended "a=x").2.2.1, hbefore]
    rfl

end FilterQuery
