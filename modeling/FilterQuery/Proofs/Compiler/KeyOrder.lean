import FilterQuery.Proofs.Compiler.Overlay

/-! The keys on the top level of a document and their order. Main statement: merging keeps the keys that
are there in their places, and adds the new ones at the end in the order in which they come up. -/
namespace FilterQuery

/-- The key on the top level under which an entry of a fragment is written. -/
def Strategy.head : Strategy → String → String
  | .dotted, key => String.ofList (key.toList.takeWhile (· ≠ '.'))
  | .literal, key => key

def heads (parts : List (Strategy × Document)) : List String :=
  parts.flatMap fun part => part.2.keys.map part.1.head

theorem segments_eq_cons (key : String) :
    ∃ rest, segments key = String.ofList (key.toList.takeWhile (· ≠ '.')) :: rest := by
  by_cases hdot : '.' ∈ key.toList
  · obtain ⟨a, b, hkey, ha⟩ := List.eq_append_cons_of_mem hdot
    have hfirst : key.toList.takeWhile (· ≠ '.') = a := by
      rw [hkey, List.takeWhile_append_of_pos (by simpa using fun c hc => ne_of_mem_of_not_mem hc ha)]
      simp
    rw [segments, hfirst, hkey, List.splitOn_append_cons_self_of_not_mem ha]
    exact ⟨_, rfl⟩
  · have hfirst : key.toList.takeWhile (· ≠ '.') = key.toList := by
      simpa using fun c hc => ne_of_mem_of_not_mem hc hdot
    rw [segments_of_no_dot hdot, hfirst, String.ofList_toList]
    exact ⟨[], rfl⟩

theorem Strategy.path_eq_cons (strategy : Strategy) (key : String) :
    ∃ rest, strategy.path key = strategy.head key :: rest := by
  cases strategy with
  | dotted => exact segments_eq_cons key
  | literal => exact ⟨[], rfl⟩

/-! ### Adding keys -/

/-- Known keys, and after them the new ones, each where it comes up first. -/
def addKeys (known new : List String) : List String :=
  known ++ (new.filter (· ∉ known)).eraseDups

theorem addKeys_cons (known : List String) (key : String) (rest : List String) :
    addKeys known (key :: rest) =
      addKeys (if key ∈ known then known else known ++ [key]) rest := by
  by_cases hkey : key ∈ known
  · simp [addKeys, hkey]
  · have hfilter : (rest.filter (· ∉ known)).filter (fun other => !other == key) =
        rest.filter (· ∉ known ++ [key]) := by
      rw [List.filter_filter]
      refine List.filter_congr fun other _ => ?_
      rw [Bool.eq_iff_iff]
      simp [and_comm]
    rw [if_neg hkey, addKeys, addKeys, List.filter_cons_of_pos (by simpa using hkey),
      List.eraseDups_cons, hfilter, List.append_assoc, List.singleton_append]

theorem addKeys_append (known a b : List String) :
    addKeys known (a ++ b) = addKeys (addKeys known a) b := by
  induction a generalizing known with
  | nil => simp [addKeys]
  | cons key a ih => rw [List.cons_append, addKeys_cons, addKeys_cons, ih]

namespace Document

theorem keys_setPath (doc : Document) (strategy : Strategy) (key : String) (value : Value) :
    (doc.setPath (strategy.path key) value).keys =
      if strategy.head key ∈ doc.keys then doc.keys else doc.keys ++ [strategy.head key] := by
  obtain ⟨rest, hpath⟩ := strategy.path_eq_cons key
  rw [hpath, setPath_cons, keys_update]

theorem keys_merge (doc : Document) (strategy : Strategy) (fragment : Document) :
    (doc.merge strategy fragment).keys = addKeys doc.keys (fragment.keys.map strategy.head) := by
  rw [merge_eq_foldl]
  induction fragment generalizing doc with
  | nil => simp [addKeys]
  | cons entry rest ih =>
    rw [List.foldl_cons, ih, keys_setPath, keys_cons, List.map_cons, addKeys_cons]

theorem keys_mergeAll (doc : Document) (parts : List (Strategy × Document)) :
    (doc.mergeAll parts).keys = addKeys doc.keys (heads parts) := by
  induction parts generalizing doc with
  | nil => simp [mergeAll, heads, addKeys]
  | cons part rest ih =>
    have hstep := ih (doc.merge part.1 part.2)
    rw [keys_merge, ← addKeys_append] at hstep
    exact hstep

theorem eq_nil_of_mergeAll_eq_nil {parts : List (Strategy × Document)}
    (h : mergeAll [] parts = []) : ∀ part ∈ parts, part.2 = [] := by
  have hkeys := keys_mergeAll [] parts
  rw [h] at hkeys
  have hheads : heads parts = [] := by
    cases hhead : heads parts with
    | nil => rfl
    | cons key rest =>
      rw [hhead, addKeys_cons] at hkeys
      simp [addKeys] at hkeys
  intro part hpart
  have hnone := List.flatMap_eq_nil_iff.mp hheads part hpart
  simpa [keys] using hnone

end Document

namespace Compiler

/-- The fragments that a compilation merges, in order. An overlay after other inputs changes the
settings under which they arise. -/
def merged (c : Compiler) (inputs : List Input) : List (Strategy × Document) :=
  match inputs.getLast? with
  | some (.overlay overlay) =>
    if 1 < inputs.length then
      match build c.host (c.settings.withOverlay overlay) c.forValues with
      | .ok overlaid => Item.parts (overlaid.items inputs.dropLast)
      | .error _ => []
    else
      Item.parts (c.items inputs)
  | _ => Item.parts (c.items inputs)

theorem eq_mergeAll_of_compile {c : Compiler} {inputs : List Input} {doc : Document}
    (h : c.compile inputs = .ok doc) : doc = Document.mergeAll [] (c.merged inputs) := by
  rw [compile] at h
  rw [merged]
  cases hlast : inputs.getLast? with
  | none =>
    rw [hlast] at h
    exact eq_mergeAll_of_run h
  | some last =>
    rw [hlast] at h
    cases last with
    | overlay overlay =>
      dsimp only at h ⊢
      by_cases hlength : 1 < inputs.length
      · rw [if_pos hlength] at h ⊢
        obtain ⟨overlaid, hbuild, hrun⟩ := exists_of_bind_eq_ok h
        rw [hbuild]
        exact eq_mergeAll_of_run hrun
      · rw [if_neg hlength] at h ⊢
        exact eq_mergeAll_of_run h
    | _ => exact eq_mergeAll_of_run h

end Compiler

/-- Merges into a document leave its keys where they are, and behind them stand the keys that come up
anew, each once and in the order in which they come up: the first segment of a dotted key, and all of a
literal one. So nothing that has been merged is lost: what a compilation gives is the merge of its
fragments, and it is empty only if all of them are. -/
theorem mergeAll_keeps_keys (doc : Document) (parts : List (Strategy × Document)) :
    (doc.mergeAll parts).keys =
      doc.keys ++ ((heads parts).filter (· ∉ doc.keys)).eraseDups ∧
    ∀ (c : Compiler) (inputs : List Input) (result : Document), c.compile inputs = .ok result →
      result = Document.mergeAll [] (c.merged inputs) ∧
      (result = [] → ∀ part ∈ c.merged inputs, part.2 = []) := by
  refine ⟨doc.keys_mergeAll parts, fun c inputs result h => ?_⟩
  have hmerge := Compiler.eq_mergeAll_of_compile h
  exact ⟨hmerge, fun hempty => Document.eq_nil_of_mergeAll_eq_nil (hmerge.symm.trans hempty)⟩

theorem mergeAll_keeps_keys_mixed :
    let doc : Document := [("b", .null), ("a.x", .null)]
    let parts : List (Strategy × Document) :=
      [(.dotted, [("a.x", .null), ("b.c", .null)]), (.literal, [("c.d", .null), ("a.x", .object [])]),
        (.dotted, [("c.d", .null), ("a", .null)])]
    let c := Compiler.standard fun _ _ _ => .ok []
    let inputs : List Input := [.document [], .text "?", .overlay .lenient]
    (doc.mergeAll parts).keys = ["b", "a.x", "a", "c.d", "c"] ∧
    c.compile inputs = .ok [] ∧ c.merged inputs = [(.dotted, [])] ∧
    ∀ part ∈ c.merged inputs, part.2 = [] := by
  intro doc parts c inputs
  let lenient := Compiler.braced (fun _ _ _ => .ok []) { throwOnError := false } false
  have hbuild : Compiler.build c.host (c.settings.withOverlay .lenient) c.forValues = .ok lenient :=
    Compiler.build_eq_braced rfl (List.Subset.refl _) rfl false
  have hitems : lenient.items [.document [], .text "?"] =
      [.ok (.dotted, []), .error (.unrecognizedClause "?")] := by
    have hclause : lenient.clauseItem "?" = .error (.unrecognizedClause "?") :=
      (Compiler.clauseItem_eq_filter _ _ _).trans rfl
    rw [← hclause]
    rfl
  have hmerged : c.merged inputs = [(.dotted, [])] := by
    simp only [Compiler.merged, inputs, List.getLast?_cons_cons, List.getLast?_singleton,
      List.dropLast, hbuild, hitems]
    rfl
  have hcompile : c.compile inputs = .ok [] := by
    have hoverlaid := c.compile_append_overlay (List.cons_ne_nil (.document []) [.text "?"]) .lenient
    rw [hbuild] at hoverlaid
    refine hoverlaid.trans ?_
    rw [Except.bind, lenient.run_eq_outcome, hitems]
    rfl
  obtain ⟨hkeys, hcompiled⟩ := mergeAll_keeps_keys doc parts
  exact ⟨hkeys, hcompile, hmerged, (hcompiled _ inputs [] hcompile).2 rfl⟩

end FilterQuery
