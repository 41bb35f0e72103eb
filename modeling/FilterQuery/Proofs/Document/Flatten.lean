import FilterQuery.Proofs.Document.Leaves

/-! Flat forms of nested documents. Main statement: merging the flat form of a document gives the
document back, if flattening passes no key with a dot in it. -/
namespace FilterQuery

/-! ### Segments -/

theorem segments_append (path key : String) :
    segments (path ++ "." ++ key) = segments path ++ segments key := by
  have hdot : ".".toList = ['.'] := by decide
  simp only [segments, String.toList_append, hdot, List.append_assoc, List.singleton_append,
    List.splitOn_append_cons_self, List.map_append]

theorem segments_injective : Function.Injective segments := by
  intro a b h
  have hsplit : a.toList.splitOn '.' = b.toList.splitOn '.' :=
    (List.map_injective_iff.mpr fun _ _ => String.ofList_injective) h
  have hlist : a.toList = b.toList := by
    rw [← a.toList.intercalate_splitOn '.', hsplit, List.intercalate_splitOn]
  exact String.toList_inj.mp hlist

theorem not_mem_of_mem_splitOn {c : Char} {chars part : List Char}
    (h : part ∈ chars.splitOn c) : c ∉ part := by
  induction chars generalizing part with
  | nil => simp_all
  | cons d rest ih =>
    rw [List.splitOn_cons_eq_if_modifyHead] at h
    obtain ⟨first, others, hsplit⟩ := List.exists_cons_of_ne_nil (List.splitOn_ne_nil c rest)
    rw [hsplit] at h ih
    by_cases hd : d = c
    · obtain rfl | hpart : part = [] ∨ part ∈ first :: others := by simpa [hd] using h
      · exact List.not_mem_nil
      · exact ih hpart
    · obtain rfl | hpart : part = d :: first ∨ part ∈ others := by simpa [hd] using h
      · simpa [Ne.symm hd] using ih List.mem_cons_self
      · exact ih (List.mem_cons_of_mem _ hpart)

theorem dot_not_mem_of_mem_segments {path key : String} (h : key ∈ segments path) :
    '.' ∉ key.toList := by
  obtain ⟨part, hpart, rfl⟩ := List.mem_map.mp h
  rw [String.toList_ofList]
  exact not_mem_of_mem_splitOn hpart

theorem segments_joinPath (above : Option String) {key : String} (h : '.' ∉ key.toList) :
    segments (Document.joinPath above key) = above.elim [] segments ++ [key] := by
  cases above with
  | none => exact segments_of_no_dot h
  | some path => rw [Document.joinPath, segments_append, segments_of_no_dot h]; rfl

/-! ### Keys without dots -/

mutual

def Value.DotFree : Value → Prop
  | .object nested => Document.isBranch nested = true → entriesDotFree nested
  | _ => True

def entriesDotFree : List (String × Value) → Prop
  | [] => True
  | (key, value) :: rest => '.' ∉ key.toList ∧ value.DotFree ∧ entriesDotFree rest

end

/-- No key has a dot in it where flattening goes: at the top, and in every object with entries and
without operators that it reaches through such objects. -/
def Document.DotFree (doc : Document) : Prop :=
  entriesDotFree doc

theorem entriesDotFree_iff (entries : List (String × Value)) :
    entriesDotFree entries ↔ ∀ entry ∈ entries, '.' ∉ entry.1.toList ∧ entry.2.DotFree := by
  induction entries with
  | nil => simp [entriesDotFree]
  | cons entry rest ih => simp [entriesDotFree, ih, and_assoc]

theorem Document.isBranch_iff (doc : Document) :
    doc.isBranch = true ↔ doc ≠ [] ∧ ∀ key ∈ doc.keys, key.toList.head? ≠ some '$' := by
  simp [isBranch, isOperator, keys]

theorem Document.ne_nil_of_isBranch (doc : Document) (h : doc.isBranch = true) : doc ≠ [] :=
  (doc.isBranch_iff.mp h).1

theorem Value.leaves_of_isLeaf {value : Value} (h : value.IsLeaf Document.isBranch)
    (path : String) : value.leaves path = [(path, value)] := by
  cases value with
  | object nested => simp [leaves, h nested rfl]
  | _ => rfl

theorem Value.leaves_object {nested : Document} (h : nested.isBranch = true) (path : String) :
    (Value.object nested).leaves path = entryLeaves (some path) nested := by
  rw [leaves, if_pos h]

theorem Value.dotFree_of_isLeaf {value : Value} (h : value.IsLeaf Document.isBranch) :
    value.DotFree := by
  cases value with
  | object nested => simp [DotFree, h nested rfl]
  | _ => trivial

theorem entriesDotFree_of_pathLeaves {entries : List (String × Value)}
    (ih : ∀ entry ∈ entries, (∀ leaf ∈ entry.2.pathLeaves Document.isBranch,
      ∀ key ∈ leaf.1, '.' ∉ key.toList) → entry.2.DotFree)
    (h : ∀ leaf ∈ entryPathLeaves Document.isBranch entries, ∀ key ∈ leaf.1, '.' ∉ key.toList) :
    entriesDotFree entries := by
  refine (entriesDotFree_iff entries).mpr fun entry hentry => ?_
  have hbelow : ∀ inner ∈ entry.2.pathLeaves Document.isBranch,
      ∀ key ∈ entry.1 :: inner.1, '.' ∉ key.toList := fun inner hinner =>
    h (entry.1 :: inner.1, inner.2) (mem_entryPathLeaves.mpr ⟨entry, hentry, inner, hinner, rfl⟩)
  obtain ⟨inner, hinner⟩ := entry.2.exists_mem_pathLeaves Document.ne_nil_of_isBranch
  refine ⟨hbelow inner hinner _ List.mem_cons_self, ih entry hentry fun leaf hleaf key hkey => ?_⟩
  exact hbelow leaf hleaf key (List.mem_cons_of_mem _ hkey)

theorem Document.dotFree_of_pathLeaves {doc : Document}
    (h : ∀ leaf ∈ entryPathLeaves Document.isBranch doc, ∀ key ∈ leaf.1, '.' ∉ key.toList) :
    doc.DotFree := by
  refine entriesDotFree_of_pathLeaves (fun entry _ => ?_) h
  induction entry.2 using Value.inductEntered Document.isBranch with
  | leaf value hv => exact fun _ => Value.dotFree_of_isLeaf hv
  | object nested hn ih =>
    intro hleaves _
    rw [Value.pathLeaves_object hn] at hleaves
    exact entriesDotFree_of_pathLeaves ih hleaves

/-! ### The flat form has the paths of the leaves as keys -/

theorem entryLeaves_eq_flatMap (above : Option String) (entries : List (String × Value)) :
    entryLeaves above entries =
      entries.flatMap fun entry => entry.2.leaves (Document.joinPath above entry.1) := by
  induction entries with
  | nil => rfl
  | cons entry rest ih => rw [entryLeaves, ih, List.flatMap_cons]

theorem map_segments_entryLeaves {entries : List (String × Value)} (hdots : entriesDotFree entries)
    (ih : ∀ entry ∈ entries, entry.2.DotFree → ∀ path,
      (entry.2.leaves path).map (Prod.map segments id) =
        (entry.2.pathLeaves Document.isBranch).map (Prod.map (segments path ++ ·) id))
    (above : Option String) :
    (entryLeaves above entries).map (Prod.map segments id) =
      (entryPathLeaves Document.isBranch entries).map
        (Prod.map (above.elim [] segments ++ ·) id) := by
  rw [entryLeaves_eq_flatMap, entryPathLeaves_eq_flatMap, List.map_flatMap, List.map_flatMap]
  refine List.flatMap_congr fun entry hentry => ?_
  obtain ⟨hkey, hvalue⟩ := (entriesDotFree_iff entries).mp hdots entry hentry
  rw [ih entry hentry hvalue, segments_joinPath above hkey, List.map_map]
  refine List.map_congr_left fun leaf _ => ?_
  simp [Prod.map]

theorem Value.map_segments_leaves {value : Value} (h : value.DotFree) (path : String) :
    (value.leaves path).map (Prod.map segments id) =
      (value.pathLeaves Document.isBranch).map (Prod.map (segments path ++ ·) id) := by
  induction value using Value.inductEntered Document.isBranch generalizing path with
  | leaf value hv => simp [leaves_of_isLeaf hv, pathLeaves_of_isLeaf hv]
  | object nested hn ih =>
    rw [leaves_object hn, pathLeaves_object hn]
    exact map_segments_entryLeaves (h hn) ih (some path)

/-- Without dots in keys, the keys of the flat form have the paths to leaves as their segments. -/
theorem Document.map_segments_leaves {doc : Document} (h : doc.DotFree) :
    (entryLeaves none doc).map (Prod.map segments id) = entryPathLeaves isBranch doc := by
  have hpaths := map_segments_entryLeaves h (fun _ _ => Value.map_segments_leaves) none
  exact hpaths.trans (List.map_id _)

theorem Document.flatten_eq_entryLeaves {doc : Document} (hw : doc.WellFormed) (h : doc.DotFree) :
    doc.flatten = entryLeaves none doc := by
  have hpaths : ((entryPathLeaves isBranch doc).map Prod.fst).Nodup := hw.nodup_pathLeaves
  rw [← map_segments_leaves h, List.map_map] at hpaths
  have hkeys : ((keys (entryLeaves none doc)).map segments).Nodup := by
    rw [keys, List.map_map]
    exact hpaths
  exact ofEntries_of_nodup hkeys.of_map

theorem Document.flatten_wellFormed {doc : Document} (hw : doc.WellFormed) (h : doc.DotFree) :
    ∀ entry ∈ doc.flatten, entry.2.WellFormed := by
  intro entry hentry
  rw [flatten_eq_entryLeaves hw h] at hentry
  have hleaf : (segments entry.1, entry.2) ∈ entryPathLeaves isBranch doc := by
    rw [← map_segments_leaves h]
    exact List.mem_map_of_mem hentry
  exact hw.of_mem_pathLeaves _ hleaf

/-! ### Merging a flat form -/

theorem Document.writes_flatten {doc : Document} (hw : doc.WellFormed) (h : doc.DotFree) :
    Strategy.dotted.writes doc.flatten =
      (entryPathLeaves isBranch doc).flatMap fun leaf => leaf.2.writes leaf.1 := by
  rw [flatten_eq_entryLeaves hw h, ← map_segments_leaves h, List.flatMap_map]
  rfl

theorem Document.replay_writes_flatten {doc : Document} (hw : doc.WellFormed) (h : doc.DotFree) :
    replay (Strategy.dotted.writes doc.flatten) = replay (Strategy.literal.writes doc) := by
  have hentries := replay_entryPathLeaves doc
    (fun entry _ => entry.2.replay_pathLeaves ne_nil_of_isBranch) []
  rw [entryWrites_eq_flatMap] at hentries
  rw [writes_flatten hw h]
  exact hentries

theorem Document.merge_nil_literal {doc : Document} (h : doc.WellFormed) :
    Document.merge [] .literal doc = doc :=
  mergeEntries_of_disjoint h.1 fun _ _ => List.not_mem_nil

/-- Merging the flat form of a document gives the document back, the order of keys included. -/
theorem merge_flatten (doc : Document) (hw : doc.WellFormed) (h : doc.DotFree) :
    Document.merge [] .dotted doc.flatten = doc := by
  have hdotted := Document.replay_merge [] .dotted doc.flatten (Document.flatten_wellFormed hw h)
  have hliteral := Document.replay_merge [] .literal doc ((Document.wellFormed_iff doc).mp hw).2
  rw [Document.replay_writes_flatten hw h, hliteral, Document.merge_nil_literal hw] at hdotted
  simpa using hdotted.symm

theorem merge_flatten_operators :
    let doc : Document :=
      [("", .object [("", .undefined), ("x", .object [])]), ("$or", .object [("a", .null)]),
        ("n", .object [("$gt", .null), ("a.b", .object [("c.d", .bool true)])]),
        ("t", .array [.object [("e.f", .null)]])]
    doc.WellFormed ∧ doc.DotFree ∧
    doc.flatten =
      [(".", .undefined), (".x", .object []), ("$or.a", .null),
        ("n", .object [("$gt", .null), ("a.b", .object [("c.d", .bool true)])]),
        ("t", .array [.object [("e.f", .null)]])] ∧
    Document.merge [] .dotted doc.flatten = doc := by
  intro doc
  have hw : doc.WellFormed := by
    simp [doc, Document.WellFormed, Value.WellFormed, entriesWellFormed, itemsWellFormed]
  have h : doc.DotFree := by
    simp [doc, Document.DotFree, Value.DotFree, entriesDotFree, Document.isBranch,
      Document.isOperator]
  exact ⟨hw, h, rfl, merge_flatten doc hw h⟩

end FilterQuery
