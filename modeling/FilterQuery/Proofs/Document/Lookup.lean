import FilterQuery.Proofs.Document.Flatten
import Mathlib.Data.Prod.Basic

/-! Looking up paths in documents and in their flat forms. Main statement: the flat form has just those
paths as keys that lead to a leaf without going through an operator document, and it is flat itself. -/
namespace FilterQuery

/-! ### Following a path -/

namespace Document

@[simp] theorem follow?_empty (path : List String) : follow? [] path = none := by
  cases path with
  | nil => rfl
  | cons key rest => cases rest <;> rfl

theorem follow?_append {doc nested : Document} {front path : List String}
    (h : doc.follow? front = some (.object nested)) (hne : path ≠ []) :
    doc.follow? (front ++ path) = nested.follow? path := by
  induction front generalizing doc with
  | nil => cases h
  | cons key front ih =>
    by_cases hfront : front = []
    · subst hfront
      exact follow?_object h hne
    · obtain ⟨inner, hget, hinner⟩ := exists_object_of_follow? hfront h
      have hlong : front ++ path ≠ [] := by simp [hfront]
      rw [List.cons_append, follow?_object hget hlong, ih hinner]

end Document

/-! ### Texts of paths -/

theorem exists_segments_eq {front : List String} {key : String} (hne : front ≠ [])
    (h : front <+: segments key) : ∃ path, segments path = front := by
  refine ⟨String.ofList (['.'].intercalate (front.map String.toList)), ?_⟩
  have hdots : ∀ part ∈ front.map String.toList, '.' ∉ part := by
    rw [List.forall_mem_map]
    exact fun segment hsegment => dot_not_mem_of_mem_segments (h.subset hsegment)
  rw [segments, String.toList_ofList, List.splitOn_intercalate '.' hdots (by simpa using hne),
    List.map_map]
  exact (List.map_congr_left fun _ _ => String.ofList_toList).trans (List.map_id front)

namespace Document

theorem passes_isBranch_iff {doc : Document} {key : String} {value : Value}
    (h : doc.getPath? key = some value) :
    doc.Passes isBranch (segments key) ↔
      ∀ path, segments path <+: segments key → path ≠ key →
        ∀ nested : Document, doc.getPath? path = some (.object nested) →
          nested.isOperator = false := by
  constructor
  · intro hpasses path hprefix hne nested hget
    have hbranch := hpasses _ hprefix (segments_injective.ne hne) nested hget
    rw [isBranch, Bool.and_eq_true] at hbranch
    simpa using hbranch.2
  · intro hno front hprefix hne nested hfollow
    have hfront : front ≠ [] := by
      rintro rfl
      cases hfollow
    obtain ⟨path, rfl⟩ := exists_segments_eq hfront hprefix
    have hoperator := hno path hprefix (fun heq => hne (congrArg segments heq)) nested hfollow
    obtain ⟨rest, hrest⟩ := hprefix
    have hbelow : rest ≠ [] := by
      rintro rfl
      exact hne (by simpa using hrest)
    -- nothing is empty on the way to a value, so that only operators can stop the flattening
    have hnested : nested ≠ [] := by
      rintro rfl
      rw [getPath?, ← hrest, follow?_append hfollow hbelow, follow?_empty] at h
      cases h
    simp [isBranch, hoperator, hnested]

theorem get?_flatten_eq_some_iff {doc : Document} (hw : doc.WellFormed) (h : doc.DotFree) {key : String}
    {value : Value} :
    doc.flatten.get? key = some value ↔ (segments key, value) ∈ entryPathLeaves isBranch doc := by
  have hinjective : Function.Injective (Prod.map segments (id : Value → Value)) :=
    segments_injective.prodMap Function.injective_id
  have hmem : (segments key, value) ∈ entryPathLeaves isBranch doc ↔ (key, value) ∈ doc.flatten := by
    rw [← map_segments_leaves h, flatten_eq_entryLeaves hw h]
    exact List.mem_map_of_injective (a := (key, value)) hinjective
  rw [hmem]
  exact ⟨get?_mem, get?_of_mem (nodup_ofEntries _)⟩

end Document

/-! ### Flat forms are flat -/

theorem entryLeaves_isLeaf {entries : List (String × Value)}
    (h : ∀ entry ∈ entries, ∀ path, ∀ leaf ∈ entry.2.leaves path, leaf.2.IsLeaf Document.isBranch)
    (above : Option String) :
    ∀ leaf ∈ entryLeaves above entries, leaf.2.IsLeaf Document.isBranch := by
  intro leaf hleaf
  rw [entryLeaves_eq_flatMap] at hleaf
  obtain ⟨entry, hentry, hmem⟩ := List.mem_flatMap.mp hleaf
  exact h entry hentry _ leaf hmem

theorem Value.leaves_isLeaf (value : Value) (path : String) :
    ∀ leaf ∈ value.leaves path, leaf.2.IsLeaf Document.isBranch := by
  induction value using Value.inductEntered Document.isBranch generalizing path with
  | leaf value hv =>
    rw [leaves_of_isLeaf hv]
    simpa using hv
  | object nested hn ih =>
    rw [leaves_object hn]
    exact entryLeaves_isLeaf ih (some path)

theorem entryLeaves_of_isLeaf {entries : List (String × Value)}
    (h : ∀ entry ∈ entries, entry.2.IsLeaf Document.isBranch) :
    entryLeaves none entries = entries := by
  have hone : ∀ entry ∈ entries, entry.2.leaves (Document.joinPath none entry.1) = [entry] :=
    fun entry hentry => Value.leaves_of_isLeaf (h entry hentry) entry.1
  rw [entryLeaves_eq_flatMap, List.flatMap_congr hone]
  exact List.flatMap_singleton' entries

theorem Document.flatten_of_isLeaf {doc : Document} (hkeys : doc.keys.Nodup)
    (h : ∀ entry ∈ doc, entry.2.IsLeaf isBranch) : doc.flatten = doc := by
  rw [flatten, entryLeaves_of_isLeaf h, ofEntries_of_nodup hkeys]

/-- A key of the flat form has a value just if it leads to this value as a path, the value is no object
or has no entries or operators, and the path goes through no operator document. This needs keys without
dots where flattening goes. Flattening a second time changes nothing, whatever the keys are. -/
theorem get?_flatten (doc : Document) :
    (doc.WellFormed → doc.DotFree → ∀ key value,
      doc.flatten.get? key = some value ↔
        doc.getPath? key = some value ∧
        (∀ nested : Document, value = .object nested → nested = [] ∨ nested.isOperator = true) ∧
        ∀ path, segments path <+: segments key → path ≠ key →
          ∀ nested : Document, doc.getPath? path = some (.object nested) →
            nested.isOperator = false) ∧
    doc.flatten.flatten = doc.flatten := by
  constructor
  · intro hw hdots key value
    have hleaf : value.IsLeaf Document.isBranch ↔
        ∀ nested : Document, value = .object nested → nested = [] ∨ nested.isOperator = true := by
      simp [Value.IsLeaf, Document.isBranch, imp_iff_not_or]
    rw [Document.get?_flatten_eq_some_iff hw hdots, hw.mem_pathLeaves_iff, ← hleaf]
    refine and_congr_right fun hfollow => and_congr_right fun _ => ?_
    exact Document.passes_isBranch_iff hfollow
  · have hleaves : ∀ leaf ∈ entryLeaves none doc, leaf.2.IsLeaf Document.isBranch :=
      entryLeaves_isLeaf (fun entry _ => entry.2.leaves_isLeaf) none
    exact Document.flatten_of_isLeaf (Document.nodup_ofEntries _)
      (Document.forall_mem_ofEntries hleaves)

theorem get?_flatten_operators :
    let doc : Document :=
      [("", .object [("", .null)]),
        ("a", .object [("", .object []), ("c", .object [("$gt", .object [("d.e", .null)])])])]
    doc.WellFormed ∧ doc.DotFree ∧
    (doc.flatten.get? "a." = some (.object []) ∧ doc.getPath? "a." = some (.object [])) ∧
    doc.getPath? "a.c.$gt" = some (.object [("d.e", .null)]) ∧
    doc.flatten.get? "a.c.$gt" ≠ some (.object [("d.e", .null)]) ∧
    doc.flatten.flatten = doc.flatten := by
  intro doc
  have hw : doc.WellFormed := by
    simp [doc, Document.WellFormed, Value.WellFormed, entriesWellFormed]
  have hdots : doc.DotFree := by
    simp [doc, Document.DotFree, Value.DotFree, entriesDotFree, Document.isBranch,
      Document.isOperator]
  obtain ⟨hkeys, hflat⟩ := get?_flatten doc
  have hleaf : doc.flatten.get? "a." = some (.object []) := by rfl
  refine ⟨hw, hdots, ⟨hleaf, ((hkeys hw hdots _ _).mp hleaf).1⟩, rfl, fun hoperator => ?_, hflat⟩
  have hthrough : segments "a.c" <+: segments "a.c.$gt" := ⟨["$gt"], rfl⟩
  have hno := ((hkeys hw hdots _ _).mp hoperator).2.2 "a.c" hthrough (by decide)
    [("$gt", .object [("d.e", .null)])] rfl
  cases hno

end FilterQuery
