import FilterQuery.Proofs.Document.Flatten
import Mathlib.Data.List.Perm.Basic
import Mathlib.Data.Prod.Basic

/-! Expanding flat documents. Main statement: a dotted merge into nothing is undone by flattening, if
no key leads through the end of another and only leaves hold operators. -/
namespace FilterQuery

/-- The keys are paths that can stand side by side, and each leads to a leaf. -/
structure Document.IsFlat (doc : Document) : Prop where
  /-- No path leads through the end of another. -/
  apart : ∀ a ∈ doc, ∀ b ∈ doc, a.1 ≠ b.1 → ¬ segments a.1 <+: segments b.1
  /-- Only the first key of a path can be an operator. -/
  fields : ∀ entry ∈ doc, ∀ key ∈ (segments entry.1).tail, key.toList.head? ≠ some '$'
  /-- Objects are empty or hold operators. -/
  leaves : ∀ entry ∈ doc, ∀ nested : Document, entry.2 = .object nested →
    nested = [] ∨ nested.isOperator = true

/-! ### One write -/

def placeLeaves (place : Option Value) : List (List String × Value) :=
  place.elim [] (Value.pathLeaves Document.isBranch)

theorem Document.incomparable_placeLeaves {doc : Document} {key : String} {rest : List String}
    (h : ∀ leaf ∈ entryPathLeaves isBranch doc, Incomparable leaf.1 (key :: rest)) :
    ∀ leaf ∈ placeLeaves (doc.get? key), Incomparable leaf.1 rest := by
  intro leaf hleaf
  cases hget : doc.get? key with
  | none =>
    rw [hget] at hleaf
    cases hleaf
  | some value =>
    rw [hget] at hleaf
    have hmem : (key :: leaf.1, leaf.2) ∈ entryPathLeaves isBranch doc :=
      mem_entryPathLeaves.mpr ⟨(key, value), get?_mem hget, leaf, hleaf, rfl⟩
    exact (incomparable_cons key _ _).mp (h _ hmem)

theorem Document.perm_pathLeaves_update (doc : Document) {key : String}
    {f : Option Value → Value} {leaf : List String × Value}
    (h : ((f (doc.get? key)).pathLeaves isBranch).Perm (leaf :: placeLeaves (doc.get? key))) :
    (entryPathLeaves isBranch (doc.update key f)).Perm
      ((key :: leaf.1, leaf.2) :: entryPathLeaves isBranch doc) := by
  induction doc with
  | nil =>
    have hbelow := h.map fun leaf : List String × Value => (key :: leaf.1, leaf.2)
    simpa [update, entryPathLeaves, placeLeaves] using hbelow
  | cons entry rest ih =>
    obtain ⟨k, value⟩ := entry
    by_cases hk : k = key
    · simp only [get?, if_pos hk] at h
      have hbelow := h.map fun leaf : List String × Value => (key :: leaf.1, leaf.2)
      subst hk
      simp only [update, if_true, entryPathLeaves]
      exact hbelow.append_right _
    · simp only [get?, if_neg hk] at h
      simp only [update, if_neg hk, entryPathLeaves]
      exact ((ih h).append_left _).trans List.perm_middle

theorem Document.isBranch_update {doc : Document} {key : String} (f : Option Value → Value)
    (hdoc : ∀ k ∈ doc.keys, k.toList.head? ≠ some '$') (hkey : key.toList.head? ≠ some '$') :
    (doc.update key f).isBranch = true := by
  refine (isBranch_iff _).mpr ⟨?_, fun k hk => ?_⟩
  · intro hnil
    have hmem := mem_keys_update doc key f
    rw [hnil] at hmem
    cases hmem
  · rw [keys_update] at hk
    split at hk
    · exact hdoc k hk
    · obtain hk | hk := List.mem_append.mp hk
      · exact hdoc k hk
      · rwa [List.mem_singleton.mp hk]

/-- A place without a leaf on the way can only be empty or an object that is entered. -/
theorem place_cases {place : Option Value} {path : List String}
    (h : ∀ leaf ∈ placeLeaves place, ¬ leaf.1 <+: path) :
    place = none ∨ ∃ nested : Document, place = some (.object nested) ∧ nested.isBranch = true := by
  cases place with
  | none => exact .inl rfl
  | some value =>
    refine .inr ?_
    by_contra hno
    have hleaf : value.IsLeaf Document.isBranch := by
      rintro nested rfl
      exact Bool.eq_false_iff.mpr fun hbranch => hno ⟨nested, rfl, hbranch⟩
    refine h ([], value) ?_ List.nil_prefix
    simp [placeLeaves, Value.pathLeaves_of_isLeaf hleaf]

theorem Value.perm_pathLeaves_put {value : Value} (hvalue : value.IsLeaf Document.isBranch)
    (path : List String) (hpath : ∀ key ∈ path, key.toList.head? ≠ some '$') (place : Option Value)
    (h : ∀ leaf ∈ placeLeaves place, Incomparable leaf.1 path) :
    ((Value.put path value.mergeOver place).pathLeaves Document.isBranch).Perm
      ((path, value) :: placeLeaves place) := by
  induction path generalizing place with
  | nil =>
    cases place with
    | none =>
      rw [Value.put, mergeOver_none, pathLeaves_of_isLeaf hvalue]
      exact List.Perm.refl _
    | some old =>
      -- whatever is there has a leaf, which the write would reach or replace
      obtain ⟨leaf, hleaf⟩ := old.exists_mem_pathLeaves Document.ne_nil_of_isBranch
      exact absurd List.nil_prefix (h leaf hleaf).2
  | cons key rest ih =>
    rw [List.forall_mem_cons] at hpath
    -- in both cases the place has only fields, and the write keeps it an object of fields
    have hentries : placeLeaves place = entryPathLeaves Document.isBranch (placeEntries place) ∧
        ∀ k ∈ (placeEntries place).keys, k.toList.head? ≠ some '$' := by
      obtain rfl | ⟨nested, rfl, hbranch⟩ := place_cases fun leaf hleaf => (h leaf hleaf).1
      · exact ⟨rfl, by simp⟩
      · exact ⟨pathLeaves_object hbranch, (nested.isBranch_iff.mp hbranch).2⟩
    rw [hentries.1] at h ⊢
    rw [Value.put, pathLeaves_object (Document.isBranch_update _ hentries.2 hpath.1)]
    have hbelow := Document.incomparable_placeLeaves h
    exact Document.perm_pathLeaves_update _ (ih hpath.2 _ hbelow)

theorem Document.perm_pathLeaves_setPath (doc : Document) {value : Value}
    (hvalue : value.IsLeaf isBranch) {path : List String} (hne : path ≠ [])
    (hpath : ∀ key ∈ path.tail, key.toList.head? ≠ some '$')
    (h : ∀ leaf ∈ entryPathLeaves isBranch doc, Incomparable leaf.1 path) :
    (entryPathLeaves isBranch (doc.setPath path value)).Perm
      ((path, value) :: entryPathLeaves isBranch doc) := by
  obtain ⟨key, rest, rfl⟩ := List.exists_cons_of_ne_nil hne
  rw [setPath_cons]
  have hbelow := incomparable_placeLeaves h
  exact perm_pathLeaves_update doc (Value.perm_pathLeaves_put hvalue rest hpath _ hbelow)

/-! ### All writes of a flat document -/

theorem Document.perm_pathLeaves_merge (doc fragment : Document)
    (hleaf : ∀ entry ∈ fragment, entry.2.IsLeaf isBranch)
    (hfields : ∀ entry ∈ fragment, ∀ key ∈ (segments entry.1).tail, key.toList.head? ≠ some '$')
    (hapart : fragment.Pairwise fun a b => Incomparable (segments a.1) (segments b.1))
    (hdoc : ∀ leaf ∈ entryPathLeaves isBranch doc, ∀ entry ∈ fragment,
      Incomparable leaf.1 (segments entry.1)) :
    (entryPathLeaves isBranch (doc.merge .dotted fragment)).Perm
      (entryPathLeaves isBranch doc ++ fragment.map (Prod.map segments id)) := by
  induction fragment generalizing doc with
  | nil => simp [merge]
  | cons entry rest ih =>
    rw [List.forall_mem_cons] at hleaf hfields
    rw [List.pairwise_cons] at hapart
    have hstep := doc.perm_pathLeaves_setPath hleaf.1 (Strategy.dotted.path_ne_nil entry.1)
      hfields.1 fun leaf hmem => hdoc leaf hmem entry List.mem_cons_self
    have hrest := ih (doc.setPath (segments entry.1) entry.2) hleaf.2 hfields.2 hapart.2 ?_
    · refine hrest.trans ((hstep.append_right _).trans ?_)
      exact List.perm_middle.symm
    · intro leaf hmem other hother
      obtain rfl | hold := List.mem_cons.mp (hstep.mem_iff.mp hmem)
      · exact hapart.1 other hother
      · exact hdoc leaf hold other (List.mem_cons_of_mem _ hother)

namespace Document.IsFlat
variable {doc : Document}

theorem isLeaf (h : doc.IsFlat) : ∀ entry ∈ doc, entry.2.IsLeaf isBranch := by
  intro entry hentry nested hnested
  obtain rfl | hoperator := h.leaves entry hentry nested hnested
  · rfl
  · simp [isBranch, hoperator]

theorem pairwise (h : doc.IsFlat) (hkeys : doc.keys.Nodup) :
    doc.Pairwise fun a b => Incomparable (segments a.1) (segments b.1) := by
  refine (List.pairwise_map.mp hkeys).imp_of_mem fun ha hb hne => ?_
  exact ⟨h.apart _ ha _ hb hne, h.apart _ hb _ ha hne.symm⟩

/-- The leaves of the expanded document are the entries of the flat one. -/
theorem perm_pathLeaves (h : doc.IsFlat) (hkeys : doc.keys.Nodup) :
    (entryPathLeaves isBranch (Document.merge [] .dotted doc)).Perm
      (doc.map (Prod.map segments id)) :=
  perm_pathLeaves_merge [] doc h.isLeaf h.fields (h.pairwise hkeys) (by simp [entryPathLeaves])

theorem dotFree_merge (h : doc.IsFlat) (hkeys : doc.keys.Nodup) :
    (Document.merge [] .dotted doc).DotFree := by
  refine dotFree_of_pathLeaves fun leaf hleaf key hkey => ?_
  obtain ⟨entry, -, rfl⟩ := List.mem_map.mp ((h.perm_pathLeaves hkeys).mem_iff.mp hleaf)
  exact dot_not_mem_of_mem_segments hkey

end Document.IsFlat

/-- A flat document that is expanded has itself as its flat form, up to the order of keys, and each
of its keys leads to its value. -/
theorem flatten_merge (doc : Document) (hw : doc.WellFormed) (h : doc.IsFlat) :
    (Document.merge [] .dotted doc).flatten.Perm doc ∧
      ∀ entry ∈ doc, (Document.merge [] .dotted doc).getPath? entry.1 = some entry.2 := by
  have hmerge : (Document.merge [] .dotted doc).WellFormed :=
    Document.wellFormed_nil.merge .dotted ((Document.wellFormed_iff doc).mp hw).2
  have hdots := h.dotFree_merge hw.1
  have hleaves := h.perm_pathLeaves hw.1
  constructor
  · rw [Document.flatten_eq_entryLeaves hmerge hdots]
    rw [← Document.map_segments_leaves hdots] at hleaves
    exact (List.map_perm_map_iff (segments_injective.prodMap Function.injective_id)).mp hleaves
  · intro entry hentry
    have hleaf : (segments entry.1, entry.2) ∈
        entryPathLeaves Document.isBranch (Document.merge [] .dotted doc) :=
      hleaves.mem_iff.mpr (List.mem_map_of_mem hentry)
    exact hmerge.follow?_pathLeaves _ hleaf

theorem flatten_merge_shared :
    let doc : Document :=
      [("a.b", .null), ("$x.c", .object []), ("a.", .array []),
        ("a.d", .object [("$gt", .null), ("e.f", .bool true)])]
    doc.WellFormed ∧ doc.IsFlat ∧
    (Document.merge [] .dotted doc).flatten =
      [("a.b", .null), ("a.", .array []), ("a.d", .object [("$gt", .null), ("e.f", .bool true)]),
        ("$x.c", .object [])] ∧
    (Document.merge [] .dotted doc).flatten.Perm doc ∧
    (Document.merge [] .dotted doc).getPath? "a." = some (.array []) := by
  intro doc
  have hw : doc.WellFormed := by
    simp [doc, Document.WellFormed, Value.WellFormed, entriesWellFormed, itemsWellFormed]
  have hpaths : doc.map (fun entry => (entry.1, segments entry.1)) =
      [("a.b", ["a", "b"]), ("$x.c", ["$x", "c"]), ("a.", ["a", ""]), ("a.d", ["a", "d"])] := by rfl
  have hapart : ∀ a ∈ doc.map (fun entry => (entry.1, segments entry.1)),
      ∀ b ∈ doc.map (fun entry => (entry.1, segments entry.1)), a.1 ≠ b.1 → ¬ a.2 <+: b.2 := by
    rw [hpaths]
    decide
  have hfields : ∀ a ∈ doc.map (fun entry => (entry.1, segments entry.1)),
      ∀ key ∈ a.2.tail, key.toList.head? ≠ some '$' := by
    rw [hpaths]
    decide
  have hleaves : doc.all (fun entry => entry.2.asObject?.all fun nested =>
      nested.isEmpty || nested.isOperator) = true := by rfl
  have h : doc.IsFlat := by
    refine ⟨fun a ha b hb => ?_, List.forall_mem_map.mp hfields, fun entry hentry nested heq => ?_⟩
    · exact hapart _ (List.mem_map_of_mem ha) _ (List.mem_map_of_mem hb)
    · have hentry := List.all_eq_true.mp hleaves entry hentry
      simpa [heq, Value.asObject?] using hentry
  have hmerge := flatten_merge doc hw h
  exact ⟨hw, h, rfl, hmerge.1, hmerge.2 ("a.", .array []) (by simp [doc])⟩

end FilterQuery
