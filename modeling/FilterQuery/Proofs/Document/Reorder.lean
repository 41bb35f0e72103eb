import FilterQuery.Proofs.Document.Leaves
import FilterQuery.Proofs.Document.Status
import Mathlib.Data.List.Pairwise

/-! Merging fragments in another order. Main statement: if the leaves of fragments lie apart, the
order in which they are merged shows in the order of keys and nowhere else. -/
namespace FilterQuery

mutual

/-- Equal up to the order of keys in all objects. Arrays are compared as they are. -/
def Value.Reordered : Value → Value → Prop
  | .object a, .object b => (Document.keys a).Perm (Document.keys b) ∧ entriesReordered a b
  | a, b => a = b

def entriesReordered : List (String × Value) → Document → Prop
  | [], _ => True
  | (key, value) :: rest, doc =>
    (∃ other, doc.get? key = some other ∧ value.Reordered other) ∧ entriesReordered rest doc

end

def Document.Reordered (a b : Document) : Prop :=
  (Value.object a).Reordered (.object b)

theorem entriesReordered_iff (entries : List (String × Value)) (doc : Document) :
    entriesReordered entries doc ↔
      ∀ entry ∈ entries, ∃ other, doc.get? entry.1 = some other ∧ entry.2.Reordered other := by
  induction entries with
  | nil => simp [entriesReordered]
  | cons entry rest ih => simp [entriesReordered, ih]

theorem Value.reordered_leaf {a : Value} (h : a.asObject? = none) (b : Value) :
    a.Reordered b ↔ a = b := by
  cases a with
  | object entries => cases h
  | _ => simp [Reordered]

/-! ### What paths lead to decides all but the order of keys -/

theorem placeStatus_nil_eq_absent_iff (place : Option Value) :
    placeStatus place [] = .absent ↔ place = none := by
  cases place with
  | none => simp [placeStatus]
  | some value => cases value <;> simp [placeStatus]

theorem Value.eq_object_of_placeStatus {value : Value} (h : placeStatus (some value) [] = .object) :
    ∃ entries, value = .object entries := by
  cases value with
  | object entries => exact ⟨entries, rfl⟩
  | _ => cases h

theorem Value.eq_of_placeStatus_leaf {value leaf : Value}
    (h : placeStatus (some value) [] = .leaf leaf) : value = leaf := by
  cases value with
  | object entries => cases h
  | _ => exact Status.leaf.inj h

theorem Value.reordered_of_placeStatus {a b : Value} (ha : a.WellFormed) (hb : b.WellFormed)
    (h : ∀ path, placeStatus (some a) path = placeStatus (some b) path) : a.Reordered b := by
  induction a using Value.induct generalizing b with
  | leaf a hleaf =>
    have hstatus := (h []).symm.trans (placeStatus_nil_leaf hleaf)
    exact (reordered_leaf hleaf b).mpr (eq_of_placeStatus_leaf hstatus).symm
  | object entries ih =>
    obtain ⟨others, rfl⟩ := eq_object_of_placeStatus (h []).symm
    have hget : ∀ key path, placeStatus (Document.get? entries key) path =
        placeStatus (Document.get? others key) path := fun key path => h (key :: path)
    refine ⟨(List.perm_ext_iff_of_nodup ha.1 hb.1).mpr fun key => ?_, ?_⟩
    · -- a key is there if its path leads to something
      rw [← not_iff_not, ← Document.get?_eq_none_iff, ← Document.get?_eq_none_iff,
        ← placeStatus_nil_eq_absent_iff, hget, placeStatus_nil_eq_absent_iff]
    · refine (entriesReordered_iff entries others).mpr fun entry hentry => ?_
      have hvalue : Document.get? entries entry.1 = some entry.2 :=
        Document.get?_of_mem ha.1 hentry
      cases hother : Document.get? others entry.1 with
      | none =>
        have habsent := hget entry.1 []
        rw [hother, placeStatus, placeStatus_nil_eq_absent_iff, hvalue] at habsent
        cases habsent
      | some other =>
        refine ⟨other, rfl, ih entry hentry ?_ ?_ fun path => ?_⟩
        · exact Document.WellFormed.get? ha hvalue
        · exact Document.WellFormed.get? hb hother
        · rw [← hvalue, hget, hother]

/-! ### Equality of documents passes over the order of keys -/

theorem Value.Reordered.eq_or_objects {a b : Value} (h : a.Reordered b) :
    a = b ∨ ∃ x y : Document, a = .object x ∧ b = .object y ∧ x.Reordered y := by
  cases a with
  | object x =>
    cases b with
    | object y => exact .inr ⟨x, y, rfl, rfl, h⟩
    | _ => cases h
  | _ => exact .inl ((reordered_leaf rfl b).mp h)

theorem Document.Reordered.length_eq {a b : Document} (h : a.Reordered b) :
    a.length = b.length := by
  simpa [Document.keys] using h.1.length_eq

theorem Document.Reordered.get? {a b : Document} (h : a.Reordered b) (key : String) :
    Option.Rel Value.Reordered (a.get? key) (b.get? key) := by
  obtain ⟨hkeys, hentries⟩ := h
  cases hkey : Document.get? a key with
  | none =>
    have hother : Document.get? b key = none := by
      rwa [Document.get?_eq_none_iff, ← hkeys.mem_iff, ← Document.get?_eq_none_iff]
    rw [hother]
    exact .none
  | some value =>
    obtain ⟨other, hother, hre⟩ :=
      (entriesReordered_iff a b).mp hentries _ (Document.get?_mem hkey)
    simp only at hother
    rw [hother]
    exact .some hre

theorem sameEntries_of_reordered {entries : List (String × Value)}
    (h : ∀ entry ∈ entries, ∀ a b : Value, a.Reordered b → entry.2.same a = entry.2.same b)
    {x y : Document} (hxy : x.Reordered y) : sameEntries entries x = sameEntries entries y := by
  induction entries with
  | nil => rfl
  | cons entry rest ih =>
    rw [List.forall_mem_cons] at h
    have hget := hxy.get? entry.1
    rw [sameEntries, sameEntries, ih h.2]
    revert hget
    generalize x.get? entry.1 = a, y.get? entry.1 = b
    rintro (hab | _)
    · simp only [h.1 _ _ hab]
    · rfl

theorem Value.same_of_reordered (value : Value) {a b : Value} (h : a.Reordered b) :
    value.same a = value.same b := by
  induction value using Value.induct generalizing a b with
  | leaf value hleaf =>
    obtain rfl | ⟨x, y, rfl, rfl, -⟩ := h.eq_or_objects
    · rfl
    · cases value with
      | object nested => cases hleaf
      | _ => rfl
  | object nested ih =>
    obtain rfl | ⟨x, y, rfl, rfl, hxy⟩ := h.eq_or_objects
    · rfl
    · have hentries := sameEntries_of_reordered (fun entry hentry a b => ih entry hentry) hxy
      rw [Value.same, Value.same, hxy.length_eq, hentries]

/-! ### Fragments apart from each other -/

def Document.hasEntries (doc : Document) : Bool := !doc.isEmpty

namespace Strategy

/-- The paths at which a fragment writes: those of its values that are no objects, and of its empty
objects. -/
def leafPaths (strategy : Strategy) (fragment : Document) : List (List String) :=
  fragment.flatMap fun entry =>
    (entry.2.pathLeaves Document.hasEntries).map fun leaf => strategy.path entry.1 ++ leaf.1

def leafWrites (strategy : Strategy) (fragment : Document) : List Write :=
  fragment.flatMap fun entry =>
    (entry.2.pathLeaves Document.hasEntries).flatMap fun leaf =>
      leaf.2.writes (strategy.path entry.1 ++ leaf.1)

theorem replay_leafWrites (strategy : Strategy) (fragment : Document) :
    replay (strategy.leafWrites fragment) = replay (strategy.writes fragment) := by
  refine replay_flatMap_congr fun entry _ => ?_
  refine Value.replay_pathLeaves (fun doc hdoc hnil => ?_) entry.2 _
  simp [Document.hasEntries, hnil] at hdoc

theorem mem_leafPaths_of_mem_leafWrites {strategy : Strategy} {fragment : Document} {w : Write}
    (h : w ∈ strategy.leafWrites fragment) : w.path ∈ strategy.leafPaths fragment := by
  obtain ⟨entry, hentry, hw⟩ := List.mem_flatMap.mp h
  obtain ⟨leaf, hleaf, hw⟩ := List.mem_flatMap.mp hw
  have hpath : w.path = strategy.path entry.1 ++ leaf.1 := by
    have hend := entry.2.isLeaf_of_mem_pathLeaves leaf hleaf
    cases hvalue : leaf.2 with
    | object nested =>
      -- an object at a leaf has no entries
      obtain rfl : nested = [] := by simpa [Document.hasEntries] using hend nested hvalue
      rw [hvalue] at hw
      simp only [Value.writes, entryWrites, List.mem_singleton] at hw
      rw [hw]
    | _ =>
      rw [hvalue] at hw
      simp only [Value.writes, List.mem_singleton] at hw
      rw [hw]
  rw [hpath]
  exact List.mem_flatMap.mpr ⟨entry, hentry, List.mem_map_of_mem hleaf⟩

theorem isPlain_of_mem_leafWrites {strategy : Strategy} {fragment : Document} {w : Write}
    (h : w ∈ strategy.leafWrites fragment) : w.content.IsPlain := by
  obtain ⟨entry, -, hw⟩ := List.mem_flatMap.mp h
  obtain ⟨leaf, -, hw⟩ := List.mem_flatMap.mp hw
  exact leaf.2.isPlain_of_mem_writes _ w hw

/-- What a fragment makes of a path, if it touches it. -/
def decides (strategy : Strategy) (fragment : Document) (path : List String) : Option Status :=
  ((strategy.leafWrites fragment).filter (·.touches path)).getLast?.map (·.effect path)

theorem exists_of_decides {strategy : Strategy} {fragment : Document} {path : List String}
    {status : Status} (h : strategy.decides fragment path = some status) :
    ∃ w ∈ strategy.leafWrites fragment, w.touches path = true ∧ w.effect path = status := by
  obtain ⟨w, hlast, heffect⟩ := Option.map_eq_some_iff.mp h
  obtain ⟨hw, htouches⟩ := List.mem_filter.mp (List.mem_of_getLast? hlast)
  exact ⟨w, hw, htouches, heffect⟩

end Strategy

theorem Document.status_merge_eq (doc : Document) (strategy : Strategy) {fragment : Document}
    (h : fragment.WellFormed) (path : List String) :
    (doc.merge strategy fragment).status path =
      (strategy.decides fragment path).getD (doc.status path) := by
  have hreplay := doc.replay_merge strategy fragment ((Document.wellFormed_iff fragment).mp h).2
  rw [← strategy.replay_leafWrites] at hreplay
  rw [Document.status, ← hreplay,
    placeStatus_replay _ (fun _ => Strategy.isPlain_of_mem_leafWrites), Strategy.decides]
  cases ((strategy.leafWrites fragment).filter (·.touches path)).getLast? <;> rfl

theorem Document.status_mergeAll_eq (doc : Document) {parts : List (Strategy × Document)}
    (h : ∀ part ∈ parts, part.2.WellFormed) (path : List String) :
    (doc.mergeAll parts).status path =
      parts.foldl (fun status part => (part.1.decides part.2 path).getD status)
        (doc.status path) := by
  induction parts generalizing doc with
  | nil => rfl
  | cons part rest ih =>
    rw [List.forall_mem_cons] at h
    rw [List.foldl_cons, ← doc.status_merge_eq part.1 h.1, ← ih _ h.2]
    rfl

/-- No leaf of one fragment lies at or below a leaf of the other. -/
def Apart (a b : Strategy × Document) : Prop :=
  ∀ p ∈ a.1.leafPaths a.2, ∀ q ∈ b.1.leafPaths b.2, Incomparable p q

theorem Apart.symm {a b : Strategy × Document} (h : Apart a b) : Apart b a :=
  fun p hp q hq => (h q hq p hp).symm

instance : Std.Symm Apart := ⟨fun _ _ => Apart.symm⟩

theorem Write.prefix_or_prefix_of_touches {w : Write} {path : List String}
    (h : w.touches path = true) : path <+: w.path ∨ w.path <+: path := by
  rw [Write.touches, Bool.or_eq_true] at h
  refine h.imp List.isPrefixOf_iff_prefix.mp fun hbelow => ?_
  cases hc : w.content with
  | leaf value =>
    rw [hc] at hbelow
    exact List.isPrefixOf_iff_prefix.mp hbelow
  | object =>
    rw [hc] at hbelow
    cases hbelow

/-- Writes at paths that are apart meet only on their ways, where both need an object. -/
theorem Write.effect_of_touches {v w : Write} {path : List String} (hv : v.touches path = true)
    (hw : w.touches path = true) (h : Incomparable v.path w.path) :
    v.effect path = .object := by
  have hbelow : ¬ v.path <+: path := by
    intro hvp
    obtain hpw | hwp := prefix_or_prefix_of_touches hw
    · exact h.1 (hvp.trans hpw)
    · exact (List.prefix_or_prefix_of_prefix hvp hwp).elim h.1 h.2
  have habove := (prefix_or_prefix_of_touches hv).resolve_right hbelow
  have hne : path ≠ v.path := fun heq => hbelow (heq ▸ List.prefix_rfl)
  rw [Write.effect, if_neg hne, if_pos (List.isPrefixOf_iff_prefix.mpr habove)]

theorem Apart.decides_eq_object {a b : Strategy × Document} (h : Apart a b) {path : List String}
    {s t : Status} (ha : a.1.decides a.2 path = some s) (hb : b.1.decides b.2 path = some t) :
    s = .object := by
  obtain ⟨v, hv, hvt, rfl⟩ := Strategy.exists_of_decides ha
  obtain ⟨w, hw, hwt, -⟩ := Strategy.exists_of_decides hb
  have hpaths := h _ (Strategy.mem_leafPaths_of_mem_leafWrites hv) _
    (Strategy.mem_leafPaths_of_mem_leafWrites hw)
  exact Write.effect_of_touches hvt hwt hpaths

theorem Apart.decides_comm {a b : Strategy × Document} (h : Apart a b) (path : List String)
    (status : Status) :
    (b.1.decides b.2 path).getD ((a.1.decides a.2 path).getD status) =
      (a.1.decides a.2 path).getD ((b.1.decides b.2 path).getD status) := by
  cases ha : a.1.decides a.2 path with
  | none => rfl
  | some s =>
    cases hb : b.1.decides b.2 path with
    | none => rfl
    | some t =>
      have hs : s = .object := h.decides_eq_object ha hb
      have ht : t = .object := h.symm.decides_eq_object hb ha
      simp only [Option.getD_some, hs, ht]

/-- Fragments apart from each other can be merged in any order: the documents that arise are equal up
to the order of keys at every level, and equality of documents does not tell them apart. -/
theorem mergeAll_perm (doc : Document) (hd : doc.WellFormed)
    (parts parts' : List (Strategy × Document)) (hparts : ∀ part ∈ parts, part.2.WellFormed)
    (hapart : parts.Pairwise Apart) (hperm : parts.Perm parts') :
    (doc.mergeAll parts).Reordered (doc.mergeAll parts') ∧
      ∀ other, Document.same other (doc.mergeAll parts) =
        Document.same other (doc.mergeAll parts') := by
  have hparts' : ∀ part ∈ parts', part.2.WellFormed :=
    fun part hpart => hparts part (hperm.mem_iff.mpr hpart)
  have hstatus : ∀ path, (doc.mergeAll parts).status path = (doc.mergeAll parts').status path := by
    intro path
    rw [doc.status_mergeAll_eq hparts, doc.status_mergeAll_eq hparts']
    -- at each path, what two fragments decide does not depend on which of them comes first
    refine hperm.foldl_eq' (fun a ha b hb status => ?_) _
    by_cases hab : a = b
    · rw [hab]
    · exact (hapart.forall ha hb hab).decides_comm path status
  have hreordered : (doc.mergeAll parts).Reordered (doc.mergeAll parts') :=
    Value.reordered_of_placeStatus (hd.mergeAll hparts) (hd.mergeAll hparts') hstatus
  exact ⟨hreordered, fun other => (Value.object other).same_of_reordered hreordered⟩

theorem mergeAll_perm_shared :
    let doc : Document := [("a", .null), ("f", .bool true)]
    let parts : List (Strategy × Document) :=
      [(.dotted, [("a.b", .bool true)]), (.literal, [("a", .object [("c.d", .object [])])]),
        (.dotted, [("e", .null), ("e.f", .bool false)]), (.literal, [("a.b", .array [])])]
    let parts' : List (Strategy × Document) := parts.reverse
    doc.WellFormed ∧ (∀ part ∈ parts, part.2.WellFormed) ∧ parts.Pairwise Apart ∧
    parts.Perm parts' ∧
    doc.mergeAll parts =
      [("a", .object [("b", .bool true), ("c.d", .object [])]), ("f", .bool true),
        ("e", .object [("f", .bool false)]), ("a.b", .array [])] ∧
    doc.mergeAll parts' =
      [("a", .object [("c.d", .object []), ("b", .bool true)]), ("f", .bool true),
        ("a.b", .array []), ("e", .object [("f", .bool false)])] ∧
    (doc.mergeAll parts).Reordered (doc.mergeAll parts') := by
  intro doc parts parts'
  have hd : doc.WellFormed := by
    simp [doc, Document.wellFormed_iff, Value.WellFormed]
  have hparts : ∀ part ∈ parts, part.2.WellFormed := by
    simp [parts, Document.WellFormed, Value.WellFormed, entriesWellFormed, itemsWellFormed]
  have hpaths : parts.map (fun part => part.1.leafPaths part.2) =
      [[["a", "b"]], [["a", "c.d"]], [["e"], ["e", "f"]], [["a.b"]]] := by rfl
  have hapart : parts.Pairwise Apart := by
    have hlists : (parts.map fun part => part.1.leafPaths part.2).Pairwise
        fun a b => ∀ p ∈ a, ∀ q ∈ b, Incomparable p q := by
      rw [hpaths]
      decide
    rw [List.pairwise_map] at hlists
    exact hlists
  have hperm : parts.Perm parts' := (List.reverse_perm parts).symm
  exact ⟨hd, hparts, hapart, hperm, rfl, rfl,
    (mergeAll_perm doc hd parts parts' hparts hapart hperm).1⟩

end FilterQuery
