import FilterQuery.Proofs.Document.Writes

/-! The leaves of nested objects, each with the path that leads to it. Main statement: a merge needs
the writes at the leaves only, since an object arises with the first write below it. -/
namespace FilterQuery

def Incomparable (p q : List String) : Prop :=
  ¬ p <+: q ∧ ¬ q <+: p

instance (p q : List String) : Decidable (Incomparable p q) :=
  inferInstanceAs (Decidable (_ ∧ _))

theorem incomparable_cons (key : String) (p q : List String) :
    Incomparable (key :: p) (key :: q) ↔ Incomparable p q := by
  simp [Incomparable, List.cons_prefix_cons]

mutual

/-- The leaves of a value with their paths, if objects are entered that `enters` holds of. -/
def Value.pathLeaves (enters : Document → Bool) : Value → List (List String × Value)
  | .object nested =>
    if enters nested then entryPathLeaves enters nested else [([], .object nested)]
  | value => [([], value)]

def entryPathLeaves (enters : Document → Bool) :
    List (String × Value) → List (List String × Value)
  | [] => []
  | (key, value) :: rest =>
    (value.pathLeaves enters).map (fun leaf => (key :: leaf.1, leaf.2)) ++
      entryPathLeaves enters rest

end

def Value.IsLeaf (enters : Document → Bool) (value : Value) : Prop :=
  ∀ nested, value = .object nested → enters nested = false

section
variable {enters : Document → Bool}

theorem Value.pathLeaves_of_isLeaf {value : Value} (h : value.IsLeaf enters) :
    value.pathLeaves enters = [([], value)] := by
  cases value with
  | object nested => simp [pathLeaves, h nested rfl]
  | _ => rfl

theorem Value.pathLeaves_object {nested : Document} (h : enters nested = true) :
    (Value.object nested).pathLeaves enters = entryPathLeaves enters nested := by
  rw [pathLeaves, if_pos h]

theorem Value.inductEntered (enters : Document → Bool) {P : Value → Prop}
    (leaf : ∀ value, value.IsLeaf enters → P value)
    (object : ∀ nested, enters nested = true → (∀ entry ∈ nested, P entry.2) → P (.object nested))
    (value : Value) : P value := by
  induction value using Value.induct with
  | leaf value hv =>
    refine leaf value fun nested heq => ?_
    subst heq
    cases hv
  | object nested ih =>
    by_cases hn : enters nested = true
    · exact object nested hn ih
    · refine leaf _ fun other heq => ?_
      cases heq
      exact Bool.eq_false_iff.mpr hn

theorem entryPathLeaves_eq_flatMap (entries : List (String × Value)) :
    entryPathLeaves enters entries = entries.flatMap fun entry =>
      (entry.2.pathLeaves enters).map fun leaf => (entry.1 :: leaf.1, leaf.2) := by
  induction entries with
  | nil => rfl
  | cons entry rest ih => rw [entryPathLeaves, ih, List.flatMap_cons]

theorem mem_entryPathLeaves {entries : List (String × Value)} {leaf : List String × Value} :
    leaf ∈ entryPathLeaves enters entries ↔
      ∃ entry ∈ entries, ∃ inner ∈ entry.2.pathLeaves enters,
        (entry.1 :: inner.1, inner.2) = leaf := by
  simp only [entryPathLeaves_eq_flatMap, List.mem_flatMap, List.mem_map]

theorem Value.isLeaf_of_mem_pathLeaves (value : Value) :
    ∀ leaf ∈ value.pathLeaves enters, leaf.2.IsLeaf enters := by
  induction value using Value.inductEntered enters with
  | leaf value hv =>
    rw [pathLeaves_of_isLeaf hv]
    simpa using hv
  | object nested hn ih =>
    intro leaf hleaf
    rw [pathLeaves_object hn, mem_entryPathLeaves] at hleaf
    obtain ⟨entry, hentry, inner, hinner, rfl⟩ := hleaf
    exact ih entry hentry inner hinner

theorem Value.exists_mem_pathLeaves (henters : ∀ doc, enters doc = true → doc ≠ [])
    (value : Value) : ∃ leaf, leaf ∈ value.pathLeaves enters := by
  induction value using Value.inductEntered enters with
  | leaf value hv => exact ⟨([], value), by simp [pathLeaves_of_isLeaf hv]⟩
  | object nested hn ih =>
    obtain ⟨entry, rest, rfl⟩ := List.exists_cons_of_ne_nil (henters nested hn)
    obtain ⟨inner, hinner⟩ := ih entry List.mem_cons_self
    rw [pathLeaves_object hn]
    exact ⟨_, mem_entryPathLeaves.mpr ⟨entry, List.mem_cons_self, inner, hinner, rfl⟩⟩

/-! ### Leaves of documents without repeated keys -/

theorem Value.WellFormed.entry {nested : Document} (h : (Value.object nested).WellFormed)
    {entry : String × Value} (he : entry ∈ nested) : entry.2.WellFormed :=
  ((Document.wellFormed_iff nested).mp h).2 entry he

theorem Value.WellFormed.of_mem_pathLeaves {value : Value} (h : value.WellFormed) :
    ∀ leaf ∈ value.pathLeaves enters, leaf.2.WellFormed := by
  induction value using Value.inductEntered enters with
  | leaf value hv =>
    rw [pathLeaves_of_isLeaf hv]
    simpa using h
  | object nested hn ih =>
    intro leaf hleaf
    rw [pathLeaves_object hn, mem_entryPathLeaves] at hleaf
    obtain ⟨entry, hentry, inner, hinner, rfl⟩ := hleaf
    exact ih entry hentry (h.entry hentry) inner hinner

theorem Document.nodup_entryPathLeaves {doc : Document} (hkeys : doc.keys.Nodup)
    (h : ∀ entry ∈ doc, ((entry.2.pathLeaves enters).map Prod.fst).Nodup) :
    ((entryPathLeaves enters doc).map Prod.fst).Nodup := by
  induction doc with
  | nil => simp [entryPathLeaves]
  | cons entry rest ih =>
    rw [List.forall_mem_cons] at h
    rw [keys_cons, List.nodup_cons] at hkeys
    rw [entryPathLeaves, List.map_append, List.map_map]
    refine List.nodup_append.mpr ⟨?_, ih hkeys.2 h.2, ?_⟩
    · have hcons : Prod.fst ∘ (fun leaf : List String × Value => (entry.1 :: leaf.1, leaf.2)) =
          List.cons entry.1 ∘ Prod.fst := rfl
      rw [hcons, ← List.map_map]
      exact h.1.map List.cons_injective
    · -- paths below different keys differ in their heads
      rintro path hpath _ hother rfl
      obtain ⟨inner, -, rfl⟩ := List.mem_map.mp hpath
      obtain ⟨leaf, hleaf, heq⟩ := List.mem_map.mp hother
      obtain ⟨other, hmem, inner', -, rfl⟩ := mem_entryPathLeaves.mp hleaf
      have hkey : other.1 = entry.1 := (List.cons.inj heq).1
      exact hkeys.1 (hkey ▸ List.mem_map_of_mem hmem)

theorem Value.WellFormed.nodup_pathLeaves {value : Value} (h : value.WellFormed) :
    ((value.pathLeaves enters).map Prod.fst).Nodup := by
  induction value using Value.inductEntered enters with
  | leaf value hv => simp [pathLeaves_of_isLeaf hv]
  | object nested hn ih =>
    rw [pathLeaves_object hn]
    exact Document.nodup_entryPathLeaves h.1 fun entry he => ih entry he (h.entry he)

theorem Document.WellFormed.of_mem_pathLeaves {doc : Document} (h : doc.WellFormed) :
    ∀ leaf ∈ entryPathLeaves enters doc, leaf.2.WellFormed := by
  intro leaf hleaf
  obtain ⟨entry, hentry, inner, hinner, rfl⟩ := mem_entryPathLeaves.mp hleaf
  exact (Value.WellFormed.entry h hentry).of_mem_pathLeaves inner hinner

theorem Document.WellFormed.nodup_pathLeaves {doc : Document} (h : doc.WellFormed) :
    ((entryPathLeaves enters doc).map Prod.fst).Nodup :=
  Document.nodup_entryPathLeaves h.1 fun _ hentry =>
    (Value.WellFormed.entry h hentry).nodup_pathLeaves

/-! ### Paths that lead to leaves -/

theorem Document.follow?_object {doc nested : Document} {key : String} {path : List String}
    (h : doc.get? key = some (.object nested)) (hp : path ≠ []) :
    doc.follow? (key :: path) = nested.follow? path := by
  cases path with
  | nil => exact absurd rfl hp
  | cons next rest => simp only [follow?, h]

theorem Document.exists_object_of_follow? {doc : Document} {key : String} {path : List String}
    {value : Value} (hne : path ≠ []) (h : doc.follow? (key :: path) = some value) :
    ∃ nested : Document, doc.get? key = some (.object nested) ∧ nested.follow? path = some value := by
  obtain ⟨next, rest, rfl⟩ := List.exists_cons_of_ne_nil hne
  simp only [follow?] at h
  split at h
  · rename_i nested hget
    exact ⟨nested, hget, h⟩
  · cases h

/-- Every object that a path goes through, up to its end, is entered. -/
def Document.Passes (enters : Document → Bool) (doc : Document) (path : List String) : Prop :=
  ∀ front, front <+: path → front ≠ path →
    ∀ nested, doc.follow? front = some (.object nested) → enters nested = true

theorem Value.mem_pathLeaves_iff {value leaf : Value} {path : List String} :
    (path, leaf) ∈ value.pathLeaves enters ↔
      (path = [] ∧ value = leaf ∧ leaf.IsLeaf enters) ∨
      ∃ nested, value = .object nested ∧ enters nested = true ∧
        (path, leaf) ∈ entryPathLeaves enters nested := by
  by_cases hv : value.IsLeaf enters
  · rw [pathLeaves_of_isLeaf hv, List.mem_singleton, Prod.mk.injEq]
    constructor
    · rintro ⟨rfl, rfl⟩
      exact .inl ⟨rfl, rfl, hv⟩
    · rintro (⟨rfl, rfl, -⟩ | ⟨nested, rfl, hn, -⟩)
      · exact ⟨rfl, rfl⟩
      · rw [hv nested rfl] at hn
        cases hn
  · obtain ⟨nested, rfl, hn⟩ : ∃ nested, value = .object nested ∧ enters nested = true := by
      simpa [IsLeaf] using hv
    rw [pathLeaves_object hn]
    constructor
    · exact fun hmem => .inr ⟨nested, rfl, hn, hmem⟩
    · rintro (⟨-, rfl, hleaf⟩ | ⟨other, heq, -, hmem⟩)
      · exact absurd hleaf hv
      · cases heq
        exact hmem

theorem not_mem_entryPathLeaves_nil {entries : List (String × Value)} {leaf : Value} :
    ([], leaf) ∉ entryPathLeaves enters entries := by
  intro h
  obtain ⟨entry, -, inner, -, heq⟩ := mem_entryPathLeaves.mp h
  cases heq

namespace Document

theorem mem_entryPathLeaves_cons {doc : Document} (hkeys : doc.keys.Nodup) {key : String}
    {path : List String} {leaf : Value} :
    (key :: path, leaf) ∈ entryPathLeaves enters doc ↔
      ∃ value, doc.get? key = some value ∧ (path, leaf) ∈ value.pathLeaves enters := by
  rw [mem_entryPathLeaves]
  constructor
  · rintro ⟨⟨k, value⟩, hentry, inner, hinner, heq⟩
    cases heq
    exact ⟨value, get?_of_mem hkeys hentry, hinner⟩
  · rintro ⟨value, hget, hmem⟩
    exact ⟨(key, value), get?_mem hget, (path, leaf), hmem, rfl⟩

theorem passes_singleton (doc : Document) (key : String) : doc.Passes enters [key] := by
  intro front hfront hne nested hfollow
  obtain rfl | rfl : front = [] ∨ front = [key] := by
    simpa [List.prefix_cons_iff, List.prefix_nil] using hfront
  · cases hfollow
  · exact absurd rfl hne

theorem passes_cons {doc nested : Document} {key : String} {path : List String} (hne : path ≠ [])
    (hget : doc.get? key = some (.object nested)) :
    doc.Passes enters (key :: path) ↔ enters nested = true ∧ nested.Passes enters path := by
  constructor
  · intro h
    refine ⟨h [key] (by simp) (by simpa using hne.symm) nested hget, ?_⟩
    intro front hfront hproper inner hfollow
    have hstart : front ≠ [] := by
      rintro rfl
      cases hfollow
    refine h (key :: front) (List.cons_prefix_cons.mpr ⟨rfl, hfront⟩) (by simpa using hproper) inner ?_
    rw [follow?_object hget hstart, hfollow]
  · rintro ⟨henters, h⟩ front hfront hproper inner hfollow
    cases front with
    | nil => cases hfollow
    | cons k front =>
      obtain ⟨rfl, hrest⟩ := List.cons_prefix_cons.mp hfront
      by_cases hstart : front = []
      · subst hstart
        have hsame : some (Value.object nested) = some (.object inner) := hget.symm.trans hfollow
        cases hsame
        exact henters
      · rw [follow?_object hget hstart] at hfollow
        exact h front hrest (by simpa using hproper) inner hfollow

/-- The leaves are what the paths lead to that go through entered objects only. -/
theorem WellFormed.mem_pathLeaves_iff {doc : Document} (h : doc.WellFormed) {path : List String}
    {leaf : Value} :
    (path, leaf) ∈ entryPathLeaves enters doc ↔
      doc.follow? path = some leaf ∧ leaf.IsLeaf enters ∧ doc.Passes enters path := by
  induction path generalizing doc with
  | nil => simp [not_mem_entryPathLeaves_nil, follow?]
  | cons key rest ih =>
    rw [mem_entryPathLeaves_cons h.1]
    simp only [Value.mem_pathLeaves_iff]
    by_cases hrest : rest = []
    · subst hrest
      constructor
      · rintro ⟨value, hget, ⟨-, rfl, hleaf⟩ | ⟨nested, -, -, hmem⟩⟩
        · exact ⟨hget, hleaf, doc.passes_singleton key⟩
        · exact absurd hmem not_mem_entryPathLeaves_nil
      · rintro ⟨hget, hleaf, -⟩
        exact ⟨leaf, hget, .inl ⟨rfl, rfl, hleaf⟩⟩
    · constructor
      · rintro ⟨value, hget, ⟨rfl, -⟩ | ⟨nested, rfl, hn, hmem⟩⟩
        · exact absurd rfl hrest
        · obtain ⟨hfollow, hleaf, hpasses⟩ := (ih (h.get? hget)).mp hmem
          rw [follow?_object hget hrest]
          exact ⟨hfollow, hleaf, (passes_cons hrest hget).mpr ⟨hn, hpasses⟩⟩
      · rintro ⟨hfollow, hleaf, hpasses⟩
        obtain ⟨nested, hget, hnested⟩ := exists_object_of_follow? hrest hfollow
        obtain ⟨hn, hbelow⟩ := (passes_cons hrest hget).mp hpasses
        exact ⟨_, hget, .inr ⟨nested, rfl, hn, (ih (h.get? hget)).mpr ⟨hnested, hleaf, hbelow⟩⟩⟩

theorem WellFormed.follow?_pathLeaves {doc : Document} (h : doc.WellFormed) :
    ∀ leaf ∈ entryPathLeaves enters doc, doc.follow? leaf.1 = some leaf.2 :=
  fun _ hleaf => (h.mem_pathLeaves_iff.mp hleaf).1

end Document
end

/-! ### Writes at leaves -/

theorem entryWrites_eq_flatMap (path : List String) (entries : List (String × Value)) :
    entryWrites path entries =
      entries.flatMap fun entry => entry.2.writes (path ++ [entry.1]) := by
  induction entries with
  | nil => rfl
  | cons entry rest ih => rw [entryWrites, ih, List.flatMap_cons]

theorem replay_flatMap_congr {α : Type} {items : List α} {f g : α → List Write}
    (h : ∀ item ∈ items, replay (f item) = replay (g item)) :
    replay (items.flatMap f) = replay (items.flatMap g) := by
  induction items with
  | nil => rfl
  | cons item rest ih =>
    rw [List.forall_mem_cons] at h
    funext place
    rw [List.flatMap_cons, List.flatMap_cons, replay_append, replay_append, h.1, ih h.2]

/-- A write makes an object of each place on its way, so that no write before it has to. -/
theorem Write.apply_ensured {w : Write} {path : List String} (h : path <+: w.path)
    (place : Option Value) :
    w.apply (some (Write.apply ⟨path, .object⟩ place)) = w.apply place := by
  obtain ⟨rest, hrest⟩ := h
  have hput : ∀ old, Value.put rest w.content.place (some (.object (placeEntries old))) =
      Value.put rest w.content.place old := by
    intro old
    cases rest with
    | nil => cases w.content <;> rfl
    | cons key rest => rfl
  rw [Write.apply, Write.apply, Write.apply, ← hrest, Value.put_append, Value.put_put]
  exact congrArg (fun f => Value.put path f place) (funext hput)

theorem Value.exists_writes_cons (value : Value) (path : List String) :
    ∃ w rest, value.writes path = w :: rest ∧ w.path = path := by
  cases value with
  | object entries => exact ⟨_, _, rfl, rfl⟩
  | _ => exact ⟨_, _, rfl, rfl⟩

theorem replay_entryPathLeaves {enters : Document → Bool} (entries : List (String × Value))
    (h : ∀ entry ∈ entries, ∀ path,
      replay ((entry.2.pathLeaves enters).flatMap fun leaf => leaf.2.writes (path ++ leaf.1)) =
        replay (entry.2.writes path)) (path : List String) :
    replay ((entryPathLeaves enters entries).flatMap fun leaf => leaf.2.writes (path ++ leaf.1)) =
      replay (entryWrites path entries) := by
  rw [entryPathLeaves_eq_flatMap, entryWrites_eq_flatMap, List.flatMap_assoc]
  refine replay_flatMap_congr fun entry hentry => ?_
  rw [List.flatMap_map, ← h entry hentry]
  simp

/-- A value that is written needs the writes of its leaves only, if no empty object is entered. -/
theorem Value.replay_pathLeaves {enters : Document → Bool}
    (henters : ∀ doc, enters doc = true → doc ≠ []) (value : Value) (path : List String) :
    replay ((value.pathLeaves enters).flatMap fun leaf => leaf.2.writes (path ++ leaf.1)) =
      replay (value.writes path) := by
  induction value using Value.inductEntered enters generalizing path with
  | leaf value hv => simp [pathLeaves_of_isLeaf hv]
  | object nested hn ih =>
    -- the object itself is written first, which the first write below it does as well
    rw [pathLeaves_object hn, replay_entryPathLeaves nested ih, Value.writes]
    obtain ⟨entry, rest, rfl⟩ := List.exists_cons_of_ne_nil (henters nested hn)
    obtain ⟨w, after, hwrites, hpath⟩ := entry.2.exists_writes_cons (path ++ [entry.1])
    funext place
    rw [entryWrites, hwrites, List.cons_append, replay_cons, replay_cons, replay_cons,
      Write.apply_ensured (by simp [hpath])]

end FilterQuery
