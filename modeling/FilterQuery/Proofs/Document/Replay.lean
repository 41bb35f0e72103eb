import FilterQuery.Proofs.Document.Writes

/-! Writing the same things twice. Main statement: fragments that have been merged can be merged once
more, all of them in the same order, and the document stays as it is, the order of its keys included. -/
namespace FilterQuery
namespace Write

def step (w : Write) (doc : Document) : Document :=
  match w.path with
  | [] => doc
  | key :: rest => doc.update key (Value.put rest w.content.place)

def below (key : String) (w : Write) : Option Write :=
  match w.path with
  | [] => none
  | head :: rest => if head = key then some ⟨rest, w.content⟩ else none

/-- The place is replaced as a whole, whatever it holds. -/
def replaces (w : Write) : Bool :=
  match w.path, w.content with
  | [], .leaf _ => true
  | _, _ => false

theorem apply_of_replaces {w : Write} (h : w.replaces = true) (a b : Option Value) :
    w.apply a = w.apply b := by
  obtain ⟨path, content⟩ := w
  cases path with
  | nil =>
    cases content with
    | leaf value => rfl
    | object => simp [replaces] at h
  | cons key rest => simp [replaces] at h

theorem apply_of_not_replaces {w : Write} (h : w.replaces = false) (place : Option Value) :
    w.apply place = .object (w.step (placeEntries place)) := by
  obtain ⟨path, content⟩ := w
  cases path with
  | nil =>
    cases content with
    | leaf value => simp [replaces] at h
    | object => rfl
  | cons key rest => rfl

theorem length_below {w v : Write} {key : String} (h : w.below key = some v) :
    w.path.length = v.path.length + 1 := by
  obtain ⟨path, content⟩ := w
  cases path with
  | nil => simp [below] at h
  | cons head rest =>
    simp only [below] at h
    split at h
    · cases h
      rfl
    · simp at h

end Write

def stepAll (writes : List Write) (doc : Document) : Document :=
  writes.foldl (fun doc w => w.step doc) doc

@[simp] theorem stepAll_cons (w : Write) (writes : List Write) (doc : Document) :
    stepAll (w :: writes) doc = stepAll writes (w.step doc) := rfl

theorem replay_eq_object {writes : List Write} (h : ∀ w ∈ writes, w.replaces = false)
    (hne : writes ≠ []) (place : Option Value) :
    replay writes place = some (.object (stepAll writes (placeEntries place))) := by
  induction writes generalizing place with
  | nil => exact absurd rfl hne
  | cons w rest ih =>
    rw [List.forall_mem_cons] at h
    rw [replay_cons, Write.apply_of_not_replaces h.1, stepAll_cons]
    cases rest with
    | nil => rfl
    | cons next rest =>
      rw [ih h.2 (by simp), placeEntries_object]

/-- After a write that replaces its place, nothing is left of what was there. -/
theorem replay_eq_of_replaces {writes : List Write} {w : Write} (hw : w ∈ writes)
    (h : w.replaces = true) (a b : Option Value) : replay writes a = replay writes b := by
  obtain ⟨before, after, rfl⟩ := List.append_of_mem hw
  rw [replay_append, replay_append, replay_cons, replay_cons, w.apply_of_replaces h]

/-- An entry changes by the writes that go into it. -/
theorem get?_stepAll (writes : List Write) (doc : Document) (key : String) :
    (stepAll writes doc).get? key = replay (writes.filterMap (·.below key)) (doc.get? key) := by
  induction writes generalizing doc with
  | nil => rfl
  | cons w rest ih =>
    obtain ⟨path, content⟩ := w
    rw [stepAll_cons, ih]
    cases path with
    | nil => rfl
    | cons head tail =>
      simp only [Write.step, Document.get?_update]
      by_cases hk : head = key
      · subst hk
        simp [Write.below, Write.apply]
      · simp [Write.below, hk]

theorem nodup_stepAll {doc : Document} (writes : List Write) (h : doc.keys.Nodup) :
    (stepAll writes doc).keys.Nodup := by
  induction writes generalizing doc with
  | nil => exact h
  | cons w rest ih =>
    obtain ⟨path, content⟩ := w
    cases path with
    | nil => exact ih h
    | cons head tail => exact ih (Document.nodup_update head _ h)

theorem keys_subset_stepAll (writes : List Write) (doc : Document) :
    doc.keys ⊆ (stepAll writes doc).keys := by
  induction writes generalizing doc with
  | nil => exact List.Subset.refl _
  | cons w rest ih =>
    obtain ⟨path, content⟩ := w
    cases path with
    | nil => exact ih doc
    | cons head tail => exact List.Subset.trans (Document.keys_subset_update doc head _) (ih _)

theorem head_mem_keys_stepAll {writes : List Write} {w : Write} (hw : w ∈ writes)
    {head : String} {rest : List String} (hp : w.path = head :: rest) (doc : Document) :
    head ∈ (stepAll writes doc).keys := by
  obtain ⟨before, after, rfl⟩ := List.append_of_mem hw
  rw [stepAll, List.foldl_append, List.foldl_cons]
  apply keys_subset_stepAll after
  simp only [Write.step, hp]
  exact Document.mem_keys_update _ _ _

theorem keys_stepAll_of_mem {writes : List Write} {doc : Document}
    (h : ∀ w ∈ writes, ∀ head rest, w.path = head :: rest → head ∈ doc.keys) :
    (stepAll writes doc).keys = doc.keys := by
  induction writes generalizing doc with
  | nil => rfl
  | cons w rest ih =>
    rw [List.forall_mem_cons] at h
    obtain ⟨path, content⟩ := w
    cases path with
    | nil => exact ih h.2
    | cons head tail =>
      have hkeys : (Document.update doc head (Value.put tail content.place)).keys = doc.keys := by
        rw [Document.keys_update, if_pos (h.1 head tail rfl)]
      rw [stepAll_cons, Write.step, ih (by simpa only [hkeys] using h.2), hkeys]

/-- Writing the same things twice changes nothing. The induction is on a bound of the paths. -/
theorem replay_replay_of_lt (n : Nat) (writes : List Write) (h : ∀ w ∈ writes, w.path.length < n)
    (place : Option Value) (hp : ∀ value, place = some value → value.WellFormed) :
    replay writes (replay writes place) = replay writes place := by
  induction n generalizing writes place with
  | zero =>
    cases writes with
    | nil => rfl
    | cons w rest => exact absurd (h w List.mem_cons_self) (Nat.not_lt_zero _)
  | succ n ih =>
    by_cases hr : ∃ w ∈ writes, w.replaces = true
    · -- what such a write finds does not matter
      obtain ⟨w, hw, hrep⟩ := hr
      exact replay_eq_of_replaces hw hrep _ _
    · by_cases hne : writes = []
      · subst hne
        rfl
      have hno : ∀ w ∈ writes, w.replaces = false := by
        intro w hw
        simpa using fun hrep => hr ⟨w, hw, hrep⟩
      have hdoc : (placeEntries place).WellFormed := placeEntries_wellFormed hp
      rw [replay_eq_object hno hne place, replay_eq_object hno hne, placeEntries_object]
      refine congrArg (fun doc => some (Value.object doc)) (Document.ext_get? ?_ ?_ ?_)
      · exact nodup_stepAll _ (nodup_stepAll _ ((Document.wellFormed_iff _).mp hdoc).1)
      · exact keys_stepAll_of_mem fun w hw head rest hpath => head_mem_keys_stepAll hw hpath _
      · -- an entry is replayed by the writes below it, whose paths are shorter
        intro key
        rw [get?_stepAll, get?_stepAll]
        refine ih _ ?_ _ fun value hv => hdoc.get? hv
        intro v hv
        obtain ⟨w, hw, hbelow⟩ := List.mem_filterMap.mp hv
        have := h w hw
        have := Write.length_below hbelow
        omega

theorem replay_replay (writes : List Write) {place : Option Value}
    (hp : ∀ value, place = some value → value.WellFormed) :
    replay writes (replay writes place) = replay writes place := by
  refine replay_replay_of_lt ((writes.map (·.path.length)).max?.getD 0 + 1) writes ?_ place hp
  intro w hw
  exact Nat.lt_succ_of_le (List.le_max?_getD_of_mem (List.mem_map_of_mem hw))

/-- Fragments that have been merged can be merged once more without any effect. -/
theorem Document.mergeAll_mergeAll (doc : Document) (hd : doc.WellFormed)
    (parts : List (Strategy × Document)) (h : ∀ part ∈ parts, part.2.WellFormed) :
    (doc.mergeAll parts).mergeAll parts = doc.mergeAll parts := by
  have hplace : ∀ value, some (Value.object doc) = some value → value.WellFormed := by
    rintro value ⟨⟩
    exact hd
  have htwice := replay_replay (parts.flatMap fun part => part.1.writes part.2) hplace
  rw [doc.replay_mergeAll parts h, Document.replay_mergeAll _ parts h] at htwice
  simpa using htwice

end FilterQuery
