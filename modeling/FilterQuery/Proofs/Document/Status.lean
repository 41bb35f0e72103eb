import FilterQuery.Proofs.Document.Writes

/-! Documents as maps from paths to what stands there. Main statement: after a merge the last write
that touches a path decides what the path leads to, and paths that no write touches keep theirs. -/
namespace FilterQuery

/-- What a path leads to: nothing, a value that is not an object, or an object. -/
inductive Status where
  | absent
  | leaf (value : Value)
  | object

def placeStatus : Option Value → List String → Status
  | none, _ => .absent
  | some (.object _), [] => .object
  | some (.object entries), key :: rest => placeStatus (Document.get? entries key) rest
  | some value, [] => .leaf value
  | some _, _ :: _ => .absent

def Document.status (doc : Document) (path : List String) : Status :=
  placeStatus (some (.object doc)) path

def Content.status : Content → Status
  | .leaf value => .leaf value
  | .object => .object

namespace Write

/-- A write touches the places on the way to its own; one that sets a leaf also touches all below. -/
def touches (w : Write) (path : List String) : Bool :=
  path.isPrefixOf w.path ||
    match w.content with
    | .leaf _ => w.path.isPrefixOf path
    | .object => false

/-- What a write makes of a path it touches: places on the way become objects, its own place gets the
content, and nothing is left below a leaf. -/
def effect (w : Write) (path : List String) : Status :=
  if path = w.path then w.content.status
  else if path.isPrefixOf w.path then .object
  else .absent

end Write

def Content.IsPlain : Content → Prop
  | .leaf value => value.asObject? = none
  | .object => True

theorem placeStatus_nil_leaf {value : Value} (h : value.asObject? = none) :
    placeStatus (some value) [] = .leaf value := by
  cases value with
  | object entries => simp [Value.asObject?] at h
  | _ => rfl

theorem placeStatus_cons (place : Option Value) (key : String) (rest : List String) :
    placeStatus place (key :: rest) = placeStatus ((placeEntries place).get? key) rest := by
  cases place with
  | none => simp [placeStatus]
  | some value => cases value <;> simp [placeStatus, placeEntries, Value.asObject?]

theorem placeStatus_place (content : Content) (place : Option Value) (path : List String)
    (h : content.IsPlain) :
    placeStatus (some (content.place place)) path =
      if Write.touches ⟨[], content⟩ path then Write.effect ⟨[], content⟩ path
      else placeStatus place path := by
  cases content with
  | leaf value =>
    have hv : value.asObject? = none := h
    cases path with
    | nil => simp [Content.place, placeStatus_nil_leaf hv, Write.touches, Write.effect, Content.status]
    | cons key rest =>
      simp [Content.place, placeStatus_cons, placeEntries_leaf hv, Write.touches, Write.effect,
        placeStatus]
  | object =>
    cases path with
    | nil => simp [Content.place, placeStatus, Write.touches, Write.effect, Content.status]
    | cons key rest => simp [Content.place, placeStatus_cons, Write.touches]

/-- One write decides the paths it touches and leaves all others as they were. -/
theorem placeStatus_apply (w : Write) (h : w.content.IsPlain) (place : Option Value)
    (path : List String) :
    placeStatus (some (w.apply place)) path =
      if w.touches path then w.effect path else placeStatus place path := by
  obtain ⟨target, content⟩ := w
  induction target generalizing place path with
  | nil => exact placeStatus_place content place path h
  | cons key rest ih =>
    cases path with
    | nil => simp [Write.apply, Value.put, placeStatus, Write.touches, Write.effect]
    | cons other path =>
      have hstep := ih ((placeEntries place).get? key) path h
      simp only [Write.apply] at hstep ⊢
      rw [Value.put, placeStatus_cons, placeEntries_object, Document.get?_update, placeStatus_cons]
      by_cases hk : key = other
      · subst hk
        rw [if_pos rfl, hstep]
        cases content <;> simp [Write.touches, Write.effect]
      · rw [if_neg hk]
        cases content <;> simp [Write.touches, hk, Ne.symm hk]

/-- The last of several writes that touches a path decides it. -/
theorem placeStatus_replay (writes : List Write) (h : ∀ w ∈ writes, w.content.IsPlain)
    (place : Option Value) (path : List String) :
    placeStatus (replay writes place) path =
      match (writes.filter (·.touches path)).getLast? with
      | some w => w.effect path
      | none => placeStatus place path := by
  induction writes generalizing place with
  | nil => rfl
  | cons w rest ih =>
    rw [List.forall_mem_cons] at h
    rw [replay_cons, ih h.2, placeStatus_apply w h.1, List.filter_cons]
    by_cases hw : w.touches path
    · simp only [hw, if_true, List.getLast?_cons]
      cases (rest.filter (·.touches path)).getLast? <;> rfl
    · simp only [hw, if_false, Bool.false_eq_true]

theorem Value.isPlain_of_mem_writes (value : Value) (path : List String) :
    ∀ w ∈ value.writes path, w.content.IsPlain := by
  induction value using Value.induct generalizing path with
  | leaf value hv =>
    rw [writes_leaf path hv]
    simpa [Content.IsPlain] using hv
  | object entries ih =>
    rw [Value.writes]
    refine List.forall_mem_cons.mpr ⟨trivial, ?_⟩
    induction entries with
    | nil => simp [entryWrites]
    | cons entry rest ihrest =>
      obtain ⟨key, value⟩ := entry
      rw [List.forall_mem_cons] at ih
      rw [entryWrites]
      exact List.forall_mem_append.mpr ⟨ih.1 _, ihrest ih.2⟩

theorem Strategy.isPlain_of_mem_writes (strategy : Strategy) (fragment : Document) :
    ∀ w ∈ strategy.writes fragment, w.content.IsPlain := by
  intro w hw
  obtain ⟨entry, -, hmem⟩ := List.mem_flatMap.mp hw
  exact entry.2.isPlain_of_mem_writes _ w hmem

/-- Last write wins, and nothing else changes: after a merge, a path that some write of the fragment
touches is as the last such write leaves it, and all other paths are as they were. -/
theorem status_merge (doc fragment : Document) (h : fragment.WellFormed) (strategy : Strategy)
    (path : List String) :
    (doc.merge strategy fragment).status path =
      match ((strategy.writes fragment).filter (·.touches path)).getLast? with
      | some w => w.effect path
      | none => doc.status path := by
  have hreplay := doc.replay_merge strategy fragment ((Document.wellFormed_iff fragment).mp h).2
  rw [Document.status, ← hreplay]
  exact placeStatus_replay _ (strategy.isPlain_of_mem_writes fragment) _ path

theorem status_merge_overwritten :
    Document.WellFormed [("a.b", .object [("c", .null)]), ("a", .bool true)] ∧
      (Document.merge [("a", .null)] .dotted
        [("a.b", .object [("c", .null)]), ("a", .bool true)]).status ["a", "b"] = .absent := by
  have h : Document.WellFormed [("a.b", .object [("c", .null)]), ("a", .bool true)] := by
    simp [Document.wellFormed_iff, Value.WellFormed, entriesWellFormed, Document.keys]
  exact ⟨h, (status_merge _ _ h .dotted ["a", "b"]).trans (by rfl)⟩

end FilterQuery
