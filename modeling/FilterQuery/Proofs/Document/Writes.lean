import FilterQuery.Proofs.Document.Entries

/-! A merge as a row of writes at paths. Each leaf of a fragment is set, each object of it is ensured,
and the last write that touches a path decides what the path leads to. -/
namespace FilterQuery

/-- Values by the objects they consist of. Arrays are leaves: a merge does not look into them. -/
theorem Value.induct {P : Value → Prop} (leaf : ∀ value, value.asObject? = none → P value)
    (object : ∀ entries, (∀ entry ∈ entries, P entry.2) → P (.object entries)) (value : Value) :
    P value :=
  inductNested (leaf _ rfl) (leaf _ rfl) (fun _ => leaf _ rfl) (fun _ => leaf _ rfl)
    (fun _ => leaf _ rfl) (fun _ _ => leaf _ rfl) object value

/-! ### Places -/

def placeEntries (place : Option Value) : Document :=
  (place.bind Value.asObject?).getD []

@[simp] theorem placeEntries_none : placeEntries none = [] := rfl

@[simp] theorem placeEntries_object (entries : Document) :
    placeEntries (some (.object entries)) = entries := rfl

theorem placeEntries_leaf {value : Value} (h : value.asObject? = none) :
    placeEntries (some value) = [] := by
  simp [placeEntries, h]

/-- Changes what a path below a place leads to. What is not an object on the way becomes one. -/
def Value.put : List String → (Option Value → Value) → Option Value → Value
  | [], f, place => f place
  | key :: rest, f, place => .object ((placeEntries place).update key (put rest f))

namespace Value

theorem put_append (p q : List String) (f : Option Value → Value) :
    put (p ++ q) f = put p (put q f) := by
  induction p with
  | nil => rfl
  | cons key rest ih => funext place; simp [put, ih]

theorem put_put (p : List String) (f g : Option Value → Value) (place : Option Value) :
    put p g (some (put p f place)) = put p (fun old => g (some (f old))) place := by
  induction p generalizing place with
  | nil => rfl
  | cons key rest ih =>
    simp only [put, placeEntries_object, Document.update_update, ih]

theorem mergeOver_none (value : Value) : value.mergeOver none = value := by
  rw [mergeOver]
  simp

theorem mergeOver_leaf {value : Value} (h : value.asObject? = none) (old : Option Value) :
    value.mergeOver old = value := by
  cases value with
  | object entries => simp [asObject?] at h
  | _ => rfl

end Value

theorem mergeEntries_of_disjoint {entries : List (String × Value)} {doc : Document}
    (hn : (Document.keys entries).Nodup) (hd : ∀ key ∈ Document.keys entries, key ∉ doc.keys) :
    mergeEntries entries doc = doc ++ entries := by
  induction entries generalizing doc with
  | nil => simp [mergeEntries]
  | cons entry rest ih =>
    obtain ⟨key, value⟩ := entry
    simp only [Document.keys_cons, List.nodup_cons, List.forall_mem_cons] at hn hd
    have hnew : doc.update key value.mergeOver = doc ++ [(key, value)] := by
      rw [Document.update_of_not_mem _ hd.1, Value.mergeOver_none]
    rw [mergeEntries, hnew, ih hn.2]
    · simp
    · intro other ho
      simp only [Document.keys, List.map_append, List.mem_append, not_or] at hd ⊢
      exact ⟨hd.2 other ho, by simpa using ne_of_mem_of_not_mem ho hn.1⟩

theorem Value.mergeOver_object {entries : List (String × Value)} (old : Option Value)
    (h : (Document.keys entries).Nodup) :
    (Value.object entries).mergeOver old = .object (mergeEntries entries (placeEntries old)) := by
  have hfresh : mergeEntries entries [] = entries :=
    mergeEntries_of_disjoint h fun _ _ => List.not_mem_nil
  cases old with
  | none => simp [mergeOver, hfresh]
  | some value =>
    cases value with
    | object old => simp [mergeOver]
    | _ => simp [mergeOver, placeEntries, asObject?, hfresh]

theorem Document.object_setPath (doc : Document) {path : List String} (value : Value)
    (h : path ≠ []) :
    Value.object (doc.setPath path value) = Value.put path value.mergeOver (some (.object doc)) := by
  induction path generalizing doc with
  | nil => exact absurd rfl h
  | cons key rest ih =>
    cases rest with
    | nil => rfl
    | cons next rest =>
      have hstep : ∀ old : Option Value,
          Value.object (Document.setPath (placeEntries old) (next :: rest) value) =
            Value.put (next :: rest) value.mergeOver old := by
        intro old
        rw [ih _ (by simp)]
        simp [Value.put]
      simp only [Document.setPath, Value.put, placeEntries_object] at hstep ⊢
      simp only [← hstep]
      rfl

theorem Document.setPath_cons (doc : Document) (key : String) (rest : List String) (value : Value) :
    doc.setPath (key :: rest) value = doc.update key (Value.put rest value.mergeOver) :=
  Value.object.inj (doc.object_setPath value (List.cons_ne_nil key rest))

/-! ### Writes -/

/-- What a write leaves at its path: a value that is not an object, or an object, be it the one that
is already there. -/
inductive Content where
  | leaf (value : Value)
  | object

structure Write where
  path : List String
  content : Content

def Content.place : Content → Option Value → Value
  | .leaf value, _ => value
  | .object, old => .object (placeEntries old)

def Write.apply (w : Write) (place : Option Value) : Value :=
  Value.put w.path w.content.place place

def replay (writes : List Write) (place : Option Value) : Option Value :=
  writes.foldl (fun place w => some (w.apply place)) place

@[simp] theorem replay_nil (place : Option Value) : replay [] place = place := rfl

@[simp] theorem replay_cons (w : Write) (writes : List Write) (place : Option Value) :
    replay (w :: writes) place = replay writes (some (w.apply place)) := rfl

theorem replay_append (a b : List Write) (place : Option Value) :
    replay (a ++ b) place = replay b (replay a place) :=
  List.foldl_append

mutual

/-- The writes of a value at a path: an object is ensured before the writes of its entries. -/
def Value.writes (path : List String) : Value → List Write
  | .object entries => ⟨path, .object⟩ :: entryWrites path entries
  | value => [⟨path, .leaf value⟩]

def entryWrites (path : List String) : List (String × Value) → List Write
  | [] => []
  | (key, value) :: rest => value.writes (path ++ [key]) ++ entryWrites path rest

end

theorem segments_of_no_dot {key : String} (h : '.' ∉ key.toList) : segments key = [key] := by
  simp [segments, List.splitOn_eq_singleton h]

theorem Document.merge_single (doc : Document) {key : String} (h : '.' ∉ key.toList) (value : Value) :
    doc.merge .dotted (.single key value) = doc.update key value.mergeOver := by
  simp only [merge, single, List.foldl_cons, List.foldl_nil, segments_of_no_dot h, setPath]

def Strategy.path : Strategy → String → List String
  | .dotted, key => segments key
  | .literal, key => [key]

def Strategy.writes (strategy : Strategy) (fragment : Document) : List Write :=
  fragment.flatMap fun entry => entry.2.writes (strategy.path entry.1)

theorem Strategy.path_ne_nil (strategy : Strategy) (key : String) : strategy.path key ≠ [] := by
  cases strategy with
  | dotted => simp [Strategy.path, segments]
  | literal => simp [Strategy.path]

theorem Document.merge_eq_foldl (doc : Document) (strategy : Strategy) (fragment : Document) :
    doc.merge strategy fragment =
      fragment.foldl (fun doc entry => doc.setPath (strategy.path entry.1) entry.2) doc := by
  cases strategy with
  | dotted => rfl
  | literal =>
    rw [merge, deepMerge]
    induction fragment generalizing doc with
    | nil => rfl
    | cons entry rest ih => exact ih (doc.update entry.1 entry.2.mergeOver)

/-- What holds of a document and stays true with each path that is set holds after a merge. -/
theorem Document.merge_induct {P : Document → Prop} {strategy : Strategy} {fragment doc : Document}
    (h : P doc)
    (hstep : ∀ entry ∈ fragment, ∀ doc, P doc → P (doc.setPath (strategy.path entry.1) entry.2)) :
    P (doc.merge strategy fragment) := by
  rw [merge_eq_foldl]
  exact List.foldlRecOn fragment _ h fun doc hdoc entry hentry => hstep entry hentry doc hdoc

theorem Value.writes_leaf {value : Value} (path : List String) (h : value.asObject? = none) :
    value.writes path = [⟨path, .leaf value⟩] := by
  cases value with
  | object entries => simp [asObject?] at h
  | _ => rfl

theorem Value.replay_writes (value : Value) (h : value.WellFormed) (path : List String)
    (place : Option Value) :
    replay (value.writes path) place = some (Value.put path value.mergeOver place) := by
  induction value using Value.induct generalizing path place with
  | leaf value hv =>
    have hm : value.mergeOver = fun _ => value := funext (mergeOver_leaf hv)
    rw [writes_leaf path hv, hm]
    rfl
  | object entries ih =>
    obtain ⟨hn, he⟩ := h
    have hm : (Value.object entries).mergeOver =
        fun old => .object (mergeEntries entries (placeEntries old)) :=
      funext fun old => mergeOver_object old hn
    rw [hm, Value.writes, replay_cons]
    clear hn hm
    -- `g` is what the entries that have been written so far make of the old ones
    suffices ∀ g : Document → Document,
        replay (entryWrites path entries)
            (some (Value.put path (fun old => .object (g (placeEntries old))) place)) =
          some (Value.put path
            (fun old => .object (mergeEntries entries (g (placeEntries old)))) place) from this id
    induction entries with
    | nil => exact fun g => rfl
    | cons entry rest ihrest =>
      intro g
      obtain ⟨key, value⟩ := entry
      obtain ⟨hvalue, hrest⟩ := he
      rw [List.forall_mem_cons] at ih
      rw [entryWrites, replay_append, ih.1 hvalue, put_append, put_put]
      simp only [put, placeEntries_object]
      exact ihrest ih.2 hrest fun old => (g old).update key value.mergeOver

/-- A merge replays the writes of the fragment, keys in the same order. -/
theorem Document.replay_merge (doc : Document) (strategy : Strategy) (fragment : Document)
    (h : ∀ entry ∈ fragment, entry.2.WellFormed) :
    replay (strategy.writes fragment) (some (.object doc)) =
      some (.object (doc.merge strategy fragment)) := by
  have hentry : ∀ (doc : Document) (entry : String × Value), entry.2.WellFormed →
      replay (entry.2.writes (strategy.path entry.1)) (some (.object doc)) =
        some (.object (doc.setPath (strategy.path entry.1) entry.2)) := by
    intro doc entry hw
    rw [Value.replay_writes _ hw, Document.object_setPath _ _ (strategy.path_ne_nil _)]
  induction fragment generalizing doc with
  | nil => cases strategy <;> rfl
  | cons entry rest ih =>
    rw [List.forall_mem_cons] at h
    rw [Strategy.writes, List.flatMap_cons, replay_append, hentry doc entry h.1]
    have hrest := ih (doc.setPath (strategy.path entry.1) entry.2) h.2
    cases strategy with
    | dotted => exact hrest
    | literal => exact hrest

def Document.mergeAll (doc : Document) (parts : List (Strategy × Document)) : Document :=
  parts.foldl (fun doc part => doc.merge part.1 part.2) doc

theorem Document.replay_mergeAll (doc : Document) (parts : List (Strategy × Document))
    (h : ∀ part ∈ parts, part.2.WellFormed) :
    replay (parts.flatMap fun part => part.1.writes part.2) (some (.object doc)) =
      some (.object (doc.mergeAll parts)) := by
  induction parts generalizing doc with
  | nil => rfl
  | cons part rest ih =>
    rw [List.forall_mem_cons] at h
    rw [List.flatMap_cons, replay_append,
      doc.replay_merge part.1 part.2 ((Document.wellFormed_iff part.2).mp h.1).2, ih _ h.2]
    rfl

/-! ### Merging keeps keys apart -/

theorem placeEntries_wellFormed {place : Option Value} (h : ∀ value ∈ place, value.WellFormed) :
    (placeEntries place).WellFormed := by
  cases place with
  | none => exact Document.wellFormed_nil
  | some value =>
    cases value with
    | object entries => exact h _ rfl
    | _ => exact Document.wellFormed_nil

theorem Value.wellFormed_put {f : Option Value → Value}
    (hf : ∀ place, (∀ value ∈ place, value.WellFormed) → (f place).WellFormed) (path : List String)
    {place : Option Value} (h : ∀ value ∈ place, value.WellFormed) :
    (Value.put path f place).WellFormed := by
  induction path generalizing place with
  | nil => exact hf place h
  | cons key rest ih =>
    have hentries := placeEntries_wellFormed h
    exact hentries.update (ih fun value hv => hentries.get? hv)

theorem Value.WellFormed.mergeOver {value : Value} (h : value.WellFormed) {place : Option Value}
    (hp : ∀ old ∈ place, old.WellFormed) : (value.mergeOver place).WellFormed := by
  induction value using Value.induct generalizing place with
  | leaf value hv => rwa [mergeOver_leaf hv]
  | object entries ih =>
    obtain ⟨hn, he⟩ := h
    rw [mergeOver_object place hn]
    suffices ∀ doc : Document, doc.WellFormed → (mergeEntries entries doc).WellFormed from
      this _ (placeEntries_wellFormed hp)
    clear hn hp
    induction entries with
    | nil => exact fun doc hd => hd
    | cons entry rest ihrest =>
      obtain ⟨key, value⟩ := entry
      obtain ⟨hvalue, hrest⟩ := he
      rw [List.forall_mem_cons] at ih
      intro doc hd
      exact ihrest ih.2 hrest _ (hd.update (ih.1 hvalue fun old hold => hd.get? hold))

theorem Document.WellFormed.merge {doc : Document} (h : doc.WellFormed) (strategy : Strategy)
    {fragment : Document} (hf : ∀ entry ∈ fragment, entry.2.WellFormed) :
    (doc.merge strategy fragment).WellFormed := by
  refine Document.merge_induct h fun entry hentry doc hdoc => ?_
  rw [Document.WellFormed, Document.object_setPath _ _ (strategy.path_ne_nil _)]
  refine Value.wellFormed_put (fun _ => (hf entry hentry).mergeOver) _ ?_
  rintro value ⟨⟩
  exact hdoc

theorem Document.WellFormed.mergeAll {doc : Document} (h : doc.WellFormed)
    {parts : List (Strategy × Document)} (hparts : ∀ part ∈ parts, part.2.WellFormed) :
    (doc.mergeAll parts).WellFormed := by
  induction parts generalizing doc with
  | nil => exact h
  | cons part rest ih =>
    rw [List.forall_mem_cons] at hparts
    exact ih (h.merge part.1 ((Document.wellFormed_iff _).mp hparts.1).2) hparts.2

end FilterQuery
