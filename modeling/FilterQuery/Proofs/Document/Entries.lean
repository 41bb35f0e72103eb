import FilterQuery.Document.Merge
import Mathlib.Data.List.Nodup

/-! Entries of documents: what an update does to keys and values, and documents in which no object
has a key twice. -/
namespace FilterQuery

theorem Value.inductNested {P : Value → Prop} (undefined : P .undefined) (null : P .null)
    (bool : ∀ b, P (.bool b)) (number : ∀ n, P (.number n)) (string : ∀ s, P (.string s))
    (array : ∀ items, (∀ item ∈ items, P item) → P (.array items))
    (object : ∀ entries, (∀ entry ∈ entries, P entry.2) → P (.object entries)) (value : Value) :
    P value :=
  @Value.rec P (fun items => ∀ item ∈ items, P item) (fun entries => ∀ entry ∈ entries, P entry.2)
    (fun entry => P entry.2) undefined null bool number string array object (by simp)
    (fun _ _ hitem hrest => List.forall_mem_cons.mpr ⟨hitem, hrest⟩) (by simp)
    (fun _ _ hentry hrest => List.forall_mem_cons.mpr ⟨hentry, hrest⟩) (fun _ _ ih => ih) value

namespace Document

@[simp] theorem get?_nil (key : String) : get? [] key = none := rfl

@[simp] theorem keys_nil : keys [] = [] := rfl

@[simp] theorem keys_cons (entry : String × Value) (rest : Document) :
    keys (entry :: rest) = entry.1 :: keys rest := rfl

theorem get?_update (doc : Document) (key other : String) (f : Option Value → Value) :
    (doc.update key f).get? other =
      if key = other then some (f (doc.get? key)) else doc.get? other := by
  induction doc with
  | nil => simp [update, get?]
  | cons entry rest ih =>
    obtain ⟨k, v⟩ := entry
    by_cases hk : k = key
    · subst hk
      by_cases ho : k = other <;> simp [update, get?, ho]
    · by_cases ho : key = other
      · subst ho
        simpa [update, get?, hk] using ih
      · simp only [if_neg ho] at ih ⊢
        simp [update, get?, hk, ih]

/-- A key that is there keeps its place, and a new one goes to the end. -/
theorem keys_update (doc : Document) (key : String) (f : Option Value → Value) :
    (doc.update key f).keys = if key ∈ doc.keys then doc.keys else doc.keys ++ [key] := by
  induction doc with
  | nil => simp [update]
  | cons entry rest ih =>
    obtain ⟨k, v⟩ := entry
    by_cases hk : k = key
    · simp [update, hk]
    · simp only [update, if_neg hk, keys_cons, ih, List.mem_cons, Ne.symm hk, false_or]
      split <;> simp

theorem mem_keys_update (doc : Document) (key : String) (f : Option Value → Value) :
    key ∈ (doc.update key f).keys := by
  rw [keys_update]
  split <;> simp_all

theorem keys_subset_update (doc : Document) (key : String) (f : Option Value → Value) :
    doc.keys ⊆ (doc.update key f).keys := by
  rw [keys_update]
  split <;> simp

theorem nodup_update {doc : Document} (key : String) (f : Option Value → Value)
    (h : doc.keys.Nodup) : (doc.update key f).keys.Nodup := by
  rw [keys_update]
  split
  · exact h
  · rename_i hk
    exact List.nodup_append.mpr ⟨h, by simp, by simpa using fun a ha => ne_of_mem_of_not_mem ha hk⟩

theorem update_of_not_mem {doc : Document} {key : String} (f : Option Value → Value)
    (h : key ∉ doc.keys) : doc.update key f = doc ++ [(key, f none)] := by
  induction doc with
  | nil => rfl
  | cons entry rest ih =>
    obtain ⟨k, v⟩ := entry
    simp only [keys_cons, List.mem_cons, not_or] at h
    simp [update, Ne.symm h.1, ih h.2]

theorem forall_mem_update {P : String × Value → Prop} {doc : Document} (h : ∀ entry ∈ doc, P entry)
    {key : String} {f : Option Value → Value} (hf : P (key, f (doc.get? key))) :
    ∀ entry ∈ doc.update key f, P entry := by
  induction doc with
  | nil => simpa [update] using hf
  | cons entry rest ih =>
    obtain ⟨k, v⟩ := entry
    rw [List.forall_mem_cons] at h
    by_cases hk : k = key
    · subst hk
      rw [get?, if_pos rfl] at hf
      rw [update, if_pos rfl]
      exact List.forall_mem_cons.mpr ⟨hf, h.2⟩
    · rw [get?, if_neg hk] at hf
      rw [update, if_neg hk]
      exact List.forall_mem_cons.mpr ⟨h.1, ih h.2 hf⟩

/-- Entries with different keys make up a document as they are. -/
theorem ofEntries_of_nodup {entries : List (String × Value)} (h : (keys entries).Nodup) :
    ofEntries entries = entries := by
  suffices ∀ doc : Document, (doc ++ entries).keys.Nodup →
      entries.foldl (fun doc entry => Document.insert doc entry.1 entry.2) doc = doc ++ entries from
    this [] h
  clear h
  induction entries with
  | nil => simp
  | cons entry rest ih =>
    intro doc hn
    have hsplit : doc ++ entry :: rest = (doc ++ [entry]) ++ rest := by simp
    have hnew : entry.1 ∉ doc.keys := by
      simp only [keys, List.map_append, List.map_cons] at hn ⊢
      exact fun hmem => (List.nodup_append.mp hn).2.2 _ hmem _ List.mem_cons_self rfl
    rw [List.foldl_cons, insert, update_of_not_mem _ hnew, hsplit]
    exact ih _ (hsplit ▸ hn)

theorem forall_mem_ofEntries {P : String × Value → Prop} {entries : List (String × Value)}
    (h : ∀ entry ∈ entries, P entry) : ∀ entry ∈ ofEntries entries, P entry :=
  List.foldlRecOn (motive := fun doc => ∀ entry ∈ doc, P entry) entries _ (by simp)
    fun _ hdoc entry hentry => forall_mem_update hdoc (h entry hentry)

theorem nodup_ofEntries (entries : List (String × Value)) : (ofEntries entries).keys.Nodup :=
  List.foldlRecOn (motive := fun doc : Document => doc.keys.Nodup) entries _ List.nodup_nil
    fun _ hdoc entry _ => nodup_update entry.1 _ hdoc

theorem update_update (doc : Document) (key : String) (f g : Option Value → Value) :
    (doc.update key f).update key g = doc.update key fun old => g (some (f old)) := by
  induction doc with
  | nil => simp [update]
  | cons entry rest ih =>
    obtain ⟨k, v⟩ := entry
    by_cases hk : k = key <;> simp [update, hk, ih]

theorem get?_eq_none_iff (doc : Document) (key : String) :
    doc.get? key = none ↔ key ∉ doc.keys := by
  induction doc with
  | nil => simp
  | cons entry rest ih =>
    obtain ⟨k, v⟩ := entry
    by_cases hk : k = key
    · simp [get?, hk]
    · simp [get?, hk, ih, Ne.symm hk]

theorem get?_mem {doc : Document} {key : String} {value : Value}
    (h : doc.get? key = some value) : (key, value) ∈ doc := by
  induction doc with
  | nil => simp at h
  | cons entry rest ih =>
    obtain ⟨k, v⟩ := entry
    by_cases hk : k = key
    · simp_all [get?]
    · simp only [get?, if_neg hk] at h
      exact List.mem_cons_of_mem _ (ih h)

theorem get?_of_mem {doc : Document} {key : String} {value : Value} (hn : doc.keys.Nodup)
    (h : (key, value) ∈ doc) : doc.get? key = some value := by
  induction doc with
  | nil => simp at h
  | cons entry rest ih =>
    obtain ⟨k, v⟩ := entry
    rw [keys_cons, List.nodup_cons] at hn
    obtain heq | hrest := List.mem_cons.mp h
    · obtain ⟨rfl, rfl⟩ := Prod.mk.inj heq
      simp [get?]
    · have hkey : key ∈ keys rest := List.mem_map_of_mem hrest
      rw [get?, if_neg (ne_of_mem_of_not_mem hkey hn.1).symm]
      exact ih hn.2 hrest

/-- Documents without repeated keys are equal if their keys stand in one order and have the same
values. -/
theorem ext_get? {a b : Document} (ha : a.keys.Nodup) (hk : a.keys = b.keys)
    (hv : ∀ key, a.get? key = b.get? key) : a = b := by
  induction a generalizing b with
  | nil => exact (List.map_eq_nil_iff.mp hk.symm).symm
  | cons x xs ih =>
    cases b with
    | nil => simp at hk
    | cons y ys =>
      obtain ⟨k, v⟩ := x
      obtain ⟨l, w⟩ := y
      simp only [keys_cons, List.cons.injEq, List.nodup_cons] at hk ha
      obtain ⟨rfl, hkeys⟩ := hk
      have hhead : v = w := by simpa [get?] using hv k
      have htail : ∀ key, get? xs key = get? ys key := by
        intro key
        by_cases hkey : k = key
        · subst hkey
          rw [(get?_eq_none_iff xs k).mpr ha.1, (get?_eq_none_iff ys k).mpr (hkeys ▸ ha.1)]
        · simpa [get?, hkey] using hv key
      rw [hhead, ih ha.2 hkeys htail]

end Document

/-! ### Documents in which no key is repeated -/

mutual

/-- No object inside the value has a key twice. -/
def Value.WellFormed : Value → Prop
  | .array items => itemsWellFormed items
  | .object entries => (Document.keys entries).Nodup ∧ entriesWellFormed entries
  | _ => True

def itemsWellFormed : List Value → Prop
  | [] => True
  | item :: rest => item.WellFormed ∧ itemsWellFormed rest

def entriesWellFormed : List (String × Value) → Prop
  | [] => True
  | (_, value) :: rest => value.WellFormed ∧ entriesWellFormed rest

end

def Document.WellFormed (doc : Document) : Prop :=
  (Value.object doc).WellFormed

theorem itemsWellFormed_iff (items : List Value) :
    itemsWellFormed items ↔ ∀ item ∈ items, item.WellFormed := by
  induction items with
  | nil => simp [itemsWellFormed]
  | cons item rest ih => simp [itemsWellFormed, ih]

theorem entriesWellFormed_iff (entries : List (String × Value)) :
    entriesWellFormed entries ↔ ∀ entry ∈ entries, entry.2.WellFormed := by
  induction entries with
  | nil => simp [entriesWellFormed]
  | cons entry rest ih => simp [entriesWellFormed, ih]

theorem Value.wellFormed_array {items : List Value} (h : ∀ item ∈ items, item.WellFormed) :
    (Value.array items).WellFormed := by
  rw [Value.WellFormed]
  exact (itemsWellFormed_iff items).mpr h

theorem Document.wellFormed_iff (doc : Document) :
    doc.WellFormed ↔ doc.keys.Nodup ∧ ∀ entry ∈ doc, entry.2.WellFormed := by
  rw [Document.WellFormed, Value.WellFormed, entriesWellFormed_iff]

theorem Document.wellFormed_nil : Document.WellFormed [] := by
  simp [Document.wellFormed_iff]

theorem Document.WellFormed.get? {doc : Document} (h : doc.WellFormed) {key : String}
    {value : Value} (hv : doc.get? key = some value) : value.WellFormed :=
  ((Document.wellFormed_iff doc).mp h).2 _ (Document.get?_mem hv)

theorem Document.WellFormed.update {doc : Document} (h : doc.WellFormed) {key : String}
    {f : Option Value → Value} (hf : (f (doc.get? key)).WellFormed) :
    (doc.update key f).WellFormed := by
  obtain ⟨hn, hv⟩ := (Document.wellFormed_iff doc).mp h
  exact (Document.wellFormed_iff _).mpr
    ⟨Document.nodup_update key f hn, Document.forall_mem_update hv hf⟩

theorem Document.wellFormed_ofEntries {entries : List (String × Value)}
    (h : ∀ entry ∈ entries, entry.2.WellFormed) : (Document.ofEntries entries).WellFormed :=
  (Document.wellFormed_iff _).mpr
    ⟨Document.nodup_ofEntries entries, Document.forall_mem_ofEntries h⟩

end FilterQuery
