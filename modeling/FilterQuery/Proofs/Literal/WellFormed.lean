import FilterQuery.Literal
import FilterQuery.Proofs.Document.Entries

/-! Literals write documents in which no object has a key twice. -/
namespace FilterQuery.Literal

namespace Strict

/-- What is read with some fuel is well formed. -/
structure Reads (fuel : Nat) : Prop where
  value : ∀ {room cs r}, readValue? fuel room cs = some r → r.1.WellFormed
  items : ∀ {room cs r}, readItems? fuel room cs = some r → ∀ item ∈ r.1, item.WellFormed
  entries : ∀ {room cs r}, readEntries? fuel room cs = some r → ∀ entry ∈ r.1, entry.2.WellFormed

theorem reads_zero : Reads 0 where
  value h := by simp [readValue?] at h
  items h := by simp [readItems?] at h
  entries h := by simp [readEntries?] at h

theorem Reads.value_succ {fuel : Nat} (ih : Reads fuel) {room : Nat} {cs : List Char}
    {r : Value × List Char} (h : readValue? (fuel + 1) room cs = some r) : r.1.WellFormed := by
  rw [readValue?] at h
  split at h
  · cases h
    simp [Value.WellFormed]
  · cases h
    simp [Value.WellFormed]
  · cases h
    simp [Value.WellFormed]
  · obtain ⟨s, -, rfl⟩ := Option.map_eq_some_iff.mp h
    simp [Value.WellFormed]
  · split at h
    · cases h
    · split at h
      · cases h
        simp [Value.WellFormed, itemsWellFormed]
      · obtain ⟨items, hitems, rfl⟩ := Option.map_eq_some_iff.mp h
        exact Value.wellFormed_array (ih.items hitems)
  · split at h
    · cases h
    · split at h
      · cases h
        exact Document.wellFormed_nil
      · obtain ⟨entries, hentries, rfl⟩ := Option.map_eq_some_iff.mp h
        exact Document.wellFormed_ofEntries (ih.entries hentries)
  · obtain ⟨n, -, rfl⟩ := Option.map_eq_some_iff.mp h
    simp [Value.WellFormed]

theorem Reads.items_succ {fuel : Nat} (ih : Reads fuel) {room : Nat} {cs : List Char}
    {r : List Value × List Char} (h : readItems? (fuel + 1) room cs = some r) :
    ∀ item ∈ r.1, item.WellFormed := by
  rw [readItems?] at h
  split at h
  · cases h
  · rename_i item rest hitem
    have hvalue := ih.value hitem
    split at h
    · obtain ⟨items, hitems, rfl⟩ := Option.map_eq_some_iff.mp h
      exact List.forall_mem_cons.mpr ⟨hvalue, ih.items hitems⟩
    · cases h
      simpa using hvalue
    · cases h

theorem Reads.entries_succ {fuel : Nat} (ih : Reads fuel) {room : Nat} {cs : List Char}
    {r : List (String × Value) × List Char} (h : readEntries? (fuel + 1) room cs = some r) :
    ∀ entry ∈ r.1, entry.2.WellFormed := by
  rw [readEntries?] at h
  split at h
  · split at h
    · cases h
    · split at h
      · split at h
        · cases h
        · rename_i value rest hvalue
          have hvalue := ih.value hvalue
          dsimp only at h
          split at h
          · obtain ⟨entries, hentries, rfl⟩ := Option.map_eq_some_iff.mp h
            exact List.forall_mem_cons.mpr ⟨hvalue, ih.entries hentries⟩
          · cases h
            simpa using hvalue
          · cases h
      · cases h
  · cases h

theorem reads (fuel : Nat) : Reads fuel := by
  induction fuel with
  | zero => exact reads_zero
  | succ fuel ih => exact ⟨ih.value_succ, ih.items_succ, ih.entries_succ⟩

end Strict

namespace Relaxed

theorem integer?_wellFormed {negative : Bool} {digits : List Char} {v : Value}
    (h : integer? negative digits = some v) : v.WellFormed := by
  dsimp only [integer?] at h
  split at h
  · cases h
    simp [Value.WellFormed]
  · cases h

theorem fraction?_wellFormed {negative : Bool} {digits : Nat} {exponent : Int} {v : Value}
    (h : fraction? negative digits exponent = some v) : v.WellFormed := by
  dsimp only [fraction?] at h
  split at h
  · cases h
    simp [Value.WellFormed]
  · cases h

theorem readDecimal?_wellFormed {negative : Bool} {cs : List Char} {r : Value × List Char}
    (h : readDecimal? negative cs = some r) : r.1.WellFormed := by
  unfold readDecimal? at h
  split at h
  split at h
  · split at h
    split at h
    · cases h
    · obtain ⟨v, hv, rfl⟩ := Option.map_eq_some_iff.mp h
      exact fraction?_wellFormed hv
  · split at h
    · cases h
    · split at h
      · obtain ⟨v, hv, rfl⟩ := Option.map_eq_some_iff.mp h
        exact fraction?_wellFormed hv
      · obtain ⟨v, hv, rfl⟩ := Option.map_eq_some_iff.mp h
        exact integer?_wellFormed hv

theorem readHex?_wellFormed {cs : List Char} {r : Value × List Char}
    (h : readHex? cs = some r) : r.1.WellFormed := by
  dsimp only [readHex?] at h
  split at h
  · split at h
    · cases h
    · cases h
      simp [Value.WellFormed]
  · cases h

theorem readNumber?_wellFormed {cs : List Char} {r : Value × List Char}
    (h : readNumber? cs = some r) : r.1.WellFormed := by
  rw [readNumber?.eq_def] at h
  split at h
  · exact readHex?_wellFormed h
  · exact readHex?_wellFormed h
  · cases h
    simp [Value.WellFormed]
  · cases h
    simp [Value.WellFormed]
  · cases h
    simp [Value.WellFormed]
  · cases h
    simp [Value.WellFormed]
  · exact readDecimal?_wellFormed h

structure Reads (fuel : Nat) : Prop where
  value : ∀ {cs r}, readValue? fuel cs = some r → r.1.WellFormed
  items : ∀ {cs r}, readItems? fuel cs = some r → ∀ item ∈ r.1, item.WellFormed
  entries : ∀ {cs r}, readEntries? fuel cs = some r → ∀ entry ∈ r.1, entry.2.WellFormed

theorem reads_zero : Reads 0 where
  value h := by simp [readValue?] at h
  items h := by simp [readItems?] at h
  entries h := by simp [readEntries?] at h

theorem Reads.value_succ {fuel : Nat} (ih : Reads fuel) {cs : List Char}
    {r : Value × List Char} (h : readValue? (fuel + 1) cs = some r) : r.1.WellFormed := by
  rw [readValue?] at h
  split at h
  · cases h
    simp [Value.WellFormed]
  · cases h
    simp [Value.WellFormed]
  · cases h
    simp [Value.WellFormed]
  · obtain ⟨s, -, rfl⟩ := Option.map_eq_some_iff.mp h
    simp [Value.WellFormed]
  · obtain ⟨s, -, rfl⟩ := Option.map_eq_some_iff.mp h
    simp [Value.WellFormed]
  · split at h
    · cases h
      simp [Value.WellFormed, itemsWellFormed]
    · obtain ⟨items, hitems, rfl⟩ := Option.map_eq_some_iff.mp h
      exact Value.wellFormed_array (ih.items hitems)
  · split at h
    · cases h
      exact Document.wellFormed_nil
    · obtain ⟨entries, hentries, rfl⟩ := Option.map_eq_some_iff.mp h
      exact Document.wellFormed_ofEntries (ih.entries hentries)
  · exact readNumber?_wellFormed h

theorem Reads.items_succ {fuel : Nat} (ih : Reads fuel) {cs : List Char}
    {r : List Value × List Char} (h : readItems? (fuel + 1) cs = some r) :
    ∀ item ∈ r.1, item.WellFormed := by
  rw [readItems?] at h
  split at h
  · cases h
  · rename_i item rest hitem
    have hvalue := ih.value hitem
    split at h
    · split at h
      · cases h
        simpa using hvalue
      · obtain ⟨items, hitems, rfl⟩ := Option.map_eq_some_iff.mp h
        exact List.forall_mem_cons.mpr ⟨hvalue, ih.items hitems⟩
    · cases h
      simpa using hvalue
    · cases h

theorem Reads.entries_succ {fuel : Nat} (ih : Reads fuel) {cs : List Char}
    {r : List (String × Value) × List Char} (h : readEntries? (fuel + 1) cs = some r) :
    ∀ entry ∈ r.1, entry.2.WellFormed := by
  rw [readEntries?] at h
  split at h
  · cases h
  · split at h
    · split at h
      · cases h
      · rename_i value rest hvalue
        have hvalue := ih.value hvalue
        split at h
        · split at h
          · cases h
            simpa using hvalue
          · obtain ⟨entries, hentries, rfl⟩ := Option.map_eq_some_iff.mp h
            exact List.forall_mem_cons.mpr ⟨hvalue, ih.entries hentries⟩
        · cases h
          simpa using hvalue
        · cases h
    · cases h

theorem reads (fuel : Nat) : Reads fuel := by
  induction fuel with
  | zero => exact reads_zero
  | succ fuel ih => exact ⟨ih.value_succ, ih.items_succ, ih.entries_succ⟩

end Relaxed

theorem read?_wellFormed {dialect : Dialect} {cs : List Char} {v : Value}
    (h : dialect.read? cs = some v) : v.WellFormed := by
  cases dialect with
  | strict =>
    rw [Dialect.read?, Strict.read?, Strict.readWithin?] at h
    split at h
    · rename_i value rest hread
      split at h
      · cases h
        exact (Strict.reads _).value hread
      · cases h
    · cases h
  | relaxed =>
    rw [Dialect.read?, Relaxed.read?] at h
    split at h
    · rename_i value rest hread
      split at h
      · cases h
        exact (Relaxed.reads _).value hread
      · cases h
    · cases h

theorem decode_wellFormed {dialect : Dialect} {text : String} {doc : Document}
    (h : decode dialect text = .ok doc) : doc.WellFormed := by
  rw [decode] at h
  split at h
  · rename_i hread
    cases h
    exact read?_wellFormed hread
  · cases h
  · cases h

end FilterQuery.Literal
