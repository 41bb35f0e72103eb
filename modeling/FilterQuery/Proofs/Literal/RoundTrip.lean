import FilterQuery.Literal
import FilterQuery.Proofs.Document.Entries
import FilterQuery.Proofs.Literal.Atoms

/-! Strict literals of documents. Main statement: a document is read back from its literal, less what
literals do not tell apart, unless its containers lie too deep in each other or its numbers are not
safe integers. -/
namespace FilterQuery

/-! ### What a literal keeps -/

mutual

def Value.nesting : Value → Nat
  | .array items => itemsNesting items + 1
  | .object entries => entriesNesting entries + 1
  | _ => 0

def itemsNesting : List Value → Nat
  | [] => 0
  | item :: rest => max item.nesting (itemsNesting rest)

def entriesNesting : List (String × Value) → Nat
  | [] => 0
  | (_, value) :: rest => max value.nesting (entriesNesting rest)

end

mutual

def Value.numbers : Value → List Number
  | .number n => [n]
  | .array items => itemsNumbers items
  | .object entries => entriesNumbers entries
  | _ => []

def itemsNumbers : List Value → List Number
  | [] => []
  | item :: rest => item.numbers ++ itemsNumbers rest

def entriesNumbers : List (String × Value) → List Number
  | [] => []
  | (_, value) :: rest => value.numbers ++ entriesNumbers rest

end

mutual

/-- What a literal keeps of a value: undefined entries of objects are gone, undefined items of arrays
and numbers that are not finite are null, and zero has no sign. -/
def Value.written : Value → Value
  | .undefined => .null
  | .number n => if n.isFinite then .number n.written else .null
  | .array items => .array (writtenItems items)
  | .object entries => .object (writtenEntries entries)
  | value => value

def writtenItems : List Value → List Value
  | [] => []
  | item :: rest => item.written :: writtenItems rest

def writtenEntries : List (String × Value) → List (String × Value)
  | [] => []
  | (key, value) :: rest =>
    if value.isUndefined then writtenEntries rest
    else (key, value.written) :: writtenEntries rest

end

def Document.written (doc : Document) : Document :=
  writtenEntries doc

def Document.defined (doc : Document) : Document :=
  doc.filter fun entry => !entry.2.isUndefined

theorem Document.defined_cons (key : String) (value : Value) (rest : Document) :
    Document.defined ((key, value) :: rest) =
      if value.isUndefined then rest.defined else (key, value) :: rest.defined := by
  by_cases h : value.isUndefined <;> simp [Document.defined, h]

def entryLiteral (entry : String × Value) : List Char :=
  Literal.string entry.1 ++ ':' :: entry.2.literal

theorem itemLiterals_eq_map (items : List Value) : itemLiterals items = items.map Value.literal := by
  induction items with
  | nil => rfl
  | cons item rest ih => rw [itemLiterals, ih, List.map_cons]

theorem writtenItems_eq_map (items : List Value) : writtenItems items = items.map Value.written := by
  induction items with
  | nil => rfl
  | cons item rest ih => rw [writtenItems, ih, List.map_cons]

theorem entryLiterals_eq_map (entries : Document) :
    entryLiterals entries = entries.defined.map entryLiteral := by
  induction entries with
  | nil => rfl
  | cons entry rest ih =>
    rw [entryLiterals, Document.defined_cons, ih]
    split <;> rfl

theorem writtenEntries_eq_map (entries : Document) :
    writtenEntries entries = entries.defined.map fun entry => (entry.1, entry.2.written) := by
  induction entries with
  | nil => rfl
  | cons entry rest ih =>
    rw [writtenEntries, Document.defined_cons, ih]
    split <;> rfl

theorem nodup_keys_writtenEntries {entries : Document} (h : entries.keys.Nodup) :
    (Document.keys (writtenEntries entries)).Nodup := by
  rw [writtenEntries_eq_map, Document.keys, List.map_map]
  exact h.sublist (List.filter_sublist.map Prod.fst)

theorem nesting_le_of_mem_items {items : List Value} {item : Value} (h : item ∈ items) :
    item.nesting ≤ itemsNesting items := by
  induction items with
  | nil => cases h
  | cons first rest ih =>
    rw [itemsNesting]
    obtain rfl | hrest := List.mem_cons.mp h
    · exact Nat.le_max_left _ _
    · exact Nat.le_trans (ih hrest) (Nat.le_max_right _ _)

theorem nesting_le_of_mem_entries {entries : Document} {entry : String × Value}
    (h : entry ∈ entries) : entry.2.nesting ≤ entriesNesting entries := by
  induction entries with
  | nil => cases h
  | cons first rest ih =>
    rw [entriesNesting]
    obtain rfl | hrest := List.mem_cons.mp h
    · exact Nat.le_max_left _ _
    · exact Nat.le_trans (ih hrest) (Nat.le_max_right _ _)

theorem mem_itemsNumbers {items : List Value} {n : Number} :
    n ∈ itemsNumbers items ↔ ∃ item ∈ items, n ∈ item.numbers := by
  induction items with
  | nil => simp [itemsNumbers]
  | cons item rest ih => simp [itemsNumbers, ih]

theorem mem_entriesNumbers {entries : Document} {n : Number} :
    n ∈ entriesNumbers entries ↔ ∃ entry ∈ entries, n ∈ entry.2.numbers := by
  induction entries with
  | nil => simp [entriesNumbers]
  | cons entry rest ih => simp [entriesNumbers, ih]

/-! ### Values that are read back -/

namespace Value
open Literal Literal.Strict Text

/-- A value for whose literal so many open containers are enough, with safe integers for numbers
unless they are not finite. -/
structure Legible (room : Nat) (value : Value) : Prop where
  wellFormed : value.WellFormed
  nesting : value.nesting ≤ room
  numbers : ∀ n ∈ value.numbers, n.isFinite = true →
    ∃ m ≤ Number.maxSafe, n.wholeMagnitude? = some m

variable {room : Nat}

theorem Legible.array {items : List Value} (h : (Value.array items).Legible room) :
    ∃ inner, room = inner + 1 ∧ ∀ item ∈ items, item.Legible inner := by
  have hnesting : itemsNesting items + 1 ≤ room := h.nesting
  have hwell := h.wellFormed
  rw [WellFormed, itemsWellFormed_iff] at hwell
  refine ⟨room - 1, by omega, fun item hitem => ⟨hwell item hitem, ?_, fun n hn => ?_⟩⟩
  · have hle := nesting_le_of_mem_items hitem
    omega
  · exact h.numbers n (mem_itemsNumbers.mpr ⟨item, hitem, hn⟩)

theorem Legible.object {entries : Document} (h : (Value.object entries).Legible room) :
    ∃ inner, room = inner + 1 ∧ ∀ entry ∈ entries, entry.2.Legible inner := by
  have hnesting : entriesNesting entries + 1 ≤ room := h.nesting
  have hwell := ((Document.wellFormed_iff entries).mp h.wellFormed).2
  refine ⟨room - 1, by omega, fun entry hentry => ⟨hwell entry hentry, ?_, fun n hn => ?_⟩⟩
  · have hle := nesting_le_of_mem_entries hentry
    omega
  · exact h.numbers n (mem_entriesNumbers.mpr ⟨entry, hentry, hn⟩)

/-- Whatever follows that ends a value, the value is read back with fuel for its characters. -/
def ReadsBack (value : Value) : Prop :=
  ∀ ⦃fuel room : Nat⦄ ⦃rest : List Char⦄, value.Legible room → value.literal.length ≤ fuel →
    Ends rest → readValue? fuel room (value.literal ++ rest) = some (value.written, rest)

end Value

namespace Literal.Strict
open Text

theorem skip_cons {c : Char} (h : isSpace c = false) (cs : List Char) : skip (c :: cs) = c :: cs := by
  simp [skip, h]

theorem isSpace_of_numeral {c : Char} (h : c = '-' ∨ isDigit c = true) : isSpace c = false := by
  by_contra hspace
  simp only [isSpace, Bool.not_eq_false, Bool.or_eq_true, beq_iff_eq] at hspace
  obtain ((rfl | rfl) | rfl) | rfl := hspace <;> simp [isDigit] at h

/-! ### One step of a reader -/

section Steps
variable {fuel room : Nat} {cs rest : List Char} {value : Value}

theorem readItems?_next (h : readValue? fuel room cs = some (value, ',' :: rest)) :
    readItems? (fuel + 1) room cs =
      (readItems? fuel room rest).map fun (items, rest) => (value :: items, rest) := by
  rw [readItems?, h]
  rfl

theorem readItems?_last (h : readValue? fuel room cs = some (value, ']' :: rest)) :
    readItems? (fuel + 1) room cs = some ([value], rest) := by
  rw [readItems?, h]
  rfl

theorem string_append (key : String) (cs : List Char) :
    Literal.string key ++ cs = '"' :: (key.toList.flatMap stringChar ++ '"' :: cs) := by
  simp [Literal.string]

theorem readEntries?_next (key : String) (h : readValue? fuel room cs = some (value, ',' :: rest)) :
    readEntries? (fuel + 1) room (Literal.string key ++ ':' :: cs) =
      (readEntries? fuel room rest).map fun (entries, rest) => ((key, value) :: entries, rest) := by
  simp [readEntries?, string_append, skip, isSpace, readString?_string, h]

theorem readEntries?_last (key : String) (h : readValue? fuel room cs = some (value, '\x7d' :: rest)) :
    readEntries? (fuel + 1) room (Literal.string key ++ ':' :: cs) = some ([(key, value)], rest) := by
  simp [readEntries?, string_append, skip, isSpace, readString?_string, h]

theorem readValue?_string (s : String) :
    readValue? (fuel + 1) room (Literal.string s ++ rest) = some (.string s, rest) := by
  simp [readValue?, string_append, skip, isSpace, readString?_string]

theorem readValue?_array {c : Char} (hspace : isSpace c = false) (hc : c ≠ ']') :
    readValue? (fuel + 1) (room + 1) ('[' :: c :: cs) =
      (readItems? fuel room (c :: cs)).map fun (items, rest) => (.array items, rest) := by
  have hopen : isSpace '[' = false := rfl
  simp only [readValue?, skip_cons hopen, skip_cons hspace]
  split
  · rename_i heq
    exact absurd (List.cons.inj heq).1 hc
  · rfl

theorem readValue?_object :
    readValue? (fuel + 1) (room + 1) ('\x7b' :: '"' :: cs) =
      (readEntries? fuel room ('"' :: cs)).map fun (entries, rest) =>
        (.object (Document.ofEntries entries), rest) := by
  simp [readValue?, skip, isSpace]

theorem readValue?_number {c : Char} (hc : c = '-' ∨ isDigit c = true) :
    readValue? (fuel + 1) room (c :: cs) =
      (readNumber? (c :: cs)).map fun (n, rest) => (.number n, rest) := by
  have hother : ∀ other : Char, ¬ (other = '-' ∨ isDigit other = true) → c ≠ other := by
    rintro _ hnot rfl
    exact hnot hc
  rw [readValue?, skip_cons (isSpace_of_numeral hc)]
  split
  · rename_i heq
    exact absurd (List.cons.inj heq).1 (hother _ (by decide))
  · rename_i heq
    exact absurd (List.cons.inj heq).1 (hother _ (by decide))
  · rename_i heq
    exact absurd (List.cons.inj heq).1 (hother _ (by decide))
  · rename_i heq
    exact absurd (List.cons.inj heq).1 (hother _ (by decide))
  · rename_i heq
    exact absurd (List.cons.inj heq).1 (hother _ (by decide))
  · rename_i heq
    exact absurd (List.cons.inj heq).1 (hother _ (by decide))
  · rfl

end Steps

/-! ### Runs of a reader -/

theorem commaSeparated_cons (text : List Char) {texts : List (List Char)} (h : texts ≠ []) :
    commaSeparated (text :: texts) = text ++ ',' :: commaSeparated texts := by
  cases texts with
  | nil => exact absurd rfl h
  | cons next rest => rfl

theorem exists_commaSeparated {text cs : List Char} {c : Char} (h : text = c :: cs)
    (texts : List (List Char)) : ∃ tail, commaSeparated (text :: texts) = c :: tail := by
  subst h
  cases texts <;> exact ⟨_, rfl⟩

-- The fuel that a row of values needs is bounded by the length of its text and the bracket after it.
theorem readItems?_literals {items : List Value} (hne : items ≠ [])
    (hitems : ∀ item ∈ items, item.ReadsBack) {fuel room : Nat}
    (hroom : ∀ item ∈ items, item.Legible room)
    (hfuel : (commaSeparated (items.map Value.literal)).length < fuel) (rest : List Char) :
    readItems? fuel room (commaSeparated (items.map Value.literal) ++ ']' :: rest) =
      some (items.map Value.written, rest) := by
  induction items generalizing fuel with
  | nil => exact absurd rfl hne
  | cons item items ih =>
    obtain ⟨fuel, rfl⟩ := Nat.exists_eq_succ_of_ne_zero (Nat.ne_zero_of_lt hfuel)
    rw [List.forall_mem_cons] at hitems hroom
    by_cases hlast : items = []
    · subst hlast
      rw [List.map_singleton, commaSeparated] at hfuel ⊢
      exact readItems?_last (hitems.1 hroom.1 (by omega) (Ends.cons (by decide) rest))
    · rw [List.map_cons, commaSeparated_cons _ (by simpa using hlast)] at hfuel ⊢
      rw [List.length_append, List.length_cons] at hfuel
      have hrest := @ih hlast hitems.2 fuel hroom.2 (by omega)
      rw [List.append_assoc, List.cons_append,
        readItems?_next (hitems.1 hroom.1 (by omega) (Ends.cons (by decide) _)), hrest]
      rfl

theorem readEntries?_literals {entries : Document} (hne : entries ≠ [])
    (hentries : ∀ entry ∈ entries, entry.2.ReadsBack) {fuel room : Nat}
    (hroom : ∀ entry ∈ entries, entry.2.Legible room)
    (hfuel : (commaSeparated (entries.map entryLiteral)).length < fuel) (rest : List Char) :
    readEntries? fuel room (commaSeparated (entries.map entryLiteral) ++ '\x7d' :: rest) =
      some (entries.map fun entry => (entry.1, entry.2.written), rest) := by
  induction entries generalizing fuel with
  | nil => exact absurd rfl hne
  | cons entry entries ih =>
    obtain ⟨fuel, rfl⟩ := Nat.exists_eq_succ_of_ne_zero (Nat.ne_zero_of_lt hfuel)
    rw [List.forall_mem_cons] at hentries hroom
    have hlength : entry.2.literal.length < (entryLiteral entry).length := by
      rw [entryLiteral, List.length_append, List.length_cons]
      omega
    by_cases hlast : entries = []
    · subst hlast
      rw [List.map_singleton, commaSeparated] at hfuel ⊢
      rw [entryLiteral, List.append_assoc]
      exact readEntries?_last entry.1 (hentries.1 hroom.1 (by omega) (Ends.cons (by decide) rest))
    · rw [List.map_cons, commaSeparated_cons _ (by simpa using hlast)] at hfuel ⊢
      rw [List.length_append, List.length_cons] at hfuel
      have hrest := @ih hlast hentries.2 fuel hroom.2 (by omega)
      rw [entryLiteral, List.append_assoc, List.append_assoc, List.cons_append, List.cons_append,
        readEntries?_next entry.1 (hentries.1 hroom.1 (by omega) (Ends.cons (by decide) _)), hrest]
      rfl

end Literal.Strict

namespace Value
open Literal Literal.Strict Text

theorem Legible.exists_literal {room : Nat} {value : Value} (h : value.Legible room) :
    ∃ c cs, value.literal = c :: cs ∧ isSpace c = false ∧ c ≠ ']' := by
  cases value with
  | undefined | null => exact ⟨'n', _, rfl, rfl, by decide⟩
  | bool b =>
    cases b with
    | true => exact ⟨'t', _, rfl, rfl, by decide⟩
    | false => exact ⟨'f', _, rfl, rfl, by decide⟩
  | number n =>
    by_cases hfinite : n.isFinite = true
    · obtain ⟨m, hm, hwhole⟩ := h.numbers n (List.mem_singleton_self n) hfinite
      obtain ⟨c, cs, hliteral, hc⟩ := Number.exists_literal_of_whole hwhole hm
      refine ⟨c, cs, hliteral, isSpace_of_numeral hc, ?_⟩
      rintro rfl
      exact absurd hc (by decide)
    · exact ⟨'n', _, Number.literal_of_not_finite (Bool.eq_false_iff.mpr hfinite), rfl, by decide⟩
  | string s => exact ⟨'"', _, rfl, rfl, by decide⟩
  | array items => exact ⟨'[', _, rfl, rfl, by decide⟩
  | object entries => exact ⟨'\x7b', _, rfl, rfl, by decide⟩

/-- A literal is never empty, so there is always fuel to start with. -/
theorem ReadsBack.of_succ {value : Value}
    (h : ∀ {fuel room rest}, value.Legible room → value.literal.length ≤ fuel + 1 → Ends rest →
      readValue? (fuel + 1) room (value.literal ++ rest) = some (value.written, rest)) :
    value.ReadsBack := by
  intro fuel room rest hlegible hfuel hrest
  obtain ⟨c, cs, hliteral, -⟩ := hlegible.exists_literal
  cases fuel with
  | zero => simp [hliteral] at hfuel
  | succ fuel => exact h hlegible hfuel hrest

theorem readsBack_number (n : Number) : (Value.number n).ReadsBack := by
  refine .of_succ fun {fuel room rest} h _ hrest => ?_
  rw [literal, written]
  by_cases hfinite : n.isFinite = true
  · obtain ⟨m, hm, hwhole⟩ := h.numbers n (List.mem_singleton_self n) hfinite
    obtain ⟨c, cs, hliteral, hc⟩ := Number.exists_literal_of_whole hwhole hm
    have hread := readNumber?_literal hwhole hm hrest
    rw [hliteral, List.cons_append] at hread ⊢
    rw [readValue?_number hc, hread, if_pos hfinite]
    rfl
  · rw [Number.literal_of_not_finite (Bool.eq_false_iff.mpr hfinite), if_neg hfinite]
    rfl

theorem readsBack_array {items : List Value} (ih : ∀ item ∈ items, item.ReadsBack) :
    (Value.array items).ReadsBack := by
  refine .of_succ fun {fuel room rest} h hfuel _ => ?_
  obtain ⟨room, rfl, hitems⟩ := h.array
  rw [literal, itemLiterals_eq_map] at hfuel ⊢
  rw [written, writtenItems_eq_map]
  cases items with
  | nil => rfl
  | cons item items =>
    obtain ⟨c, cs, hliteral, hspace, hc⟩ := (hitems item List.mem_cons_self).exists_literal
    have hlength : (commaSeparated ((item :: items).map literal)).length < fuel := by
      simp only [List.length_append, List.length_cons, List.length_nil] at hfuel
      omega
    have hread := readItems?_literals (by simp) ih hitems hlength rest
    obtain ⟨tail, htail⟩ := exists_commaSeparated hliteral (items.map literal)
    rw [List.append_assoc, List.cons_append, List.singleton_append]
    rw [List.map_cons, htail, List.cons_append] at hread ⊢
    rw [readValue?_array hspace hc, hread]
    rfl

theorem readsBack_object {entries : Document} (ih : ∀ entry ∈ entries, entry.2.ReadsBack) :
    (Value.object entries).ReadsBack := by
  refine .of_succ fun {fuel room rest} h hfuel _ => ?_
  obtain ⟨room, rfl, hentries⟩ := h.object
  have hmem : ∀ entry ∈ entries.defined, entry ∈ entries := fun entry => List.mem_of_mem_filter
  have hnodup := nodup_keys_writtenEntries ((Document.wellFormed_iff entries).mp h.wellFormed).1
  rw [literal, entryLiterals_eq_map] at hfuel ⊢
  rw [written, ← Document.ofEntries_of_nodup hnodup, writtenEntries_eq_map]
  cases hdefined : entries.defined with
  | nil => rfl
  | cons entry others =>
    rw [hdefined] at hmem hfuel
    have hlength : (commaSeparated ((entry :: others).map entryLiteral)).length < fuel := by
      simp only [List.length_append, List.length_cons, List.length_nil] at hfuel
      omega
    have hread := readEntries?_literals (by simp) (fun entry he => ih entry (hmem entry he))
      (fun entry he => hentries entry (hmem entry he)) hlength rest
    have hquote : ∃ cs, entryLiteral entry = '"' :: cs := ⟨_, rfl⟩
    obtain ⟨cs, hquote⟩ := hquote
    obtain ⟨tail, htail⟩ := exists_commaSeparated hquote (others.map entryLiteral)
    rw [List.append_assoc, List.cons_append, List.singleton_append]
    rw [List.map_cons, htail, List.cons_append] at hread ⊢
    rw [readValue?_object, hread]
    rfl

theorem readsBack (value : Value) : value.ReadsBack := by
  induction value using Value.inductNested with
  | undefined | null => exact .of_succ fun _ _ _ => rfl
  | bool b => cases b <;> exact .of_succ fun _ _ _ => rfl
  | number n => exact readsBack_number n
  | string s => exact .of_succ fun _ _ _ => readValue?_string s
  | array items ih => exact readsBack_array ih
  | object entries ih => exact readsBack_object ih

end Value

/-- A document in which no object has a key twice is read back by the strict dialect from its own
literal, keys in their order: undefined entries are gone on every level, undefined items and numbers
that are not finite have become null, and zero has lost its sign. -/
theorem Literal.decode_toText (doc : Document) (hdoc : doc.WellFormed)
    (hnesting : (Value.object doc).nesting ≤ 127)
    (hnumbers : ∀ n ∈ (Value.object doc).numbers, n.isFinite = true →
      ∃ m ≤ Number.maxSafe, n.wholeMagnitude? = some m) :
    decode .strict doc.toText = .ok doc.written := by
  have hlegible : (Value.object doc).Legible Strict.maxDepth := ⟨hdoc, hnesting, hnumbers⟩
  have hends : Strict.Ends [] := by simp [Strict.Ends]
  have hvalue := (Value.object doc).readsBack hlegible
    (show _ ≤ 2 * (Value.object doc).literal.length + 2 by omega) hends
  rw [List.append_nil] at hvalue
  have hread : Strict.read? (Value.object doc).literal = some (.object doc.written) := by
    rw [Strict.read?, Strict.readWithin?, hvalue]
    rfl
  rw [decode, Document.toText, Value.toText, String.toList_ofList, Dialect.read?, hread]

theorem Literal.decode_toText_mixed :
    let least := Number.ofInt (-9007199254740991)
    let doc : Document :=
      [("\"\\\n\x01é", .array [.undefined, .number (.zero true), .number (.infinity false),
        .object [("", .undefined), ("n", .number least)]]),
       ("gone", .undefined), ("text", .string "/\x7f\t")]
    doc.WellFormed ∧ (Value.object doc).nesting ≤ 127 ∧
    (Value.object doc).numbers = [.zero true, .infinity false, least] ∧
    least.wholeMagnitude? = some 9007199254740991 ∧
    decode .strict doc.toText = .ok
      [("\"\\\n\x01é", .array [.null, .number (.zero false), .null,
        .object [("n", .number least)]]),
       ("text", .string "/\x7f\t")] := by
  intro least doc
  have hdoc : doc.WellFormed := by
    simp [doc, Document.WellFormed, Value.WellFormed, itemsWellFormed, entriesWellFormed]
  have hnesting : (Value.object doc).nesting ≤ 127 := by
    simp [doc, Value.nesting, itemsNesting, entriesNesting]
  have hleast : least.wholeMagnitude? = some 9007199254740991 := by decide +kernel
  have hlist : (Value.object doc).numbers = [.zero true, .infinity false, least] := by
    simp [doc, Value.numbers, itemsNumbers, entriesNumbers]
  have hnumbers : ∀ n ∈ (Value.object doc).numbers, n.isFinite = true →
      ∃ m ≤ Number.maxSafe, n.wholeMagnitude? = some m := by
    rw [hlist]
    simp only [List.forall_mem_cons]
    refine ⟨fun _ => ⟨0, by decide, by decide +kernel⟩, fun h => ?_, fun _ => ⟨_, by decide, hleast⟩,
      by simp⟩
    exact absurd h (by decide +kernel)
  have hwritten : doc.written = [("\"\\\n\x01é", .array [.null, .number (.zero false), .null,
      .object [("n", .number least)]]), ("text", .string "/\x7f\t")] := by
    have hfinite : least.isFinite = true := by decide +kernel
    have hkept : least.written = least := by decide +kernel
    have hzero : (Number.zero true).isFinite = true := by decide +kernel
    have hinfinity : (Number.infinity false).isFinite = false := by decide +kernel
    have hsign : (Number.zero true).written = .zero false := by decide +kernel
    simp [doc, Document.written, writtenEntries, writtenItems, Value.written, Value.isUndefined,
      hfinite, hkept, hzero, hsign, hinfinity]
  refine ⟨hdoc, hnesting, hlist, hleast, ?_⟩
  rw [decode_toText doc hdoc hnesting hnumbers, hwritten]

end FilterQuery
