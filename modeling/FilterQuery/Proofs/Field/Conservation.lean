import FilterQuery.Proofs.Field.Assignment

/-! What splitting leaves out. Main statement: whatever the quotes and backslashes of a text are, its
fields hold its characters in order, all but separators, quotes, backslashes and blanks are there, and
a separator starts at most one field. -/
namespace FilterQuery.Field
open Text

def isOrdinary (separator c : Char) : Bool :=
  !(isEscapable separator c || isBlank c)

/-- One text is what another one leaves when characters that are not ordinary are taken out. -/
structure Thins (separator : Char) (part whole : List Char) : Prop where
  sublist : part.Sublist whole
  ordinary : part.filter (isOrdinary separator) = whole.filter (isOrdinary separator)

namespace Thins
variable {separator : Char} {a b c d : List Char}

theorem refl (cs : List Char) : Thins separator cs cs := ⟨List.Sublist.refl cs, rfl⟩

theorem trans (hab : Thins separator a b) (hbc : Thins separator b c) : Thins separator a c :=
  ⟨hab.sublist.trans hbc.sublist, hab.ordinary.trans hbc.ordinary⟩

theorem append (hab : Thins separator a b) (hcd : Thins separator c d) :
    Thins separator (a ++ c) (b ++ d) := by
  refine ⟨hab.sublist.append hcd.sublist, ?_⟩
  rw [List.filter_append, List.filter_append, hab.ordinary, hcd.ordinary]

theorem nil (h : ∀ x ∈ a, isOrdinary separator x = false) : Thins separator [] a := by
  refine ⟨List.nil_sublist a, ?_⟩
  rw [List.filter_nil, eq_comm, List.filter_eq_nil_iff]
  simpa using h

theorem append_left (h : ∀ x ∈ a, isOrdinary separator x = false) : Thins separator b (a ++ b) :=
  (nil h).append (refl b)

theorem append_right (h : ∀ x ∈ a, isOrdinary separator x = false) : Thins separator b (b ++ a) := by
  have hthins := (refl b).append (nil h)
  rwa [List.append_nil] at hthins

theorem flatMap {f : List Char → List Char} (hf : ∀ cs, Thins separator (f cs) cs)
    (parts : List (List Char)) : Thins separator (parts.flatMap f) parts.flatten := by
  induction parts with
  | nil => exact refl []
  | cons cs parts ih => exact (hf cs).append ih

end Thins

section
variable {separator : Char}

theorem isOrdinary_of_isEscapable {c : Char} (h : isEscapable separator c = true) :
    isOrdinary separator c = false := by
  simp [isOrdinary, h]

theorem isOrdinary_of_isBlank {c : Char} (h : isBlank c = true) :
    isOrdinary separator c = false := by
  simp [isOrdinary, h]

theorem thins_escapable {c : Char} (h : isEscapable separator c = true) (cs : List Char) :
    Thins separator cs (c :: cs) :=
  Thins.append_left (a := [c]) (by simpa using isOrdinary_of_isEscapable h)

variable (separator)

/-! ### One step of the scan -/

/-- A symbol is added to the field, or it is a quote that is dropped, or a separator that ends the
field. -/
theorem scan_cons (mode : Mode) (field : List Char) (s : Symbol) (rest : List Symbol) :
    (∃ next, scan separator mode field (s :: rest) =
      scan separator next (field ++ [s.char]) rest) ∨
    (s = .plain quote ∧ ∃ next, scan separator mode field (s :: rest) =
      scan separator next field rest) ∨
    (s = .plain separator ∧ scan separator mode field (s :: rest) =
      field :: scan separator .outside [] rest) := by
  cases s with
  | escaped c => exact .inl ⟨mode, by rw [scan]; rfl⟩
  | plain c =>
    cases mode with
    | outside =>
      rw [scan]
      split
      · exact .inl ⟨.outside, rfl⟩
      split
      · rename_i hquote
        obtain ⟨⟨rfl, -⟩, -⟩ : (c = quote ∧ opens field = true) ∧
            hasClosing separator rest = true := by simpa using hquote
        split
        · exact .inr (.inl ⟨rfl, .dropped, rfl⟩)
        · exact .inl ⟨.kept, rfl⟩
      split
      · rename_i hseparator
        obtain rfl : c = separator := by simpa using hseparator
        exact .inr (.inr ⟨rfl, rfl⟩)
      · exact .inl ⟨.outside, rfl⟩
    | dropped =>
      rw [scan]
      split
      · rename_i hquote
        obtain ⟨rfl, -⟩ : c = quote ∧ closes separator rest = true := by simpa using hquote
        exact .inr (.inl ⟨rfl, .outside, rfl⟩)
      · exact .inl ⟨.dropped, rfl⟩
    | kept =>
      rw [scan]
      split
      · exact .inl ⟨.outside, rfl⟩
      · exact .inl ⟨.kept, rfl⟩

theorem scan_head (mode : Mode) (field : List Char) (rest : List Symbol) :
    ∃ more others, scan separator mode field rest = (field ++ more) :: others := by
  induction rest generalizing mode field with
  | nil => exact ⟨[], [], by simp [scan]⟩
  | cons s rest ih =>
    obtain ⟨next, hscan⟩ | ⟨-, next, hscan⟩ | ⟨-, hscan⟩ := scan_cons separator mode field s rest
    · obtain ⟨more, others, hhead⟩ := ih next (field ++ [s.char])
      exact ⟨s.char :: more, others, by rw [hscan, hhead]; simp⟩
    · obtain ⟨more, others, hhead⟩ := ih next field
      exact ⟨more, others, hscan.trans hhead⟩
    · exact ⟨[], _, by rw [hscan, List.append_nil]⟩

/-- The raw fields together are the text of the symbols, thinned. -/
theorem thins_scan (mode : Mode) (field : List Char) (rest : List Symbol) :
    Thins separator (scan separator mode field rest).flatten (field ++ rest.map Symbol.char) := by
  induction rest generalizing mode field with
  | nil => simpa [scan] using Thins.refl field
  | cons s rest ih =>
    obtain ⟨next, hscan⟩ | ⟨rfl, next, hscan⟩ | ⟨rfl, hscan⟩ :=
      scan_cons separator mode field s rest
    · have htaken := ih next (field ++ [s.char])
      rw [List.append_assoc] at htaken
      rwa [hscan]
    · rw [hscan]
      have hquote : isEscapable separator quote = true := by simp [isEscapable]
      exact (ih next field).trans ((Thins.refl field).append (thins_escapable hquote _))
    · rw [hscan, List.flatten_cons]
      have hcut : isEscapable separator separator = true := by simp [isEscapable]
      exact (Thins.refl field).append ((ih .outside []).trans (thins_escapable hcut _))

theorem length_scan_le (mode : Mode) (field : List Char) (rest : List Symbol) :
    (scan separator mode field rest).length ≤ 1 + (rest.map Symbol.char).count separator := by
  induction rest generalizing mode field with
  | nil => simp [scan]
  | cons s rest ih =>
    rw [List.map_cons, List.count_cons]
    obtain ⟨next, hscan⟩ | ⟨rfl, next, hscan⟩ | ⟨rfl, hscan⟩ :=
      scan_cons separator mode field s rest
    · have htaken := ih next (field ++ [s.char])
      rw [hscan]
      omega
    · have hdropped := ih next field
      rw [hscan]
      omega
    · have hcut := ih .outside []
      rw [hscan, List.length_cons, Symbol.char, beq_self_eq_true, if_pos rfl]
      omega

/-! ### Before and after the scan -/

theorem thins_symbols (cs : List Char) :
    Thins separator ((symbols separator cs).map Symbol.char) cs := by
  fun_induction symbols separator cs with
  | case1 => exact .refl []
  | case2 c => exact .refl [c]
  | case3 c d rest hesc ih =>
    obtain ⟨rfl, -⟩ : c = escape ∧ isEscapable separator d = true := by simpa using hesc
    have hskip : isEscapable separator escape = true := by simp [isEscapable]
    exact ((Thins.refl [d]).append ih).trans (thins_escapable hskip _)
  | case4 c d rest _ ih => exact (Thins.refl [c]).append ih

theorem thins_trim (cs : List Char) : Thins separator (trim cs) cs := by
  obtain ⟨u, g, hcs, hu, hg⟩ := exists_blanks_append_trim cs
  have hright : Thins separator (trim cs) (trim cs ++ g) :=
    .append_right fun c hc => isOrdinary_of_isBlank (hg c hc)
  have hleft : Thins separator (trim cs ++ g) (u ++ (trim cs ++ g)) :=
    .append_left fun c hc => isOrdinary_of_isBlank (hu c hc)
  rw [← hcs] at hleft
  exact hright.trans hleft

theorem thins_dropQuotes (field : List Char) : Thins separator (dropQuotes field) field := by
  rw [dropQuotes]
  split
  · rename_i hlast
    obtain ⟨init, rfl⟩ := List.getLast?_eq_some_iff.mp (by simpa using hlast)
    rw [List.dropLast_concat]
    split
    · rename_i key value hparts
      have hquote : isEscapable separator quote = true := by simp [isEscapable]
      have hinit : Thins separator (key ++ assign :: value) init := by
        rw [eq_of_lastAssignment? hparts]
        exact (Thins.refl key).append ((Thins.refl [assign]).append (thins_escapable hquote value))
      have hend : Thins separator init (init ++ [quote]) :=
        .append_right (by simpa using isOrdinary_of_isEscapable hquote)
      exact hinit.trans hend
    · exact .refl _
  · exact .refl _

theorem thins_finish (raw : List Char) : Thins separator (finish raw) raw :=
  (thins_dropQuotes separator _).trans (thins_trim separator raw)

end

/-- The fields of a text together hold its characters in order, and of all but separators, quotes,
backslashes and blanks each one. There is at least one field, and at most one more than separators.
Quotes may be left open and backslashes may protect nothing. -/
theorem split_conserves (separator : Char) (text : String) :
    ((split separator text).flatMap String.toList).filter (isOrdinary separator) =
      text.toList.filter (isOrdinary separator) ∧
    ((split separator text).flatMap String.toList).Sublist text.toList ∧
    1 ≤ (split separator text).length ∧
    (split separator text).length ≤ 1 + text.toList.count separator := by
  have hsymbols := thins_symbols separator text.toList
  have hscan := thins_scan separator .outside [] (symbols separator text.toList)
  have hfields : (split separator text).flatMap String.toList =
      (scan separator .outside [] (symbols separator text.toList)).flatMap finish := by
    rw [split, List.flatMap_map]
    simp
  have hthins := ((Thins.flatMap (thins_finish separator) _).trans hscan).trans hsymbols
  rw [← hfields] at hthins
  refine ⟨hthins.ordinary, hthins.sublist, ?_, ?_⟩
  · obtain ⟨more, others, hhead⟩ := scan_head separator .outside [] (symbols separator text.toList)
    rw [split, List.length_map, hhead, List.length_cons]
    omega
  · rw [split, List.length_map]
    have hcount := hsymbols.sublist.count_le separator
    have hlength := length_scan_le separator .outside [] (symbols separator text.toList)
    omega

end FilterQuery.Field
