import FilterQuery.Proofs.Field.Assignment

/-! Texts whose quotes protect nothing. Main statement: without a backslash, and without a quote at the
end of a field, a text is cut at each separator and its pieces are trimmed, quotes and all. -/
namespace FilterQuery.Field
open Text

def ClosingQuote (separator : Char) (cs : List Char) : Prop :=
  ∃ before blanks after, cs = before ++ quote :: (blanks ++ after) ∧
    (∀ c ∈ blanks, isBlank c = true) ∧ (after = [] ∨ after.head? = some separator)

section
variable {separator : Char}

/-! ### Looking ahead for a closing quote -/

theorem closes_plain (after : List Char) :
    closes separator (after.map .plain) = (trimStart after).head?.all (· == separator) := by
  have hdrop : (after.map Symbol.plain).dropWhile (fun s => isBlank s.lead) =
      (trimStart after).map .plain := by
    rw [List.dropWhile_map]
    rfl
  rw [closes, hdrop]
  cases trimStart after with
  | nil => rfl
  | cons c rest => rfl

theorem closingQuote_of_hasClosing {cs : List Char}
    (h : hasClosing separator (cs.map .plain) = true) : ClosingQuote separator cs := by
  induction cs with
  | nil => cases h
  | cons c rest ih =>
    rw [List.map_cons, hasClosing, Bool.or_eq_true, Bool.and_eq_true, closes_plain] at h
    obtain ⟨hc, hclose⟩ | hrest := h
    · obtain rfl : c = quote := by simpa using hc
      obtain ⟨blanks, hblanks, hall⟩ := exists_blanks_append_trimStart rest
      refine ⟨[], blanks, trimStart rest, congrArg (quote :: ·) hblanks, hall, ?_⟩
      cases hafter : trimStart rest with
      | nil => exact .inl rfl
      | cons d after => exact .inr (by simpa [hafter] using hclose)
    · obtain ⟨before, blanks, after, rfl, hall, hafter⟩ := ih hrest
      exact ⟨c :: before, blanks, after, rfl, hall, hafter⟩

theorem ClosingQuote.hasClosing (hblank : isBlank separator = false) {cs : List Char}
    (h : ClosingQuote separator cs) : hasClosing separator (cs.map .plain) = true := by
  obtain ⟨before, blanks, after, rfl, hall, hafter⟩ := h
  rw [List.map_append, List.map_cons]
  refine hasClosing_append _ ?_
  rw [closes_plain, trimStart_append after hall]
  obtain rfl | hhead := hafter
  · rfl
  · -- the blanks end at the separator, which is none of them
    obtain ⟨rest, rfl⟩ := List.head?_eq_some_iff.mp hhead
    rw [trimStart_cons rest hblank]
    exact beq_self_eq_true separator

/-! ### The scan and the pieces -/

/-- Where no quote closes, each character is taken as it is, and each separator cuts. -/
theorem scan_plain (field : List Char) {cs : List Char} (hplain : escape ∉ cs)
    (hopen : hasClosing separator (cs.map .plain) = false) :
    scan separator .outside field (cs.map .plain) =
      (cs.splitOn separator).modifyHead (field ++ ·) := by
  induction cs generalizing field with
  | nil => simp [scan]
  | cons c rest ih =>
    obtain ⟨hescape, hrest⟩ : escape ≠ c ∧ escape ∉ rest := by simpa using hplain
    rw [List.map_cons, hasClosing, Bool.or_eq_false_iff] at hopen
    rw [List.map_cons, scan, hopen.2, List.splitOn_cons_eq_if_modifyHead]
    obtain ⟨piece, others, hsplit⟩ := List.exists_cons_of_ne_nil (List.splitOn_ne_nil separator rest)
    by_cases hc : c = separator
    · simp [hc, hc ▸ hescape.symm, ih [] hrest hopen.2, hsplit]
    · simp [hc, hescape.symm, ih _ hrest hopen.2, hsplit]

theorem exists_append_of_mem_splitOn {cs piece : List Char} (h : piece ∈ cs.splitOn separator) :
    ∃ before after, cs = before ++ (piece ++ after) ∧
      (after = [] ∨ after.head? = some separator) := by
  rw [← cs.intercalate_splitOn separator]
  generalize cs.splitOn separator = parts at h
  induction parts with
  | nil => cases h
  | cons part rest ih =>
    cases rest with
    | nil =>
      obtain rfl := List.mem_singleton.mp h
      exact ⟨[], [], by simp, .inl rfl⟩
    | cons next rest =>
      rw [List.intercalate_cons_cons]
      obtain rfl | hrest := List.mem_cons.mp h
      · exact ⟨[], separator :: [separator].intercalate (next :: rest), by simp, .inr rfl⟩
      · obtain ⟨before, after, heq, hafter⟩ := ih hrest
        exact ⟨part ++ [separator] ++ before, after, by rw [heq]; simp, hafter⟩

theorem finish_piece {cs piece : List Char} (hopen : ¬ ClosingQuote separator cs)
    (h : piece ∈ cs.splitOn separator) : finish piece = trim piece := by
  have hlast : (trim piece).getLast? ≠ some quote := by
    -- a quote at the end of a piece would be a closing one
    intro hlast
    obtain ⟨init, hinit⟩ := List.getLast?_eq_some_iff.mp hlast
    obtain ⟨u, g, hpiece, -, hg⟩ := exists_blanks_append_trim piece
    obtain ⟨before, after, hcs, hafter⟩ := exists_append_of_mem_splitOn h
    refine hopen ⟨before ++ u ++ init, g, after, ?_, hg, hafter⟩
    rw [hcs, hpiece, hinit]
    simp
  rw [finish, dropQuotes, if_neg (by simpa using hlast)]

end

/-- A text without backslashes in which no quote is followed by a separator or the end, blanks aside,
is cut at every separator and trimmed piece by piece. Apostrophes in words and quotes that are never
closed stay where they are. -/
theorem split_unprotected (separator : Char) (text : String) (hplain : escape ∉ text.toList)
    (hopen : ¬ ClosingQuote separator text.toList) :
    split separator text =
      (text.toList.splitOn separator).map fun piece => String.ofList (trim piece) := by
  have hsymbols : symbols separator text.toList = text.toList.map .plain :=
    symbols_plain fun c hc => ne_of_mem_of_not_mem hc hplain
  have hclosing : hasClosing separator (text.toList.map .plain) = false :=
    Bool.eq_false_iff.mpr fun h => hopen (closingQuote_of_hasClosing h)
  have hscan : scan separator .outside [] (text.toList.map .plain) =
      text.toList.splitOn separator := by
    rw [scan_plain [] hplain hclosing]
    exact congrFun List.modifyHead_id _
  rw [split, hsymbols, hscan]
  refine List.map_congr_left fun piece hpiece => ?_
  rw [finish_piece hopen hpiece]

theorem split_unprotected_apostrophes :
    let text := "name = O'Brien , 'tis,a='oops ,b=''x"
    escape ∉ text.toList ∧ ¬ ClosingQuote ',' text.toList ∧
      split ',' text = ["name = O'Brien", "'tis", "a='oops", "b=''x"] := by
  intro text
  have hplain : escape ∉ text.toList := by simp [text, escape]
  have hclosing : hasClosing ',' (text.toList.map .plain) = false := by
    subst text
    rfl
  have hopen : ¬ ClosingQuote ',' text.toList := by
    intro h
    rw [h.hasClosing (by decide)] at hclosing
    cases hclosing
  refine ⟨hplain, hopen, ?_⟩
  rw [split_unprotected ',' text hplain hopen]
  subst text
  rfl

end FilterQuery.Field
