import FilterQuery.Proofs.Text.Digit
import FilterQuery.Toml.Reader
import FilterQuery.Toml.Writer

/-! Strings between quotes. Main statement: a string is read back from whichever of the four quoted
forms it is written in. -/
namespace FilterQuery.Toml
open Text

section
variable {read : List Char → Option (List Char × List Char)} {mark : Char} {cs rest : List Char}

/-! ### Escapes -/

/-- A reader that knows escapes, and takes what needs none as it is. -/
structure ReadsEscapes (read : List Char → Option (List Char × List Char)) : Prop where
  letter : ∀ {x c} rest, escape? x = some c → read ('\\' :: x :: rest) = push c (read rest)
  code : ∀ {a b c d ch} rest, coded? [a, b, c, d] = some ch →
    read ('\\' :: 'u' :: a :: b :: c :: d :: rest) = push ch (read rest)
  plain : ∀ {c} rest, isAllowed c = true → c ≠ '"' → c ≠ '\\' →
    read (c :: rest) = push c (read rest)

theorem ne_of_escape? {x c y : Char} (h : escape? x = some c) (hy : escape? y = none) : x ≠ y :=
  ne_of_apply_ne escape? (by simp [h, hy])

theorem readBasic?_escapes : ReadsEscapes readBasic? where
  letter {x c} rest h := by
    rw [readBasic?.eq_def]
    simp [ne_of_escape? h (show escape? 'u' = none from rfl),
      ne_of_escape? h (show escape? 'U' = none from rfl), h]
  code rest h := by simp [readBasic?, h]
  plain rest h hquote hescape := by
    rw [readBasic?.eq_def]
    simp [h, hescape]

theorem readMultilineBasic?_escapes : ReadsEscapes (readMultilineBasic? false) where
  letter {x c} rest h := by
    have hne : ∀ y ∈ ['u', 'U', ' ', '\t', '\n', '\r'], x ≠ y := by
      intro y hy
      have hnone : ∀ y ∈ ['u', 'U', ' ', '\t', '\n', '\r'], escape? y = none := by
        simp [escape?]
      exact ne_of_escape? h (hnone y hy)
    simp only [List.forall_mem_cons] at hne
    have hblank : endsBlank (x :: rest) = false := by
      simp [endsBlank, skip, isSpace, afterLineEnd?, hne]
    rw [readMultilineBasic?.eq_def]
    simp [hne, h, hblank]
  code rest h := by simp [readMultilineBasic?, h]
  plain {c} rest h hquote hescape := by
    have hreturn : c ≠ '\r' := by
      rintro rfl
      cases h
    rw [readMultilineBasic?.eq_def]
    simp [h, hquote, hescape, hreturn]

theorem isAllowed_of_not_needsCode {c : Char} (h : needsCode c = false) (hline : c ≠ '\n') :
    isAllowed c = true := by
  simp only [needsCode, Bool.or_eq_false_iff, Bool.and_eq_false_iff, decide_eq_false_iff_not,
    bne_eq_false_iff_eq, beq_eq_false_iff_ne, Char.not_lt] at h
  simp only [isAllowed, Bool.or_eq_true, Bool.and_eq_true, beq_iff_eq, decide_eq_true_eq,
    bne_iff_ne]
  obtain ⟨(hspace | htab) | hfeed, hdelete⟩ := h
  · exact .inr ⟨hspace, hdelete⟩
  · exact .inl htab
  · exact absurd hfeed hline

theorem toNat_lt_of_needsCode {c : Char} (h : needsCode c = true) : c.toNat < 128 := by
  simp only [needsCode, Bool.or_eq_true, Bool.and_eq_true, decide_eq_true_eq, beq_iff_eq] at h
  obtain ⟨⟨hcontrol, -⟩, -⟩ | rfl := h
  · have hlt : c.toNat < 32 := hcontrol
    omega
  · decide

theorem escapeChar_cases (multiline : Bool) (c : Char) :
    (∃ x, escape? x = some c ∧ escapeChar multiline c = ['\\', x]) ∨
    (∃ w x y z, coded? [w, x, y, z] = some c ∧
      escapeChar multiline c = ['\\', 'u', w, x, y, z]) ∨
    (escapeChar multiline c = [c] ∧ c ≠ '\\' ∧
      (isAllowed c = true ∨ (multiline = true ∧ c = '\n'))) := by
  by_cases hletter : c ∈ ['\x08', '\t', '\x0c', '\r', '\\']
  · simp only [List.mem_cons, List.not_mem_nil, or_false] at hletter
    obtain rfl | rfl | rfl | rfl | rfl := hletter <;> exact .inl ⟨_, rfl, rfl⟩
  simp only [List.mem_cons, List.not_mem_nil, or_false, not_or] at hletter
  by_cases hfeed : c = '\n'
  · cases multiline with
    | true => exact .inr (.inr ⟨by simp [escapeChar, hfeed], hletter.2.2.2.2, .inr ⟨rfl, hfeed⟩⟩)
    | false =>
      subst hfeed
      exact .inl ⟨'n', rfl, rfl⟩
  by_cases hcode : needsCode c = true
  · obtain ⟨hlength, -, hvalue⟩ := hexValue?_hexPadded c.toNat (toNat_lt_of_needsCode hcode)
    obtain ⟨w, x, y, z, hdigits⟩ :=
      List.length_eq_four.mp ((List.length_map (f := Char.toUpper)).trans hlength)
    refine .inr (.inl ⟨w, x, y, z, ?_, by simp [escapeChar, hletter, hfeed, hcode, hdigits]⟩)
    rw [coded?, ← hdigits, hvalue, Option.bind_some, scalar?_toNat]
  · refine .inr (.inr ⟨by simp [escapeChar, hletter, hfeed, hcode], hletter.2.2.2.2, .inl ?_⟩)
    exact isAllowed_of_not_needsCode (by simpa using hcode) hfeed

theorem ReadsEscapes.escapeChar (h : ReadsEscapes read) {multiline : Bool} {c : Char}
    (hquote : c ≠ '"')
    (hline : multiline = true → ∀ rest, read ('\n' :: rest) = push '\n' (read rest))
    (rest : List Char) : read (escapeChar multiline c ++ rest) = push c (read rest) := by
  obtain ⟨x, hx, htext⟩ | ⟨w, x, y, z, hcode, htext⟩ | ⟨htext, hescape, hplain⟩ :=
    escapeChar_cases multiline c
  · rw [htext]
    exact h.letter rest hx
  · rw [htext]
    exact h.code rest hcode
  · rw [htext]
    obtain hallowed | ⟨hm, rfl⟩ := hplain
    · exact h.plain rest hallowed hquote hescape
    · exact hline hm rest

section
variable {multiline : Bool} {row : Nat} {c : Char}

theorem escapeAll_other (h : c ≠ '"') :
    escapeAll multiline row (c :: cs) = escapeChar multiline c ++ escapeAll multiline 0 cs := by
  simp [escapeAll, h]

theorem escapeAll_quote (h : multiline = true → 2 ≤ row) :
    escapeAll multiline row ('"' :: cs) = '\\' :: '"' :: escapeAll multiline 0 cs := by
  have hrow : ¬ (multiline && decide (row < 2)) = true := by
    rw [Bool.and_eq_true, decide_eq_true_eq]
    rintro ⟨hm, hlt⟩
    exact Nat.not_lt.mpr (h hm) hlt
  rw [escapeAll, if_pos (beq_self_eq_true _), if_neg hrow]

theorem escapeAll_row (h : row < 2) :
    escapeAll true row ('"' :: cs) = '"' :: escapeAll true (row + 1) cs := by
  rw [escapeAll, if_pos (beq_self_eq_true _), Bool.true_and, if_pos (decide_eq_true h)]

theorem head_escapeAll {x : Char} (h : (escapeAll multiline row cs).head? = some x) :
    x = '\\' ∨ (cs.head? = some x ∧ x ≠ '\r' ∧ (x = '"' → multiline = true ∧ row < 2)) := by
  cases cs with
  | nil => cases h
  | cons c cs =>
    by_cases hquote : c = '"'
    · subst hquote
      by_cases hraw : multiline = true → 2 ≤ row
      · rw [escapeAll_quote hraw] at h
        cases h
        exact .inl rfl
      · obtain ⟨rfl, hrow⟩ := Classical.not_imp.mp hraw
        rw [escapeAll_row (Nat.not_le.mp hrow)] at h
        cases h
        exact .inr ⟨rfl, by decide, fun _ => ⟨rfl, Nat.not_le.mp hrow⟩⟩
    · rw [escapeAll_other hquote] at h
      obtain ⟨x, -, htext⟩ | ⟨w, x, y, z, -, htext⟩ | ⟨htext, -, hplain⟩ :=
        escapeChar_cases multiline c
      · rw [htext] at h
        cases h
        exact .inl rfl
      · rw [htext] at h
        cases h
        exact .inl rfl
      · rw [htext] at h
        cases h
        refine .inr ⟨rfl, ?_, fun hc => absurd hc hquote⟩
        rintro rfl
        obtain hallowed | ⟨-, hfeed⟩ := hplain
        · cases hallowed
        · cases hfeed

end

theorem readBasic?_escapeAll (row : Nat) (cs rest : List Char) :
    readBasic? (escapeAll false row cs ++ '"' :: rest) = some (cs, rest) := by
  induction cs generalizing row with
  | nil => rfl
  | cons c cs ih =>
    by_cases hquote : c = '"'
    · subst hquote
      rw [escapeAll_quote (by simp), List.cons_append, List.cons_append,
        readBasic?_escapes.letter _ rfl, ih]
      rfl
    · rw [escapeAll_other hquote, List.append_assoc,
        readBasic?_escapes.escapeChar hquote (by simp), ih]
      rfl

/-! ### Rows of quotes -/

/-- A reader that stops after three quotes in a row, or with the last three of up to five. -/
structure ReadsRows (mark : Char) (read : List Char → Option (List Char × List Char)) : Prop where
  lone : ∀ t, ¬ [mark, mark] <+: t → read (mark :: t) = push mark (read t)
  close : ∀ rest, rest.head? ≠ some mark →
    read (mark :: mark :: mark :: rest) = some ([], rest) ∧
    read (mark :: mark :: mark :: mark :: rest) = some ([mark], rest) ∧
    read (mark :: mark :: mark :: mark :: mark :: rest) = some ([mark, mark], rest)

theorem readMultilineBasic?_rows : ReadsRows '"' (readMultilineBasic? false) where
  lone t ht := by
    have hallowed : isAllowed '"' = true := rfl
    match t with
    | [] => rfl
    | [x] => simp [readMultilineBasic?, hallowed]
    | x :: y :: t =>
      by_cases hx : x = '"'
      · have hy : y ≠ '"' := by
          rintro rfl
          exact ht (by simp [hx])
        subst hx
        rw [readMultilineBasic?.eq_def]
        simp [hy, hallowed]
      · rw [readMultilineBasic?.eq_def]
        simp [hx, hallowed]
  close rest hrest := by
    cases rest with
    | nil => exact ⟨rfl, rfl, rfl⟩
    | cons x rest =>
      have hx : x ≠ '"' := by simpa using hrest
      simp [readMultilineBasic?, hx]

theorem readMultilineLiteral?_rows : ReadsRows '\'' readMultilineLiteral? where
  lone t ht := by
    have hallowed : isAllowed '\'' = true := rfl
    match t with
    | [] => rfl
    | [x] => simp [readMultilineLiteral?, hallowed]
    | x :: y :: t =>
      by_cases hx : x = '\''
      · have hy : y ≠ '\'' := by
          rintro rfl
          exact ht (by simp [hx])
        subst hx
        rw [readMultilineLiteral?.eq_def]
        simp [hy, hallowed]
      · rw [readMultilineLiteral?.eq_def]
        simp [hx, hallowed]
  close rest hrest := by
    cases rest with
    | nil => exact ⟨rfl, rfl, rfl⟩
    | cons x rest =>
      have hx : x ≠ '\'' := by simpa using hrest
      simp [readMultilineLiteral?, hx]

/-- A quote belongs to the string if at most one more follows it there, also right before its end. -/
theorem ReadsRows.quote (h : ReadsRows mark read) {body : List Char}
    (hbody : ¬ [mark, mark] <+: body) (hrest : rest.head? ≠ some mark) :
    read (mark :: (body ++ mark :: mark :: mark :: rest)) =
      push mark (read (body ++ mark :: mark :: mark :: rest)) := by
  by_cases hrow : [mark, mark] <+: body ++ mark :: mark :: mark :: rest
  · obtain ⟨hthree, hfour, hfive⟩ := h.close rest hrest
    match body with
    | [] =>
      rw [List.nil_append, hfour, hthree]
      rfl
    | [x] =>
      obtain ⟨rfl, -⟩ := List.cons_prefix_cons.mp hrow
      rw [List.singleton_append, hfive, hfour]
      rfl
    | x :: y :: body =>
      refine absurd ?_ hbody
      simpa using hrow
  · exact h.lone _ hrow

/-- No more than two quotes stand in a row, so that three of them end the string. -/
theorem quotes_not_prefix_escapeAll {row : Nat} (hrow : 1 ≤ row) (cs : List Char) :
    ¬ ['"', '"'] <+: escapeAll true row cs := by
  rintro ⟨t, ht⟩
  obtain hescape | ⟨hfirst, -, hlt⟩ := head_escapeAll (x := '"') (by rw [← ht]; rfl)
  · cases hescape
  obtain ⟨cs, rfl⟩ := List.head?_eq_some_iff.mp hfirst
  rw [escapeAll_row (hlt rfl).2] at ht
  -- After a quote that stands as it is, the next one is the third of its row and is escaped.
  have htail : '"' :: t = escapeAll true (row + 1) cs := List.tail_eq_of_cons_eq ht
  obtain hescape | ⟨-, -, hthird⟩ := head_escapeAll (x := '"') (by rw [← htail]; rfl)
  · cases hescape
  · have hsecond := (hthird rfl).2
    omega

theorem readMultilineBasic?_escapeAll (row : Nat) (cs : List Char) (hrest : rest.head? ≠ some '"') :
    readMultilineBasic? false (escapeAll true row cs ++ '"' :: '"' :: '"' :: rest) =
      some (cs, rest) := by
  induction cs generalizing row with
  | nil => exact (readMultilineBasic?_rows.close rest hrest).1
  | cons c cs ih =>
    by_cases hquote : c = '"'
    · subst hquote
      by_cases hrow : row < 2
      · rw [escapeAll_row hrow, List.cons_append,
          readMultilineBasic?_rows.quote (quotes_not_prefix_escapeAll (by omega) cs) hrest, ih]
        rfl
      · rw [escapeAll_quote (by omega), List.cons_append, List.cons_append,
          readMultilineBasic?_escapes.letter _ rfl, ih]
        rfl
    · rw [escapeAll_other hquote, List.append_assoc,
        readMultilineBasic?_escapes.escapeChar hquote ?_, ih]
      · rfl
      · intro _ rest
        rw [readMultilineBasic?.eq_def]
        simp

/-! ### Strings without escapes -/

theorem le_longestRow (mark : Char) (row : Nat) (cs : List Char) :
    row ≤ longestRow mark row cs := by
  induction cs generalizing row with
  | nil => exact Nat.le_refl row
  | cons c cs ih =>
    rw [longestRow]
    split
    · exact Nat.le_of_succ_le (ih (row + 1))
    · exact Nat.le_max_left ..

theorem not_prefix_of_longestRow {row : Nat} (h : longestRow mark (row + 1) cs ≤ 2) :
    ¬ [mark, mark] <+: cs := by
  rintro ⟨t, rfl⟩
  have hle := le_longestRow mark (row + 1 + 1 + 1) t
  simp only [List.cons_append, List.nil_append, longestRow, beq_self_eq_true, if_true] at h
  omega

theorem ne_return_of_not_needsCode {c : Char} (h : needsCode c = false) : c ≠ '\r' := by
  rintro rfl
  cases h

theorem readLiteral?_text (hcoded : ∀ c ∈ cs, needsCode c = false) (hline : '\n' ∉ cs)
    (hquote : '\'' ∉ cs) : readLiteral? (cs ++ '\'' :: rest) = some (cs, rest) := by
  induction cs with
  | nil => rfl
  | cons c cs ih =>
    rw [List.mem_cons, not_or] at hline hquote
    obtain ⟨hc, htail⟩ := List.forall_mem_cons.mp hcoded
    have hallowed := isAllowed_of_not_needsCode hc (Ne.symm hline.1)
    rw [List.cons_append, readLiteral?.eq_def]
    simp [hallowed, Ne.symm hquote.1, ih htail hline.2 hquote.2, push]

theorem readMultilineLiteral?_text {row : Nat} (hcoded : ∀ c ∈ cs, needsCode c = false)
    (hrow : longestRow '\'' row cs ≤ 2) (hrest : rest.head? ≠ some '\'') :
    readMultilineLiteral? (cs ++ '\'' :: '\'' :: '\'' :: rest) = some (cs, rest) := by
  induction cs generalizing row with
  | nil => exact (readMultilineLiteral?_rows.close rest hrest).1
  | cons c cs ih =>
    obtain ⟨hc, htail⟩ := List.forall_mem_cons.mp hcoded
    by_cases hquote : c = '\''
    · subst hquote
      have hnext : longestRow '\'' (row + 1) cs ≤ 2 := by simpa [longestRow] using hrow
      rw [List.cons_append,
        readMultilineLiteral?_rows.quote (not_prefix_of_longestRow hnext) hrest, ih htail hnext]
      rfl
    · have hnext : longestRow '\'' 0 cs ≤ 2 := by
        rw [longestRow, if_neg (by simpa using hquote)] at hrow
        exact Nat.le_trans (Nat.le_max_right ..) hrow
      have hallowed : c = '\n' ∨ isAllowed c = true := by
        by_cases hline : c = '\n'
        · exact .inl hline
        · exact .inr (isAllowed_of_not_needsCode hc hline)
      rw [List.cons_append, readMultilineLiteral?.eq_def]
      simp [hallowed, hquote, ne_return_of_not_needsCode hc, ih htail hnext, push]

/-! ### All forms -/

theorem Form.of_eq_literal (h : Form.of cs = .literal) :
    (∀ c ∈ cs, needsCode c = false) ∧ '\n' ∉ cs ∧ '\'' ∉ cs := by
  simp only [Form.of] at h
  split_ifs at h with hbasic hliteral
  simpa [and_assoc] using hliteral

theorem Form.of_eq_multilineLiteral (h : Form.of cs = .multilineLiteral) :
    (∀ c ∈ cs, needsCode c = false) ∧ longestRow '\'' 0 cs ≤ 2 := by
  simp only [Form.of] at h
  split_ifs at h with hbasic hliteral hmultiline hrow
  simpa using hrow

theorem dropLineEnd_leadingLine {text : List Char} (hmark : mark ≠ '\n' ∧ mark ≠ '\r')
    (htext : ∀ x, text.head? = some x → x ≠ '\r' ∧ (x = '\n' → '\n' ∈ cs)) :
    dropLineEnd (leadingLine cs ++ (text ++ mark :: rest)) = text ++ mark :: rest := by
  by_cases hline : '\n' ∈ cs
  · rw [leadingLine, if_pos (by simpa using hline)]
    rfl
  · rw [leadingLine, if_neg (by simpa using hline), List.nil_append]
    cases text with
    | nil => simp [dropLineEnd, afterLineEnd?, hmark]
    | cons x text =>
      obtain ⟨hreturn, hfeed⟩ := htext x rfl
      have hx : x ≠ '\n' := fun hx => hline (hfeed hx)
      simp [dropLineEnd, afterLineEnd?, hx, hreturn]

theorem not_prefix_closing {text : List Char} (htext : text.head? ≠ some mark)
    (hrest : rest.head? ≠ some mark) : ¬ [mark, mark] <+: text ++ mark :: rest := by
  rintro ⟨t, ht⟩
  cases text with
  | nil =>
    cases ht
    exact hrest rfl
  | cons x text =>
    obtain ⟨rfl, -⟩ := List.cons.inj ht
    exact htext rfl

theorem readString?_basic {t : List Char} (h : ¬ ['"', '"'] <+: t) :
    readString? ('"' :: t) = readBasic? t := by
  rw [readString?.eq_def]
  split <;> simp_all

theorem readString?_literal {t : List Char} (h : ¬ ['\'', '\''] <+: t) :
    readString? ('\'' :: t) = readLiteral? t := by
  rw [readString?.eq_def]
  split <;> simp_all

theorem readString?_writeString (cs : List Char) (hbasic : rest.head? ≠ some '"')
    (hliteral : rest.head? ≠ some '\'') :
    readString? (writeString cs ++ rest) = some (cs, rest) := by
  cases hform : Form.of cs with
  | basic =>
    simp only [writeString, hform, List.append_assoc, List.cons_append, List.nil_append]
    have hhead : (escapeAll false 0 cs).head? ≠ some '"' := by
      intro h
      obtain hescape | ⟨-, -, hquote⟩ := head_escapeAll h
      · cases hescape
      · cases (hquote rfl).1
    rw [readString?_basic (not_prefix_closing hhead hbasic), readBasic?_escapeAll]
  | literal =>
    obtain ⟨hcoded, hline, hquote⟩ := Form.of_eq_literal hform
    simp only [writeString, hform, List.append_assoc, List.cons_append, List.nil_append]
    have hhead : cs.head? ≠ some '\'' := fun h => hquote (List.mem_of_head? h)
    rw [readString?_literal (not_prefix_closing hhead hliteral),
      readLiteral?_text hcoded hline hquote]
  | multilineBasic =>
    simp only [writeString, hform, List.append_assoc, List.cons_append, List.nil_append]
    rw [readString?, dropLineEnd_leadingLine (by decide), readMultilineBasic?_escapeAll 0 cs hbasic]
    intro x hx
    obtain rfl | ⟨hfirst, hreturn, -⟩ := head_escapeAll hx
    · simp
    · exact ⟨hreturn, fun hfeed => List.mem_of_head? (hfeed ▸ hfirst)⟩
  | multilineLiteral =>
    obtain ⟨hcoded, hrow⟩ := Form.of_eq_multilineLiteral hform
    simp only [writeString, hform, List.append_assoc, List.cons_append, List.nil_append]
    rw [readString?, dropLineEnd_leadingLine (by decide),
      readMultilineLiteral?_text hcoded hrow hliteral]
    intro x hx
    have hmem := List.mem_of_head? hx
    exact ⟨ne_return_of_not_needsCode (hcoded x hmem), fun hfeed => hfeed ▸ hmem⟩

end
end FilterQuery.Toml
