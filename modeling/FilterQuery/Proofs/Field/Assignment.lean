import FilterQuery.Field
import FilterQuery.Proofs.Text.Trim

/-! Assignments with quoted values inside delimited text. Main statement: whatever the values hold, a
text of such assignments is split into just these assignments, their quotes dropped. -/
namespace FilterQuery.Field
open Text

/-- A value as it is written between quotes, with a backslash before each quote and backslash. -/
def protect (value : List Char) : List Char :=
  value.flatMap fun c => if c == quote || c == escape then [escape, c] else [c]

def assignment (key value : List Char) : List Char :=
  key ++ assign :: quote :: (protect value ++ [quote])

def protectedSymbol (c : Char) : Symbol :=
  if c == quote || c == escape then .escaped c else .plain c

def Symbol.char : Symbol → Char
  | plain c => c
  | escaped c => c

section
variable {separator : Char}

theorem symbols_cons {c : Char} (rest : List Char) (h : c ≠ escape) :
    symbols separator (c :: rest) = .plain c :: symbols separator rest := by
  cases rest with
  | nil => rfl
  | cons d rest => simp [symbols, h]

theorem symbols_escape {c : Char} (rest : List Char) (h : isEscapable separator c = true) :
    symbols separator (escape :: c :: rest) = .escaped c :: symbols separator rest := by
  simp [symbols, h]

theorem symbols_plain_append {u : List Char} (w : List Char) (h : ∀ c ∈ u, c ≠ escape) :
    symbols separator (u ++ w) = u.map .plain ++ symbols separator w := by
  induction u with
  | nil => rfl
  | cons c u ih =>
    rw [List.forall_mem_cons] at h
    rw [List.cons_append, symbols_cons _ h.1, ih h.2]
    rfl

theorem symbols_plain {u : List Char} (h : ∀ c ∈ u, c ≠ escape) :
    symbols separator u = u.map .plain := by
  have happend : symbols separator (u ++ []) = u.map .plain ++ symbols separator [] :=
    symbols_plain_append [] h
  simpa [symbols] using happend

/-- Characters with a backslash before some of them are read as these characters, if the backslash
itself is among those and all of them can be protected. -/
theorem symbols_flatMap {p : Char → Bool} (hp : ∀ c, p c = true → isEscapable separator c = true)
    (hescape : p escape = true) (value w : List Char) :
    symbols separator (value.flatMap (fun c => if p c then [escape, c] else [c]) ++ w) =
      value.map (fun c => if p c then .escaped c else .plain c) ++ symbols separator w := by
  induction value with
  | nil => rfl
  | cons c value ih =>
    rw [List.flatMap_cons, List.append_assoc, List.map_cons]
    by_cases hc : p c = true
    · rw [if_pos hc, if_pos hc]
      exact (symbols_escape _ (hp c hc)).trans (congrArg _ ih)
    · have hne : c ≠ escape := by
        rintro rfl
        exact hc hescape
      rw [if_neg hc, if_neg hc]
      exact (symbols_cons _ hne).trans (congrArg _ ih)

theorem symbols_protect (value w : List Char) :
    symbols separator (protect value ++ w) = value.map protectedSymbol ++ symbols separator w := by
  refine symbols_flatMap (fun c hc => ?_) (by decide) value w
  rw [isEscapable, hc, Bool.true_or]

theorem flatMap_escape_eq_self {p : Char → Bool} {value : List Char} (h : ∀ c ∈ value, p c = false) :
    value.flatMap (fun c => if p c then [escape, c] else [c]) = value := by
  induction value with
  | nil => rfl
  | cons c value ih =>
    rw [List.forall_mem_cons] at h
    rw [List.flatMap_cons, ih h.2, h.1]
    rfl

theorem protect_eq_self {value : List Char} (h : ∀ c ∈ value, c ≠ quote ∧ c ≠ escape) :
    protect value = value :=
  flatMap_escape_eq_self fun c hc => by simp [h c hc]

theorem map_char_plain (u : List Char) : (u.map .plain).map Symbol.char = u := by
  rw [List.map_map]
  exact List.map_id u

theorem map_char_protectedSymbol (value : List Char) :
    (value.map protectedSymbol).map Symbol.char = value := by
  rw [List.map_map]
  refine List.map_id'' (fun c => ?_) value
  rw [Function.comp_apply, protectedSymbol]
  split <;> rfl

theorem protectedSymbol_ne (c : Char) : protectedSymbol c ≠ .plain quote := by
  rw [protectedSymbol]
  split
  · exact Symbol.noConfusion
  · rename_i hc
    rintro ⟨rfl⟩
    exact hc rfl

theorem hasClosing_append (u : List Symbol) {after : List Symbol} (h : closes separator after = true) :
    hasClosing separator (u ++ .plain quote :: after) = true := by
  induction u with
  | nil => simp [hasClosing, h]
  | cons s u ih => simp [hasClosing, ih]

theorem scan_outside_append {u : List Symbol} (field : List Char) (rest : List Symbol)
    (h : ∀ s ∈ u, s ≠ .plain quote ∧ s ≠ .plain separator) :
    scan separator .outside field (u ++ rest) =
      scan separator .outside (field ++ u.map Symbol.char) rest := by
  induction u generalizing field with
  | nil => simp
  | cons s u ih =>
    rw [List.forall_mem_cons] at h
    have hstep : scan separator .outside field (s :: (u ++ rest)) =
        scan separator .outside (field ++ [s.char]) (u ++ rest) := by
      cases s with
      | escaped c => rw [scan]; rfl
      | plain c =>
        have hquote : c ≠ quote := fun hc => h.1.1 (congrArg _ hc)
        have hseparator : c ≠ separator := fun hc => h.1.2 (congrArg _ hc)
        rw [scan]
        simp [hquote, hseparator, Symbol.char]
    rw [List.cons_append, hstep, ih _ h.2, List.append_assoc]
    rfl

/-- Inside quotes, everything is taken as it is up to a quote that closes them. -/
theorem scan_inside_append {mode : Mode} (hmode : mode ≠ .outside) {u : List Symbol}
    (field : List Char) (rest : List Symbol)
    (h : ∀ v w, u = v ++ .plain quote :: w → closes separator (w ++ rest) = false) :
    scan separator mode field (u ++ rest) = scan separator mode (field ++ u.map Symbol.char) rest := by
  induction u generalizing field with
  | nil => simp
  | cons s u ih =>
    have hstep : scan separator mode field (s :: (u ++ rest)) =
        scan separator mode (field ++ [s.char]) (u ++ rest) := by
      cases s with
      | escaped c => rw [scan]; rfl
      | plain c =>
        have hopen : (c == quote && closes separator (u ++ rest)) = false := by
          by_cases hc : c = quote
          · rw [h [] u (by rw [hc]; rfl), Bool.and_false]
          · simp [hc]
        cases mode with
        | outside => exact absurd rfl hmode
        | dropped | kept => rw [scan, hopen]; rfl
    rw [List.cons_append, hstep, ih _ fun v w hu => h (s :: v) w (by rw [hu]; rfl),
      List.append_assoc]
    rfl

theorem protect_ne_append {value : List Char} {v w : List Symbol} :
    value.map protectedSymbol ≠ v ++ .plain quote :: w := by
  intro h
  have hmem : .plain quote ∈ value.map protectedSymbol := by rw [h]; simp
  obtain ⟨c, -, hc⟩ := List.mem_map.mp hmem
  exact protectedSymbol_ne c hc

theorem opens_assign (key : List Char) : opens (key ++ [assign]) = true := by
  have hblank : isBlank assign = false := by decide
  have halpha : isAlphanumeric assign = false := by decide
  simp [opens, trimEnd_concat key hblank, halpha]

theorem trim_assign_ne_nil (key : List Char) : trim (key ++ [assign]) ≠ [] := by
  intro h
  have hblank := (trim_eq_nil_iff _).mp h assign (by simp)
  exact absurd hblank (by decide)

/-- The scan takes a key and the quoted text assigned to it as one stretch of a field, if only the
last quote closes. -/
theorem scan_assigned {key : List Char} {inner after : List Symbol} (hassign : separator ≠ assign)
    (hkey : ∀ c ∈ key, c ≠ quote ∧ c ≠ separator)
    (hinner : ∀ v w, inner = v ++ .plain quote :: w →
      closes separator (w ++ .plain quote :: after) = false)
    (hclose : closes separator after = true) :
    scan separator .outside []
        ((key ++ [assign]).map .plain ++ .plain quote :: (inner ++ .plain quote :: after)) =
      scan separator .outside (key ++ assign :: quote :: (inner.map Symbol.char ++ [quote])) after := by
  have hstart : ∀ s ∈ (key ++ [assign]).map Symbol.plain,
      s ≠ .plain quote ∧ s ≠ .plain separator := by
    simp only [List.forall_mem_map, List.forall_mem_append, List.forall_mem_singleton, ne_eq,
      Symbol.plain.injEq]
    exact ⟨hkey, by decide, hassign.symm⟩
  have hopen : scan separator .outside (key ++ [assign])
      (.plain quote :: (inner ++ .plain quote :: after)) =
        scan separator .kept (key ++ [assign] ++ [quote]) (inner ++ .plain quote :: after) := by
    have hesc : quote ≠ escape := by decide
    rw [scan]
    simp [hesc, opens_assign, hasClosing_append _ hclose, trim_assign_ne_nil]
  have hend : ∀ field, scan separator .kept field (.plain quote :: after) =
      scan separator .outside (field ++ [quote]) after := by
    intro field
    rw [scan, hclose]
    rfl
  rw [scan_outside_append _ _ hstart, map_char_plain, List.nil_append, hopen,
    scan_inside_append (by decide) _ _ hinner, hend]
  simp

theorem scan_assignment {key w : List Char} (value : List Char) (hassign : separator ≠ assign)
    (hkey : ∀ c ∈ key, c ≠ quote ∧ c ≠ escape ∧ c ≠ separator)
    (hclose : closes separator (symbols separator w) = true) :
    scan separator .outside [] (symbols separator (assignment key value ++ w)) =
      scan separator .outside (key ++ assign :: quote :: (value ++ [quote])) (symbols separator w) := by
  have hplain : ∀ c ∈ key ++ [assign, quote], c ≠ escape := by
    simp only [List.forall_mem_append, List.forall_mem_cons]
    exact ⟨fun c hc => (hkey c hc).2.1, by decide, by decide, by simp⟩
  have htext : assignment key value ++ w =
      (key ++ [assign, quote]) ++ (protect value ++ quote :: w) := by
    simp [assignment]
  have hsymbols : symbols separator (assignment key value ++ w) =
      (key ++ [assign]).map .plain ++
        .plain quote :: (value.map protectedSymbol ++ .plain quote :: symbols separator w) := by
    rw [htext, symbols_plain_append _ hplain, symbols_protect, symbols_cons w (by decide)]
    simp
  rw [hsymbols, scan_assigned hassign (fun c hc => ⟨(hkey c hc).1, (hkey c hc).2.2⟩)
    (fun v w h => absurd h protect_ne_append) hclose, map_char_protectedSymbol]

theorem lastAssignment?_eq_none {cs : List Char} (h : ¬ [assign, quote] <:+: cs) :
    lastAssignment? cs = none := by
  induction cs with
  | nil => rfl
  | cons c rest ih =>
    rw [lastAssignment?.eq_def]
    dsimp only
    rw [ih fun hin => h (List.infix_cons hin)]
    cases rest with
    | nil => rfl
    | cons d rest =>
      refine if_neg fun hcd => h ?_
      obtain ⟨rfl, rfl⟩ : c = assign ∧ d = quote := by simpa using hcd
      exact ⟨[], rest, rfl⟩

theorem eq_of_lastAssignment? {cs key value : List Char}
    (h : lastAssignment? cs = some (key, value)) : cs = key ++ assign :: quote :: value := by
  induction cs generalizing key with
  | nil => cases h
  | cons c rest ih =>
    rw [lastAssignment?.eq_def] at h
    dsimp only at h
    cases hrest : lastAssignment? rest with
    | some parts =>
      rw [hrest] at h
      cases h
      rw [ih hrest]
      rfl
    | none =>
      rw [hrest] at h
      cases rest with
      | nil => cases h
      | cons d rest =>
        dsimp only at h
        split at h
        · rename_i hcd
          cases h
          obtain ⟨rfl, rfl⟩ : c = assign ∧ d = quote := by simpa using hcd
          rfl
        · cases h

theorem lastAssignment?_append (key : List Char) {value : List Char}
    (h : lastAssignment? value = none) :
    lastAssignment? (key ++ assign :: quote :: value) = some (key, value) := by
  induction key with
  | nil =>
    have hquote : lastAssignment? (quote :: value) = none := by
      have hne : (quote == assign) = false := by decide
      cases value with
      | nil => simp [lastAssignment?]
      | cons d rest =>
        rw [lastAssignment?, h]
        simp [hne]
    rw [List.nil_append, lastAssignment?, hquote]
    simp
  | cons c key ih =>
    rw [List.cons_append, lastAssignment?.eq_def]
    dsimp only
    rw [ih]

/-- Finishing a field with an assignment drops blanks before the key and the quotes of the value. -/
theorem finish_assignment (key : List Char) {value : List Char} (h : lastAssignment? value = none) :
    finish (key ++ assign :: quote :: (value ++ [quote])) = trimStart key ++ assign :: value := by
  have hassign : isBlank assign = false := by decide
  have hquote : isBlank quote = false := by decide
  have htrim : trim (key ++ assign :: quote :: (value ++ [quote])) =
      (trimStart key ++ assign :: quote :: value) ++ [quote] := by
    rw [trim, trimStart_append_cons _ _ hassign]
    have hshape : trimStart key ++ assign :: quote :: (value ++ [quote]) =
        (trimStart key ++ assign :: quote :: value) ++ [quote] := by simp
    rw [hshape, trimEnd_concat _ hquote]
  rw [finish, htrim, dropQuotes, List.dropLast_concat, lastAssignment?_append _ h,
    List.getLast?_concat, beq_self_eq_true, if_pos rfl]

theorem finish_eq_self {field : List Char} (htrim : trim field = field)
    (h : ∀ key value, field ≠ key ++ assign :: quote :: (value ++ [quote])) : finish field = field := by
  rw [finish, htrim, dropQuotes]
  split
  · rename_i hlast
    obtain ⟨init, rfl⟩ := List.getLast?_eq_some_iff.mp (by simpa using hlast)
    rw [List.dropLast_concat]
    split
    · rename_i key value hparts
      refine absurd ?_ (h key value)
      rw [eq_of_lastAssignment? hparts]
      simp
    · rfl
  · rfl

end
end FilterQuery.Field
