import FilterQuery.Proofs.Field.Conservation
import FilterQuery.Proofs.Field.Encoding
import FilterQuery.Proofs.Value.Guess

/-! Lists of quoted elements. As they are written they are read back element by element; without the
first and the last quote they are not, unless there is one element and nothing in it to split at. -/
namespace FilterQuery
open Text FilterQuery.Field

/-- A trimmed text on one line that quotes protect whole, and that no operator cuts. -/
structure ElementText (element : String) : Prop where
  nonempty : element.toList ≠ []
  trimmed : trim element.toList = element.toList
  chars : ∀ c ∈ element.toList, c ∉ ['\'', '\\', ',', '\n', '=', '<', '>']

def elementsText (elements : List String) : String :=
  "|".intercalate (elements.map fun element => "'" ++ element ++ "'")

def innerText (elements : List String) : String :=
  "'|'".intercalate elements

theorem innerText_cons_cons (element next : String) (rest : List String) :
    (innerText (element :: next :: rest)).toList =
      element.toList ++ '\'' :: '|' :: '\'' :: (innerText (next :: rest)).toList := by
  simp [innerText, String.toList_intercalate]

theorem toList_elementsText {elements : List String} (hne : elements ≠ []) :
    (elementsText elements).toList = quote :: ((innerText elements).toList ++ [quote]) := by
  induction elements with
  | nil => exact absurd rfl hne
  | cons element rest ih =>
    cases rest with
    | nil => simp [elementsText, innerText, quote]
    | cons next rest =>
      have hcons : (elementsText (element :: next :: rest)).toList =
          quote :: (element.toList ++ quote :: '|' :: (elementsText (next :: rest)).toList) := by
        simp [elementsText, String.toList_intercalate, quote]
      rw [hcons, ih (by simp), innerText_cons_cons]
      simp [quote]

namespace ElementText
variable {element : String}

theorem not_mem (h : ElementText element) {c : Char}
    (hc : c ∈ ['\'', '\\', ',', '\n', '=', '<', '>']) : c ∉ element.toList :=
  fun hmem => h.chars c hmem hc

theorem head_not_blank (h : ElementText element) {c : Char} {rest : List Char}
    (hcs : element.toList = c :: rest) : isBlank c = false := by
  have htrim := h.trimmed
  obtain ⟨g, hg, -⟩ := exists_trimEnd_append_blanks (trimStart element.toList)
  rw [trim, hcs] at htrim
  rw [hcs, htrim] at hg
  exact head_trimStart hg

theorem finish_eq (h : ElementText element) : finish element.toList = element.toList := by
  refine finish_eq_self h.trimmed fun key value hfield => ?_
  exact h.not_mem (by decide : '=' ∈ _) (by rw [hfield]; simp [assign])

theorem inert (h : ElementText element) {u : List Char} (hu : u ⊆ element.toList) (hmem : '|' ∉ u) :
    ∀ s ∈ u.map Symbol.plain, s ≠ .plain quote ∧ s ≠ .plain '|' := by
  simp only [List.forall_mem_map, ne_eq, Symbol.plain.injEq]
  refine fun c hc => ⟨fun hquote => ?_, fun hseparator => hmem (hseparator ▸ hc)⟩
  exact h.not_mem (by decide : quote ∈ _) (hu (hquote ▸ hc))

theorem text_quoted (h : ElementText element) :
    (Encoding.quoted element.toList).text '|' = ("'" ++ element ++ "'").toList := by
  have hplain : ∀ c ∈ element.toList, c ≠ quote ∧ c ≠ escape := by
    intro c hc
    exact ⟨fun hcq => h.not_mem (by decide : quote ∈ _) (hcq ▸ hc),
      fun hce => h.not_mem (by decide : escape ∈ _) (hce ▸ hc)⟩
  rw [Encoding.text, protect_eq_self hplain]
  simp [quote]

end ElementText

section
variable {elements : List String}

/-- Quoted elements are read back as they are, separators inside them included. -/
theorem values_elementsText (hne : elements ≠ []) (h : ∀ element ∈ elements, ElementText element) :
    values '|' (elementsText elements) = elements.map Value.guess := by
  let fields := elements.map fun element => Encoding.quoted element.toList
  have htext : (elementsText elements).toList = Encoding.join '|' fields := by
    rw [elementsText, String.toList_intercalate, Encoding.join, List.map_map, List.map_map]
    exact congrArg _ (List.map_congr_left fun element he => (h element he).text_quoted.symm)
  have hfits : ∀ e ∈ fields, e.Fits '|' := List.forall_mem_map.mpr fun _ _ => trivial
  have hscan : scan '|' .outside [] (symbols '|' (Encoding.join '|' fields)) =
      fields.map Encoding.raw :=
    Encoding.scan_join (by decide) (by decide) (by decide) (by simpa [fields] using hne) hfits
  have hsplit : split '|' (elementsText elements) = elements := by
    have hfinish : ∀ element ∈ elements, String.ofList (finish element.toList) = id element := by
      intro element he
      rw [(h element he).finish_eq, String.ofList_toList]
      rfl
    rw [split, htext, hscan, List.map_map, List.map_map]
    exact (List.map_congr_left hfinish).trans (List.map_id elements)
  rw [values, hsplit]

theorem scan_quote {separator : Char} (hseparator : separator ≠ quote) {field : List Char}
    (hfield : trim field ≠ []) (s : List Symbol) :
    ∃ more rest, scan separator .outside field (.plain quote :: s) =
      (field ++ quote :: more) :: rest := by
  have hesc : quote ≠ escape := by decide
  have hstep : ∃ mode, scan separator .outside field (.plain quote :: s) =
      scan separator mode (field ++ [quote]) s := by
    rw [scan]
    split
    · exact ⟨_, rfl⟩
    · split
      · exact ⟨.kept, if_neg (by simpa using hfield)⟩
      · exact ⟨.outside, if_neg (by simpa using hseparator.symm)⟩
  obtain ⟨mode, hmode⟩ := hstep
  obtain ⟨more, rest, hhead⟩ := scan_head separator mode (field ++ [quote]) s
  exact ⟨more, rest, by rw [hmode, hhead]; simp⟩

theorem mem_dropQuotes {field : List Char} (h : quote ∈ field) :
    quote ∈ dropQuotes field ∨ assign ∈ dropQuotes field := by
  rw [dropQuotes]
  split
  · split
    · exact .inr (by simp)
    · exact .inl h
  · exact .inl h

theorem mem_innerText {c : Char} (hc : c ∈ (innerText elements).toList) :
    c = '\'' ∨ c = '|' ∨ ∃ element ∈ elements, c ∈ element.toList := by
  induction elements with
  | nil => simp [innerText] at hc
  | cons element rest ih =>
    cases rest with
    | nil => exact .inr (.inr ⟨element, by simp, by simpa [innerText] using hc⟩)
    | cons next rest =>
      rw [innerText_cons_cons] at hc
      simp only [List.mem_append, List.mem_cons] at hc
      obtain hc | rfl | rfl | rfl | hc := hc
      · exact .inr (.inr ⟨element, by simp, hc⟩)
      · exact .inl rfl
      · exact .inr (.inl rfl)
      · exact .inl rfl
      · obtain rfl | rfl | ⟨other, hother, hc⟩ := ih hc
        · exact .inl rfl
        · exact .inr (.inl rfl)
        · exact .inr (.inr ⟨other, List.mem_cons_of_mem element hother, hc⟩)

theorem not_mem_innerText (h : ∀ element ∈ elements, ElementText element) {c : Char}
    (hc : c ∈ ['\\', ',', '\n', '=', '<', '>']) : c ∉ (innerText elements).toList := by
  intro hmem
  have hplain : ∀ c ∈ ['\\', ',', '\n', '=', '<', '>'], c ≠ '\'' ∧ c ≠ '|' := by simp
  obtain rfl | rfl | ⟨element, he, hin⟩ := mem_innerText hmem
  · exact (hplain _ hc).1 rfl
  · exact (hplain _ hc).2 rfl
  · exact (h element he).not_mem (List.mem_cons_of_mem _ hc) hin

theorem symbols_innerText (separator : Char) (h : ∀ element ∈ elements, ElementText element) :
    symbols separator (innerText elements).toList = (innerText elements).toList.map .plain := by
  have hplain : ∀ c ∈ (innerText elements).toList, c ≠ escape := by
    rintro c hc rfl
    exact not_mem_innerText h (by decide : escape ∈ _) hc
  exact symbols_plain hplain

end

section
variable {element : String} {rest : List String}

theorem exists_innerText_cons (element : String) (rest : List String) :
    ∃ tail, (innerText (element :: rest)).toList = element.toList ++ tail := by
  cases rest with
  | nil => exact ⟨[], by simp [innerText]⟩
  | cons next rest => exact ⟨_, innerText_cons_cons element next rest⟩

theorem scan_innerText_of_mem (h : ∀ e ∈ element :: rest, ElementText e)
    (hmem : '|' ∈ element.toList) :
    ∃ a others, '|' ∉ a ∧
      scan '|' .outside [] (symbols '|' (innerText (element :: rest)).toList) = a :: others := by
  obtain ⟨tail, htail⟩ := exists_innerText_cons element rest
  obtain ⟨a, b, hab, ha⟩ := List.eq_append_cons_of_mem hmem
  have hinert := (h element List.mem_cons_self).inert (by simp [hab]) ha
  refine ⟨a, scan '|' .outside [] ((b ++ tail).map .plain), ha, ?_⟩
  have hsymbols : symbols '|' (innerText (element :: rest)).toList =
      a.map .plain ++ .plain '|' :: (b ++ tail).map .plain := by
    rw [symbols_innerText '|' h, htail, hab]
    simp
  rw [hsymbols, scan_outside_append _ _ hinert, map_char_plain, List.nil_append]
  rfl

theorem scan_innerText_cons_cons {next : String}
    (h : ∀ e ∈ element :: next :: rest, ElementText e) (hmem : '|' ∉ element.toList) :
    ∃ more others, scan '|' .outside [] (symbols '|' (innerText (element :: next :: rest)).toList) =
      (element.toList ++ quote :: more) :: others := by
  have he := h element List.mem_cons_self
  rw [symbols_innerText '|' h, innerText_cons_cons, List.map_append, List.map_cons,
    scan_outside_append _ _ (he.inert (List.Subset.refl _) hmem), map_char_plain, List.nil_append]
  exact scan_quote (by decide) (by rw [he.trimmed]; exact he.nonempty) _

theorem scan_innerText_singleton (h : ElementText element) (hmem : '|' ∉ element.toList) :
    scan '|' .outside [] (symbols '|' (innerText [element]).toList) = [element.toList] := by
  have hinner : (innerText [element]).toList = element.toList := by simp [innerText]
  have hscan := scan_outside_append [] [] (h.inert (List.Subset.refl _) hmem)
  rw [List.append_nil, map_char_plain, List.nil_append] at hscan
  rw [symbols_innerText '|' (by simpa using h), hinner, hscan]
  rfl

end

section
variable {element : String} {rest : List String}

/-- The first field is enough to tell the elements that are read from those that are meant. -/
theorem guess_finish_of_values (heq : values '|' (innerText (element :: rest)) =
      (element :: rest).map Value.guess) {raw : List Char} {others : List (List Char)}
    (hscan : scan '|' .outside [] (symbols '|' (innerText (element :: rest)).toList) =
      raw :: others) :
    Value.guess (String.ofList (finish raw)) = Value.guess element := by
  rw [values, split, hscan] at heq
  exact (List.cons.inj heq).1

theorem guess_ne_of_separator (hmem : '|' ∈ element.toList) {raw : List Char} (hraw : '|' ∉ raw) :
    Value.guess (String.ofList (finish raw)) ≠ Value.guess element := by
  intro hguess
  rw [Value.guess_of_isForeign (by decide : isForeign '|' = true) hmem] at hguess
  rw [← Value.eq_of_guess_eq_string hguess, String.toList_ofList] at hmem
  exact hraw ((thins_finish '|' raw).sublist.subset hmem)

theorem ElementText.guess_ne (h : ElementText element) {field : List Char} {c : Char}
    (hc : c ∈ [quote, assign]) (hin : c ∈ field) :
    Value.guess (String.ofList field) ≠ Value.guess element := by
  intro hguess
  obtain ⟨hforeign, hreserved⟩ :
      isForeign c = true ∧ c ∈ ['\'', '\\', ',', '\n', '=', '<', '>'] := by
    obtain rfl | rfl : c = quote ∨ c = assign := by simpa using hc
    · decide
    · decide
  rw [Value.guess_of_isForeign hforeign (by rwa [String.toList_ofList])] at hguess
  rw [← String.toList_ofList (l := field), ← Value.eq_of_guess_eq_string hguess.symm] at hin
  exact h.not_mem hreserved hin

end

/-- Without the first and the last quote, the elements are read back only if there is just one, with
no separator in it. -/
theorem values_innerText_eq_iff {elements : List String} (hne : elements ≠ [])
    (h : ∀ element ∈ elements, ElementText element) :
    values '|' (innerText elements) = elements.map Value.guess ↔
      ∃ element, elements = [element] ∧ '|' ∉ element.toList := by
  constructor
  · intro heq
    obtain ⟨element, rest, rfl⟩ := List.exists_cons_of_ne_nil hne
    have hmem : '|' ∉ element.toList := by
      intro hmem
      obtain ⟨a, others, ha, hscan⟩ := scan_innerText_of_mem h hmem
      exact guess_ne_of_separator hmem ha (guess_finish_of_values heq hscan)
    cases rest with
    | nil => exact ⟨element, rfl, hmem⟩
    | cons next rest =>
      have he := h element List.mem_cons_self
      obtain ⟨more, others, hscan⟩ := scan_innerText_cons_cons h hmem
      have hguess := guess_finish_of_values heq hscan
      -- the first field holds a quote, or an assignment mark if its last quote is dropped
      have hquote : quote ∈ trim (element.toList ++ quote :: more) :=
        mem_trim (by simp) (by decide)
      obtain hin | hin := mem_dropQuotes hquote
      · exact absurd hguess (he.guess_ne (by simp) hin)
      · exact absurd hguess (he.guess_ne (by simp) hin)
  · rintro ⟨element, rfl, hmem⟩
    have he := h element (by simp)
    rw [values, split, scan_innerText_singleton he hmem]
    simp [he.finish_eq]

end FilterQuery
