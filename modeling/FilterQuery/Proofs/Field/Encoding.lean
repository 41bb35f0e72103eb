import FilterQuery.Proofs.Field.Assignment

/-! Fields written so that splitting cannot mistake them. Main statement: fields that are escaped,
quoted or assigned with quotes, each in its own way, come back one by one, whatever they hold. -/
namespace FilterQuery.Field
open Text

/-- The ways to write a field: with a backslash before each quote, backslash and separator, in quotes,
or as a key with the assigned value in quotes. -/
inductive Encoding where
  | escaped (content : List Char)
  | quoted (content : List Char)
  | assigned (key value : List Char)
deriving DecidableEq, Repr

namespace Encoding

def text (separator : Char) : Encoding → List Char
  | escaped content => content.flatMap fun c => if isEscapable separator c then [escape, c] else [c]
  | quoted content => quote :: (protect content ++ [quote])
  | assigned key value => assignment key value

def raw : Encoding → List Char
  | escaped content => content
  | quoted content => content
  | assigned key value => key ++ assign :: quote :: (value ++ [quote])

/-- A key holds nothing that has a meaning to the splitting, and the mark after it is no separator. -/
def Fits (separator : Char) : Encoding → Prop
  | escaped _ => True
  | quoted _ => True
  | assigned key _ => separator ≠ assign ∧ ∀ c ∈ key, c ≠ quote ∧ c ≠ escape ∧ c ≠ separator

def join (separator : Char) (fields : List Encoding) : List Char :=
  [separator].intercalate (fields.map (text separator))

variable {separator : Char}

theorem scan_escaped (content w : List Char) :
    scan separator .outside [] (symbols separator ((escaped content).text separator ++ w)) =
      scan separator .outside content (symbols separator w) := by
  have hsymbols : symbols separator ((escaped content).text separator ++ w) =
      content.map (fun c => if isEscapable separator c then .escaped c else .plain c) ++
        symbols separator w :=
    symbols_flatMap (fun _ hc => hc) (by simp [isEscapable]) content w
  have hinert : ∀ s ∈ content.map (fun c => if isEscapable separator c then Symbol.escaped c
      else .plain c), s ≠ .plain quote ∧ s ≠ .plain separator := by
    rw [List.forall_mem_map]
    intro c _
    split
    · exact ⟨Symbol.noConfusion, Symbol.noConfusion⟩
    · rename_i hc
      have hquote : c ≠ quote := by
        rintro rfl
        simp [isEscapable] at hc
      have hseparator : c ≠ separator := by
        rintro rfl
        simp [isEscapable] at hc
      simpa using ⟨hquote, hseparator⟩
  have hchars : (content.map fun c => if isEscapable separator c then Symbol.escaped c
      else .plain c).map Symbol.char = content := by
    rw [List.map_map]
    refine List.map_id'' (fun c => ?_) content
    rw [Function.comp_apply]
    split <;> rfl
  rw [hsymbols, scan_outside_append _ _ hinert, hchars, List.nil_append]

theorem scan_quoted (content : List Char) {w : List Char}
    (hclose : closes separator (symbols separator w) = true) :
    scan separator .outside [] (symbols separator ((quoted content).text separator ++ w)) =
      scan separator .outside content (symbols separator w) := by
  have hsymbols : symbols separator ((quoted content).text separator ++ w) =
      .plain quote :: (content.map protectedSymbol ++ .plain quote :: symbols separator w) := by
    rw [text, List.cons_append, List.append_assoc, symbols_cons _ (by decide), symbols_protect,
      List.singleton_append, symbols_cons w (by decide)]
  have hopen : ∀ rest, hasClosing separator rest = true →
      scan separator .outside [] (.plain quote :: rest) = scan separator .dropped [] rest := by
    intro rest hrest
    have hesc : quote ≠ escape := by decide
    rw [scan]
    simp [hesc, opens, trimEnd, hrest, trim, trimStart]
  have hend : scan separator .dropped content (.plain quote :: symbols separator w) =
      scan separator .outside content (symbols separator w) := by
    rw [scan, hclose]
    rfl
  rw [hsymbols, hopen _ (hasClosing_append _ hclose),
    scan_inside_append (by decide) _ _ fun v w h => absurd h protect_ne_append,
    map_char_protectedSymbol, List.nil_append, hend]

theorem scan_text {e : Encoding} (hfits : e.Fits separator) {w : List Char}
    (hclose : closes separator (symbols separator w) = true) :
    scan separator .outside [] (symbols separator (e.text separator ++ w)) =
      scan separator .outside e.raw (symbols separator w) := by
  cases e with
  | escaped content => exact scan_escaped content w
  | quoted content => exact scan_quoted content hclose
  | assigned key value => exact scan_assignment value hfits.1 hfits.2 hclose

theorem scan_join (hquote : separator ≠ quote) (hescape : separator ≠ escape)
    (hblank : isBlank separator = false) {fields : List Encoding} (hne : fields ≠ [])
    (hfits : ∀ e ∈ fields, e.Fits separator) :
    scan separator .outside [] (symbols separator (join separator fields)) = fields.map raw := by
  rw [join]
  induction fields with
  | nil => exact absurd rfl hne
  | cons e rest ih =>
    rw [List.forall_mem_cons] at hfits
    cases rest with
    | nil =>
      have hscan := scan_text hfits.1 (w := []) rfl
      rw [List.append_nil] at hscan
      simpa [scan, symbols] using hscan
    | cons next rest =>
      have hsymbols : ∀ w, symbols separator (separator :: w) =
          .plain separator :: symbols separator w := fun w => symbols_cons w hescape
      have hclose : ∀ w, closes separator (symbols separator (separator :: w)) = true := by
        intro w
        rw [hsymbols, closes]
        simp [Symbol.lead, hblank]
      have hcut : ∀ field rest, scan separator .outside field (.plain separator :: rest) =
          field :: scan separator .outside [] rest := by
        intro field rest
        rw [scan]
        simp [hquote, hescape]
      rw [List.map_cons, List.map_cons, List.intercalate_cons_cons, List.append_assoc,
        List.singleton_append, scan_text hfits.1 (hclose _), hsymbols, hcut]
      exact congrArg _ (ih (by simp) hfits.2)

end Encoding

open Encoding

/-- Fields come back one by one, however each of them is written, for any separator but a quote, a
backslash, a blank and, where values are assigned, the assignment mark: each field is its content,
finished. A trimmed content that is no assignment of a quoted value comes back as it is, and an
assigned value comes back without its quotes unless another assignment of a quoted value is in it. -/
theorem split_join (separator : Char) (hquote : separator ≠ quote) (hescape : separator ≠ escape)
    (hblank : isBlank separator = false) (fields : List Encoding) (hne : fields ≠ [])
    (hfits : ∀ e ∈ fields, e.Fits separator) :
    split separator (String.ofList (join separator fields)) =
      fields.map (fun e => String.ofList (finish e.raw)) ∧
    (∀ content, trim content = content →
      (∀ key value, content ≠ key ++ assign :: quote :: (value ++ [quote])) →
      finish (escaped content).raw = content ∧ finish (quoted content).raw = content) ∧
    ∀ key value, ¬ [assign, quote] <:+: value →
      finish (assigned key value).raw = trimStart key ++ assign :: value := by
  refine ⟨?_, ?_, ?_⟩
  · rw [split, String.toList_ofList, scan_join hquote hescape hblank hne hfits, List.map_map]
    rfl
  · intro content htrim hno
    exact ⟨finish_eq_self htrim hno, finish_eq_self htrim hno⟩
  · intro key value hno
    exact finish_assignment key (lastAssignment?_eq_none hno)

theorem split_join_mixed :
    let fields := [escaped ['a', ',', '\''], quoted [' ', 'x', ',', '\\'],
      assigned ['k'] ['v', ',', '=', '\'']]
    (',' ≠ quote ∧ ',' ≠ escape ∧ isBlank ',' = false) ∧ (∀ e ∈ fields, e.Fits ',') ∧
      split ',' "a\\,\\',' x,\\\\',k='v,=\\''" = ["a,'", "x,\\", "k='v,="] := by
  intro fields
  have hseparator : ',' ≠ quote ∧ ',' ≠ escape ∧ isBlank ',' = false := by decide
  have hfits : ∀ e ∈ fields, e.Fits ',' := by
    simp [fields, Fits, quote, escape, assign]
  refine ⟨hseparator, hfits, ?_⟩
  exact (split_join ',' hseparator.1 hseparator.2.1 hseparator.2.2 fields (by simp [fields]) hfits).1

/-- The assignment mark as a separator cuts an assigned value off its key. -/
theorem split_join_assign :
    ('=' ≠ quote ∧ '=' ≠ escape ∧ isBlank '=' = false) ∧
      (∀ c ∈ ['a'], c ≠ quote ∧ c ≠ escape ∧ c ≠ '=') ∧
      split '=' (String.ofList (join '=' [assigned ['a'] ['b']])) = ["a", "b"] ∧
      [assigned ['a'] ['b']].map (fun e => String.ofList (finish e.raw)) = ["a=b"] := by
  refine ⟨by decide, by simp [quote, escape], ?_, ?_⟩
  · decide +kernel
  · decide +kernel

end FilterQuery.Field
