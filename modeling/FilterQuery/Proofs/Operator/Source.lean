import FilterQuery.Host
import Mathlib.Data.List.Basic

/-! The sources of operator patterns. Main statement: the source that a definition shows for an
operator between or after its operands reads as a field, the very characters of the id and perhaps an
operand, whatever characters the id is made of. -/
namespace FilterQuery

namespace Pattern

section
variable {fuel : Nat} {flags : Flags} {names : List String}

/-! ### Pieces of a branch -/

theorem readBranch?_atom {c : Char} {cs more rest : List Char} {p q : Pattern} {r : Read}
    (hc : c ∉ ['|', ')', '(']) (hatom : readAtom? flags (c :: cs) = some (p, more))
    (hrepeat : readRepetitions? (more.length + 1) p more = some (q, rest))
    (hrest : readBranch? fuel flags names rest = some r) :
    readBranch? (fuel + 1) flags names (c :: cs) =
      some { r with pattern := followedBy q r.pattern } := by
  simp only [List.mem_cons, List.not_mem_nil, or_false, not_or] at hc
  rw [readBranch?]
  · simp only [hatom, hrepeat, hrest]
    rfl
  all_goals simp [hc]

theorem readBranch?_group {cs inside after rest : List Char} {name : Option String}
    {inner ended : Flags} {used : List String} {p q : Pattern} {r : Read}
    (hopen : readOpening? flags names cs = some (.group name inner, inside))
    (hinside : readChoice? fuel inner (name.toList ++ names) inside =
      some ⟨p, ended, used, ')' :: after⟩)
    (hrepeat : readRepetitions? (after.length + 1) (ofGroup name p) after = some (q, rest))
    (hrest : readBranch? fuel flags used rest = some r) :
    readBranch? (fuel + 1) flags names ('(' :: cs) =
      some { r with pattern := followedBy q r.pattern } := by
  rw [readBranch?]
  simp only [hopen, hinside, hrepeat, hrest]
  rfl

theorem readChoice?_branch {cs : List Char} {r : Read}
    (hbranch : readBranch? fuel flags names cs = some r) (hend : r.rest.head? ≠ some '|') :
    readChoice? (fuel + 1) flags names cs = some r := by
  rw [readChoice?, hbranch]
  split
  · rename_i hr
    cases hr
    simp at hend
  · rfl

def repeatMarks : List Char := ['*', '+', '?', '\x7b']

theorem readRepetitions?_none {p : Pattern} {cs : List Char}
    (h : ∀ c ∈ repeatMarks, cs.head? ≠ some c) :
    readRepetitions? (fuel + 1) p cs = some (p, cs) := by
  have hne : ∀ c ∈ repeatMarks, ∀ rest, cs = c :: rest → False := by
    rintro c hc rest rfl
    exact h c hc rfl
  rw [readRepetitions?]
  all_goals exact hne _ (by decide)

end

/-! ### Escaped texts -/

def escaping (text : List Char) : List Char :=
  text.flatMap fun c => if metaChars.contains c then ['\\', c] else [c]

theorem toList_escape (text : String) : (escape text).toList = escaping text.toList :=
  String.toList_ofList

theorem escaping_cons_of_mem {c : Char} (hc : c ∈ metaChars) (text : List Char) :
    escaping (c :: text) = '\\' :: c :: escaping text := by
  simp [escaping, hc]

theorem escaping_cons_of_not_mem {c : Char} (hc : c ∉ metaChars) (text : List Char) :
    escaping (c :: text) = c :: escaping text := by
  simp [escaping, hc]

def noFlags : Flags := ⟨false, false⟩

theorem escaped?_of_metaChars {c : Char} (hc : c ∈ metaChars) : escaped? c = some (.char c) := by
  have hall : metaChars.map escaped? = metaChars.map (fun c => some (.char c)) := by rfl
  exact List.map_inj_left.mp hall c hc

theorem readAtom?_escape {c : Char} (hc : c ∈ metaChars) (rest : List Char) :
    readAtom? noFlags ('\\' :: c :: rest) = some (.one (.single c), rest) := by
  rw [readAtom?, escaped?_of_metaChars hc]
  rfl

theorem readAtom?_plain {c : Char} (hc : c ∉ metaChars) (rest : List Char) :
    readAtom? noFlags (c :: rest) = some (.one (.single c), rest) := by
  have hne : ∀ d ∈ metaChars, c ≠ d := fun d hd h => hc (h ▸ hd)
  rw [readAtom?]
  · have hmarks : c ≠ '*' ∧ c ≠ '+' ∧ c ≠ '?' ∧ c ≠ '\x7b' :=
      ⟨hne _ (by decide), hne _ (by decide), hne _ (by decide), hne _ (by decide)⟩
    simp [hmarks, noFlags, Flags.apply]
  all_goals
    intros
    exact absurd ‹c = _› (hne _ (by decide))

theorem head?_escaping_ne (text rest : List Char) :
    ∀ c ∈ repeatMarks, (escaping text ++ ')' :: rest).head? ≠ some c := by
  intro c hc
  cases text with
  | nil =>
    have hclose : ')' ∉ repeatMarks := by decide
    simpa [escaping] using fun h : ')' = c => hclose (h ▸ hc)
  | cons d text =>
    by_cases hd : d ∈ metaChars
    · have hescape : '\\' ∉ repeatMarks := by decide
      rw [escaping_cons_of_mem hd]
      simpa using fun h : '\\' = c => hescape (h ▸ hc)
    · have hmarks : repeatMarks ⊆ metaChars := by decide
      rw [escaping_cons_of_not_mem hd]
      simpa using fun h : d = c => hd (h ▸ hmarks hc)

theorem followedBy_text (c : Char) (rest : List Char) :
    followedBy (.one (.single c)) (.text rest) = .text (c :: rest) := by
  cases rest with
  | nil => rfl
  | cons d rest => cases rest <;> rfl

/-- An escaped text inside a group reads as the characters of the text in a row. -/
theorem readBranch?_escaping (names : List String) (text rest : List Char) {fuel : Nat}
    (hfuel : text.length < fuel) :
    readBranch? fuel noFlags names (escaping text ++ ')' :: rest) =
      some ⟨.text text, noFlags, names, ')' :: rest⟩ := by
  induction text generalizing fuel with
  | nil =>
    obtain ⟨n, rfl⟩ := Nat.exists_eq_add_of_lt hfuel
    rfl
  | cons c text ih =>
    obtain ⟨n, rfl⟩ : ∃ n, fuel = n + 1 := Nat.exists_eq_succ_of_ne_zero (by omega)
    rw [List.length_cons] at hfuel
    have hrest := ih (Nat.lt_of_succ_lt_succ hfuel)
    have hrepeat : ∀ p, readRepetitions? ((escaping text ++ ')' :: rest).length + 1) p
        (escaping text ++ ')' :: rest) = some (p, escaping text ++ ')' :: rest) :=
      fun p => readRepetitions?_none (head?_escaping_ne text rest)
    rw [← followedBy_text]
    by_cases hc : c ∈ metaChars
    · rw [escaping_cons_of_mem hc]
      exact readBranch?_atom (by decide) (readAtom?_escape hc _) (hrepeat _) hrest
    · have hbreak : ['|', ')', '('] ⊆ metaChars := by decide
      rw [escaping_cons_of_not_mem hc]
      exact readBranch?_atom (fun h => hc (hbreak h)) (readAtom?_plain hc _) (hrepeat _) hrest

theorem length_le_escaping (text : List Char) : text.length ≤ (escaping text).length := by
  induction text with
  | nil => exact Nat.le_refl 0
  | cons c text ih =>
    by_cases hc : c ∈ metaChars
    · rw [escaping_cons_of_mem hc]
      simp only [List.length_cons]
      omega
    · rw [escaping_cons_of_not_mem hc]
      simp only [List.length_cons]
      omega

end Pattern

namespace Definition
open Pattern

def blanks : Pattern := .star true (.one .blank)

/-- The start of a clause: the shortest field before blanks and the operator. -/
def fieldThen (id : String) (rest : Pattern) : Pattern :=
  .seq .start <| .seq (.capture "a" (.many false (.one .notLineFeed))) <| .seq blanks <|
    .seq (.capture "assigner" (.text id.toList)) rest

def betweenPattern (id : String) : Pattern :=
  fieldThen id <| .seq blanks <| .seq (.capture "b" (.many true (.one .notLineFeed))) .finish

def afterPattern (id : String) : Pattern :=
  fieldThen id .finish

def sourceStart : List Char := "^(?<a>.+?)\\s*(?<assigner>".toList

section
variable {id : String} {tail : List Char} {rest : Pattern} {used : List String}

/-- A source reads as a field, blanks, an operator and what comes after it. -/
theorem readBranch?_fieldThen {n : Nat} (hn : id.toList.length < n)
    (hmarks : ∀ c ∈ repeatMarks, tail.head? ≠ some c) (hrest : ∀ p, followedBy p rest = .seq p rest)
    (htail : readBranch? (n + 1) noFlags ["assigner", "a"] tail = some ⟨rest, noFlags, used, []⟩) :
    readBranch? (n + 5) noFlags [] (sourceStart ++ (escaping id.toList ++ ')' :: tail)) =
      some ⟨fieldThen id rest, noFlags, used, []⟩ := by
  have hid : readChoice? (n + 1) noFlags ["assigner", "a"] (escaping id.toList ++ ')' :: tail) =
      some ⟨.text id.toList, noFlags, ["assigner", "a"], ')' :: tail⟩ :=
    readChoice?_branch (readBranch?_escaping _ _ _ hn) (by simp)
  have hoperator : readBranch? (n + 2) noFlags ["a"]
      ("(?<assigner>".toList ++ (escaping id.toList ++ ')' :: tail)) =
        some ⟨.seq (.capture "assigner" (.text id.toList)) rest, noFlags, used, []⟩ := by
    have hopen : ∀ cs, readOpening? noFlags ["a"] ("?<assigner>".toList ++ cs) =
        some (.group (some "assigner") noFlags, cs) := fun cs => rfl
    rw [← hrest]
    exact readBranch?_group (hopen _) hid (readRepetitions?_none hmarks) htail
  have hblanks : readBranch? (n + 3) noFlags ["a"]
      ("\\s*(?<assigner>".toList ++ (escaping id.toList ++ ')' :: tail)) =
        some ⟨.seq blanks (.seq (.capture "assigner" (.text id.toList)) rest), noFlags, used, []⟩ :=
    readBranch?_atom (by decide) rfl rfl hoperator
  have hfield : readBranch? (n + 4) noFlags []
      ("(?<a>.+?)\\s*(?<assigner>".toList ++ (escaping id.toList ++ ')' :: tail)) =
        some ⟨.seq (.capture "a" (.many false (.one .notLineFeed)))
          (.seq blanks (.seq (.capture "assigner" (.text id.toList)) rest)), noFlags, used, []⟩ :=
    readBranch?_group rfl rfl rfl hblanks
  exact readBranch?_atom (by decide) rfl rfl hfield

theorem parse?_fieldThen {source : String}
    (hsource : source.toList = sourceStart ++ (escaping id.toList ++ ')' :: tail))
    (hmarks : ∀ c ∈ repeatMarks, tail.head? ≠ some c) (hrest : ∀ p, followedBy p rest = .seq p rest)
    (htail : ∀ n, readBranch? (n + 5) noFlags ["assigner", "a"] tail =
      some ⟨rest, noFlags, used, []⟩) :
    parse? source = some (fieldThen id rest) := by
  have hlength : sourceStart.length + id.toList.length ≤ source.toList.length := by
    have hid := length_le_escaping id.toList
    rw [hsource, List.length_append, List.length_append]
    omega
  have hstart : sourceStart.length = 25 := rfl
  -- one level for the choice, five for the pieces of the branch, the rest for the id
  obtain ⟨n, hn⟩ : ∃ n, 3 * source.toList.length + 3 = n + 4 + 5 + 1 :=
    ⟨3 * source.toList.length - 7, by omega⟩
  have hfuel : id.toList.length < n + 4 := by omega
  have hread := readChoice?_branch (readBranch?_fieldThen hfuel hmarks hrest (htail n)) (by simp)
  rw [noFlags] at hread
  rw [parse?, hn, hsource, hread]

end

variable {d : Definition}

theorem parse?_source_between (hshape : d.shape = .between) :
    parse? d.source = some (betweenPattern d.id) := by
  have hsource : d.source.toList =
      sourceStart ++ (escaping d.id.toList ++ ')' :: "\\s*(?<b>.+)$".toList) := by
    rw [source, hshape]
    simp only [String.toList_append, toList_escape, List.append_assoc]
    rfl
  have htail : ∀ n, readBranch? (n + 5) noFlags ["assigner", "a"] "\\s*(?<b>.+)$".toList =
      some ⟨.seq blanks (.seq (.capture "b" (.many true (.one .notLineFeed))) .finish), noFlags,
        ["b", "assigner", "a"], []⟩ := fun n => rfl
  exact parse?_fieldThen hsource (by simp [repeatMarks]) (fun _ => rfl) htail

theorem parse?_source_after (hshape : d.shape = .after) :
    parse? d.source = some (afterPattern d.id) := by
  have hsource : d.source.toList = sourceStart ++ (escaping d.id.toList ++ ')' :: "$".toList) := by
    rw [source, hshape]
    simp only [String.toList_append, toList_escape, List.append_assoc]
    rfl
  have htail : ∀ n, readBranch? (n + 5) noFlags ["assigner", "a"] "$".toList =
      some ⟨.finish, noFlags, ["assigner", "a"], []⟩ := fun n => rfl
  exact parse?_fieldThen hsource (by simp [repeatMarks]) (fun _ => rfl) htail

theorem matcher_of_parse? {p : Pattern} (h : parse? d.source = some p) :
    d.matcher read? = .ok p.match? := by
  rw [matcher, read?, h]
  rfl

theorem captures_of_parse? {p : Pattern} (h : parse? d.source = some p) (clause : String) :
    d.captures read? clause = .ok (p.match? clause) := by
  rw [captures, matcher_of_parse? h]
  rfl

end Definition
end FilterQuery
