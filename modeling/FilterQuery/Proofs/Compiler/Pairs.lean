import FilterQuery.Proofs.Compiler.Standard
import FilterQuery.Proofs.Document.Writes
import FilterQuery.Proofs.Field.Encoding
import FilterQuery.Proofs.Operator.Canonical
import FilterQuery.Proofs.Value.Guess

/-! Pairs of keys and values written as one text. Main statement: the text compiles to the document
that has the pairs as its entries, whatever characters the values hold between their quotes. -/
namespace FilterQuery
open Text FilterQuery.Field

/-- A bare key that has no meaning to the splitting of clauses and of paths. -/
structure PlainKey (key : String) : Prop extends BareKey key where
  plain : ∀ c ∈ key.toList, c ≠ ',' ∧ c ≠ '\'' ∧ c ≠ '\\' ∧ c ≠ '.'

/-- One pair: the value stands in quotes, with a backslash before each quote and backslash in it. -/
def pairText (pair : String × String) : String :=
  pair.1 ++ "='" ++ String.ofList (protect pair.2.toList) ++ "'"

def pairsText (pairs : List (String × String)) : String :=
  ",".intercalate (pairs.map pairText)

theorem toList_pairText (pair : String × String) :
    (pairText pair).toList = assignment pair.1.toList pair.2.toList := by
  simp [pairText, assignment, quote, assign]

def pairFields (pairs : List (String × String)) : List Encoding :=
  pairs.map fun pair => .assigned pair.1.toList pair.2.toList

theorem toList_pairsText (pairs : List (String × String)) :
    (pairsText pairs).toList = Encoding.join ',' (pairFields pairs) := by
  rw [pairsText, String.toList_intercalate, List.map_map, Encoding.join, pairFields, List.map_map]
  exact congrArg _ (List.map_congr_left fun pair _ => toList_pairText pair)

theorem scan_pairs {pairs : List (String × String)} (hne : pairs ≠ [])
    (h : ∀ pair ∈ pairs, PlainKey pair.1) :
    scan ',' .outside [] (symbols ',' (pairsText pairs).toList) =
      pairs.map fun pair =>
        pair.1.toList ++ assign :: quote :: (pair.2.toList ++ [quote]) := by
  have hfits : ∀ e ∈ pairFields pairs, e.Fits ',' := by
    rw [pairFields, List.forall_mem_map]
    intro pair hpair
    refine ⟨by decide, fun c hc => ?_⟩
    have hplain := (h pair hpair).plain c hc
    exact ⟨hplain.2.1, hplain.2.2.1, hplain.1⟩
  rw [toList_pairsText, Encoding.scan_join (by decide) (by decide) (by decide)
    (by simpa [pairFields] using hne) hfits, pairFields, List.map_map]
  rfl

theorem split_pairs {pairs : List (String × String)} (hne : pairs ≠ [])
    (hk : ∀ pair ∈ pairs, PlainKey pair.1) (hv : ∀ pair ∈ pairs, OperandText pair.2) :
    split ',' (pairsText pairs) =
      pairs.map fun pair => String.ofList (pair.1.toList ++ '=' :: pair.2.toList) := by
  rw [split, scan_pairs hne hk, List.map_map]
  refine List.map_congr_left fun pair hpair => congrArg String.ofList ?_
  have hvalue : ¬ [assign, quote] <:+: pair.2.toList :=
    fun h => ((hv pair hpair).chars assign (h.subset (by simp))).2.1 rfl
  obtain ⟨c, cs, hcs⟩ := List.exists_cons_of_ne_nil (hk pair hpair).nonempty
  dsimp only [Function.comp_apply]
  rw [finish_assignment _ (lastAssignment?_eq_none hvalue), hcs,
    trimStart_cons cs ((hk pair hpair).chars c (by simp [hcs])).1]
  rfl

theorem merge_pair (doc : Document) {pair : String × String} (h : PlainKey pair.1) :
    doc.merge .dotted (Document.single pair.1 (.guess pair.2)) =
      doc.insert pair.1 (.guess pair.2) := by
  have hdot : '.' ∉ pair.1.toList := fun hc => (h.plain _ hc).2.2.2 rfl
  have hleaf : (Value.guess pair.2).mergeOver = fun _ => Value.guess pair.2 :=
    funext (Value.mergeOver_leaf (Value.asObject?_of_isScalar (Value.isScalar_guess pair.2)))
  rw [Document.merge_single doc hdot, hleaf]
  rfl

def insertPairs (doc : Document) (pairs : List (String × String)) : Document :=
  pairs.foldl (fun doc pair => Document.insert doc pair.1 (.guess pair.2)) doc

theorem applyClauses_pairs (builders : Builders) (doc : Document) {pairs : List (String × String)}
    (hk : ∀ pair ∈ pairs, PlainKey pair.1) (hv : ∀ pair ∈ pairs, OperandText pair.2) :
    (Compiler.standard builders).applyClauses doc
        (pairs.map fun pair => String.ofList (pair.1.toList ++ '=' :: pair.2.toList)) =
      .ok (insertPairs doc pairs) := by
  induction pairs generalizing doc with
  | nil => rfl
  | cons pair rest ih =>
    rw [List.forall_mem_cons] at hk hv
    let clause := String.ofList (pair.1.toList ++ '=' :: pair.2.toList)
    have hclause : Table.standard.compileClause (.basic builders) {} clause =
        .ok ⟨Document.single pair.1 (.guess pair.2), none⟩ :=
      compileClause_assignment builders {} hk.1.toBareKey hv.1
    have hne : clause.isEmpty = false := by simp [clause]
    have hstep : (Compiler.standard builders).settings.table.compileClause
        (Compiler.standard builders).host (Compiler.standard builders).settings clause = _ := hclause
    rw [List.map_cons, Compiler.applyClauses, hne, if_neg Bool.false_ne_true, hstep]
    exact (congrArg ((Compiler.standard builders).applyClauses · _) (merge_pair doc hk.1)).trans
      (ih _ hk.2 hv.2)

theorem isObjectLike_pairsText (builders : Builders) {pairs : List (String × String)}
    (hk : ∀ pair ∈ pairs, PlainKey pair.1) :
    (Compiler.standard builders).isObjectLike (pairsText pairs) = false := by
  cases pairs with
  | nil => exact Pattern.isMatch_braced_eq_false (by decide)
  | cons pair rest =>
    rw [List.forall_mem_cons] at hk
    obtain ⟨w, hw⟩ : ∃ w, (pairsText (pair :: rest)).toList = pair.1.toList ++ w := by
      rw [toList_pairsText, Encoding.join, pairFields, List.map_cons, List.map_cons]
      cases rest with
      | nil => exact ⟨_, List.intercalate_singleton⟩
      | cons next rest =>
        rw [List.map_cons, List.map_cons, List.intercalate_cons_cons, Encoding.text, assignment,
          List.append_assoc, List.append_assoc]
        exact ⟨_, rfl⟩
    exact Compiler.isObjectLike_of_bareText hk.1.bareText hw

/-- Pairs of plain keys and values on one line compile to the document with these entries: a key that
comes again keeps its place and takes its last value. -/
theorem compileText_pairsText (builders : Builders) (pairs : List (String × String))
    (hk : ∀ pair ∈ pairs, PlainKey pair.1) (hv : ∀ pair ∈ pairs, OperandText pair.2) :
    ∃ c, Compiler.build (.basic builders) {} false = .ok c ∧ c.compileText (pairsText pairs) =
      .ok (Document.ofEntries (pairs.map fun pair => (pair.1, .guess pair.2))) := by
  refine ⟨Compiler.standard builders, Compiler.build_standard, ?_⟩
  have hentries : Document.ofEntries (pairs.map fun pair => (pair.1, .guess pair.2)) =
      insertPairs [] pairs := by
    rw [Document.ofEntries, List.foldl_map]
    rfl
  have happly : (Compiler.standard builders).apply [] (.text (pairsText pairs)) =
      .ok (insertPairs [] pairs) := by
    rw [Compiler.apply, Compiler.applyText, isObjectLike_pairsText builders hk,
      if_neg Bool.false_ne_true]
    by_cases hne : pairs = []
    · subst hne
      rfl
    · exact (congrArg _ (split_pairs hne hk hv)).trans (applyClauses_pairs builders [] hk hv)
  have hrun : (Compiler.standard builders).compileText (pairsText pairs) =
      (Compiler.standard builders).applyAll [] [.text (pairsText pairs)] := rfl
  rw [hentries, hrun, Compiler.applyAll, happly]
  rfl

theorem compileText_pairsText_repeated :
    let host : Host := .basic fun _ _ _ => .ok []
    (∀ pair ∈ [("a", "x, 'y'"), ("b", "t"), ("a", "\\")], PlainKey pair.1) ∧
      (∀ pair ∈ [("a", "x, 'y'"), ("b", "t"), ("a", "\\")], OperandText pair.2) ∧
      ∃ c, Compiler.build host {} false = .ok c ∧
        c.compileText "a='x, \\'y\\'',b='t',a='\\\\'" = .ok [("a", .string "\\"), ("b", .string "t")] := by
  intro host
  have hblank : isBlank 'a' = false ∧ isBlank 'b' = false := by decide
  have ha : PlainKey "a" :=
    ⟨⟨by decide, by simp [reservedChars, hblank], by simp⟩, by simp⟩
  have hb : PlainKey "b" :=
    ⟨⟨by decide, by simp [reservedChars, hblank], by simp⟩, by simp⟩
  have hstart : isBlank 'x' = false ∧ isBlank 't' = false ∧ isBlank '\\' = false := by decide
  have hx : OperandText "x, 'y'" := ⟨by decide, by simp [hstart], by simp⟩
  have ht : OperandText "t" := ⟨by decide, by simp [hstart], by simp⟩
  have hslash : OperandText "\\" := ⟨by decide, by simp [hstart], by simp⟩
  have hk : ∀ pair ∈ [("a", "x, 'y'"), ("b", "t"), ("a", "\\")], PlainKey pair.1 := by
    simp [ha, hb]
  have hv : ∀ pair ∈ [("a", "x, 'y'"), ("b", "t"), ("a", "\\")], OperandText pair.2 := by
    simp [hx, ht, hslash]
  have htext : pairsText [("a", "x, 'y'"), ("b", "t"), ("a", "\\")] =
      "a='x, \\'y\\'',b='t',a='\\\\'" := by decide +kernel
  have hdoc : Document.ofEntries ([("a", "x, 'y'"), ("b", "t"), ("a", "\\")].map
      fun pair => (pair.1, .guess pair.2)) = [("a", .string "\\"), ("b", .string "t")] := by rfl
  obtain ⟨c, hbuild, hcompile⟩ := compileText_pairsText (fun _ _ _ => .ok []) _ hk hv
  rw [htext, hdoc] at hcompile
  exact ⟨hk, hv, c, hbuild, hcompile⟩

end FilterQuery
