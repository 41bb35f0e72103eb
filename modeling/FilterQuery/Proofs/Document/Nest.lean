import FilterQuery.Proofs.Document.Writes

/-! Dotted keys as nested objects. Main statement: a merge by dotted keys is a deep merge, entry after
entry, of the objects that the segments of the key lead through. -/
namespace FilterQuery

def Value.nest : List String → Value → Value
  | [], value => value
  | segment :: rest, value => .object (Document.single segment (nest rest value))

def Document.nest (key : String) (value : Value) : Document :=
  match segments key with
  | [] => []
  | segment :: rest => .single segment (.nest rest value)

/-- Nested objects written over a place put the innermost value over what their path leads to there. -/
theorem Value.mergeOver_nest (path : List String) (value : Value) :
    (Value.nest path value).mergeOver = Value.put path value.mergeOver := by
  induction path with
  | nil => rfl
  | cons segment rest ih =>
    funext place
    have hkeys : (Document.keys (.single segment (.nest rest value))).Nodup := by
      simp [Document.single]
    rw [nest, mergeOver_object place hkeys, put, ← ih]
    rfl

theorem Document.deepMerge_nest (doc : Document) (key : String) (value : Value) :
    doc.deepMerge (.nest key value) = doc.setPath (segments key) value := by
  rw [nest]
  cases segments key with
  | nil => rfl
  | cons segment rest =>
    rw [setPath_cons, ← Value.mergeOver_nest]
    rfl

/-- A merge by dotted keys deep-merges the nested document of each entry, one after the other, with
the same order of keys at every level. A fragment without dots in its keys is merged the same way by
either strategy. -/
theorem merge_dotted_eq_foldl_deepMerge (doc fragment : Document) :
    doc.merge .dotted fragment =
      fragment.foldl (fun doc entry => doc.deepMerge (.nest entry.1 entry.2)) doc ∧
    ((∀ entry ∈ fragment, '.' ∉ entry.1.toList) →
      doc.merge .dotted fragment = doc.merge .literal fragment) := by
  refine ⟨?_, fun hdots => ?_⟩
  · simp only [Document.deepMerge_nest]
    rfl
  · rw [doc.merge_eq_foldl .dotted, doc.merge_eq_foldl .literal]
    refine List.foldl_ext _ _ doc fun doc entry hentry => ?_
    rw [Strategy.path, Strategy.path, segments_of_no_dot (hdots entry hentry)]

theorem merge_dotted_eq_foldl_deepMerge_mixed :
    let doc : Document := [("a", .null), ("b", .object [("c", .null), ("d", .null)])]
    let dotted : Document := [("a..x", .bool true), ("b.c", .object [("y", .null)])]
    let plain : Document := [("b", .object [("e", .null)]), ("a", .bool false)]
    (doc.deepMerge (.nest "a..x" (.bool true))).deepMerge (.nest "b.c" (.object [("y", .null)])) =
        [("a", .object [("", .object [("x", .bool true)])]),
          ("b", .object [("c", .object [("y", .null)]), ("d", .null)])] ∧
      doc.merge .dotted dotted =
        (doc.deepMerge (.nest "a..x" (.bool true))).deepMerge
          (.nest "b.c" (.object [("y", .null)])) ∧
      (∀ entry ∈ plain, '.' ∉ entry.1.toList) ∧
      doc.merge .dotted plain = doc.merge .literal plain := by
  intro doc dotted plain
  have hdots : ∀ entry ∈ plain, '.' ∉ entry.1.toList := by simp [plain]
  exact ⟨rfl, (merge_dotted_eq_foldl_deepMerge doc dotted).1, hdots,
    (merge_dotted_eq_foldl_deepMerge doc plain).2 hdots⟩

end FilterQuery
