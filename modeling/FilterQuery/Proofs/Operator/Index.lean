import FilterQuery.Proofs.Number.Decimal
import FilterQuery.Proofs.Operator.Canonical

/-! Probes for elements of arrays. Main statement: up to the largest safe integer, to demand an
element after an index is to demand one at the next index, and the key has this index digit by digit.
-/
namespace FilterQuery
open Text

/-- The fragment that demands an element of a field. -/
def elementProbe (key : String) (index : Nat) : Fragment :=
  ⟨applied (key ++ "." ++ toString index) "$exists" (.bool true), some .literal⟩

section
variable {key : String} {n : Nat}

theorem operandText_toString (n : Nat) : OperandText (toString n) := by
  have htext : (toString n).toList = decimalDigits n := String.toList_ofList
  have hdigit : ∀ c ∈ (toString n).toList, isDigit c = true := by
    rw [htext]
    exact fun c hc => isDigit_of_mem_decimalDigits hc
  refine ⟨by rw [htext]; exact decimalDigits_ne_nil n, fun c hc => ?_, fun c hc => ?_⟩
  · exact isBlank_of_isDigit (hdigit c (List.mem_of_head? hc))
  · have hne : ∀ other, isDigit other = false → c ≠ other := fun other hother =>
      ne_of_apply_ne isDigit (by simp [hdigit c hc, hother])
    exact ⟨hne _ (by decide), hne _ (by decide), hne _ (by decide), hne _ (by decide)⟩

theorem Operands.requireIndex_toString {o : Operands} (hraw : o.raw = some (toString n))
    (h : n ≤ 2 ^ 53) : o.requireIndex = .ok n := by
  have hnumber : o.requireNumber = .ok (.ofNat n) := by
    have htext : Number.ofText? (toString n) = some (.ofNat n) := Number.ofText?_decimalDigits h
    simp only [requireNumber, requireRaw, hraw, bind, Except.bind, htext]
  have hbelow : (Number.ofNat n).isBelowZero = false := by
    rw [Number.isBelowZero, Number.negative_ofNat, Bool.false_and]
  simp only [requireIndex, hnumber, bind, Except.bind, Number.wholeMagnitude?_ofNat h, hbelow,
    Bool.false_eq_true, if_false]

theorem elementPath_toString (key : String) (h : n ≤ 2 ^ 53) :
    elementPath key n = key ++ "." ++ toString n := by
  rw [elementPath, Number.plain_ofNat h]
  rfl

namespace Table

def indexProbes : List (Definition × Nat) :=
  [({ Definition.binary "#>=" .hasIndex with merge := some .literal }, 0),
   ({ Definition.binary "#>" .hasIndexAfter with merge := some .literal }, 1)]

variable {d : Definition} {offset : Nat}

theorem mem_indexProbes : (d, offset) ∈ indexProbes ↔
    (d = { Definition.binary "#>=" .hasIndex with merge := some .literal } ∧ offset = 0) ∨
      d = { Definition.binary "#>" .hasIndexAfter with merge := some .literal } ∧ offset = 1 := by
  simp [indexProbes]

theorem outcome_of_mem_indexProbes (hd : (d, offset) ∈ indexProbes) (host : Host)
    (settings : Settings) {o : Operands} (hraw : o.raw = some (toString n))
    (h : n + offset ≤ 2 ^ 53) :
    d.outcome host settings o = .ok (elementProbe o.left (n + offset)) := by
  have hindex : o.requireIndex = .ok n := Operands.requireIndex_toString hraw (by omega)
  have hpath := elementPath_toString o.left h
  obtain ⟨rfl, rfl⟩ | ⟨rfl, rfl⟩ := mem_indexProbes.mp hd <;>
  · simp only [Definition.outcome, Definition.build, Definition.binary, Kind.build, hindex,
      elementProbe, ← hpath]
    rfl

theorem standard_compiledBy_indexProbe (hd : (d, offset) ∈ indexProbes)
    (hk : BareText key.toList) (n : Nat) :
    standard.CompiledBy (key ++ d.id ++ toString n) d key d.id (some (toString n)) := by
  -- no earlier id can occur in such a clause, whatever the key ends with
  obtain ⟨rfl, -⟩ | ⟨rfl, -⟩ := mem_indexProbes.mp hd
  · exact compiledBy_adjacent (standard.drop 12) rfl (by decide)
      (show ∀ e ∈ standard.take 11, _ by decide) hk (operandText_toString n)
  · exact compiledBy_adjacent (standard.drop 13) rfl (by decide)
      (show ∀ e ∈ standard.take 12, _ by decide) hk (operandText_toString n)

theorem compileClause_indexProbe (hd : (d, offset) ∈ indexProbes) (hk : BareText key.toList)
    (h : n + offset ≤ 2 ^ 53) (builders : Builders) (settings : Settings) :
    standard.compileClause (.basic builders) settings (key ++ d.id ++ toString n) =
      .ok (elementProbe key (n + offset)) := by
  rw [(standard_compiledBy_indexProbe hd hk n).result]
  exact outcome_of_mem_indexProbes hd _ settings rfl h

end Table
end

/-- Up to the largest safe integer, the demand for an element after an index is the demand for one
at the next index, under all settings. The key of either has the index in its decimal digits. -/
theorem compileClause_index (builders : Builders) (settings : Settings) (key : String)
    (hk : BareText key.toList) (n : Nat) (hn : n ≤ 9007199254740991) :
    Table.standard.compileClause (.basic builders) settings (key ++ "#>" ++ toString n) =
      .ok ⟨[(key ++ "." ++ toString (n + 1), .object [("$exists", .bool true)])], some .literal⟩ ∧
    Table.standard.compileClause (.basic builders) settings (key ++ "#>=" ++ toString (n + 1)) =
      .ok ⟨[(key ++ "." ++ toString (n + 1), .object [("$exists", .bool true)])], some .literal⟩ ∧
    Table.standard.compileClause (.basic builders) settings (key ++ "#>=" ++ toString n) =
      .ok ⟨[(key ++ "." ++ toString n, .object [("$exists", .bool true)])], some .literal⟩ := by
  have hat := Table.mem_indexProbes.mpr (.inl ⟨rfl, rfl⟩)
  have hafter := Table.mem_indexProbes.mpr (.inr ⟨rfl, rfl⟩)
  exact ⟨Table.compileClause_indexProbe hafter hk (by omega) builders settings,
    Table.compileClause_indexProbe hat hk (by omega) builders settings,
    Table.compileClause_indexProbe hat hk (by omega) builders settings⟩

theorem compileClause_index_safe :
    let host : Host := .basic fun _ _ _ => .ok []
    BareText "tags/".toList ∧
    Table.standard.compileClause host {} "tags/#>9007199254740991" =
      .ok ⟨[("tags/.9007199254740992", .object [("$exists", .bool true)])], some .literal⟩ ∧
    Table.standard.compileClause host { throwOnError := false } "tags/#>=9007199254740992" =
      .ok ⟨[("tags/.9007199254740992", .object [("$exists", .bool true)])], some .literal⟩ := by
  intro host
  have hchars : isBlank 't' = false ∧ isBlank 'a' = false ∧ isBlank 'g' = false ∧
      isBlank 's' = false ∧ isBlank '/' = false := by decide
  have hk : BareText "tags/".toList := ⟨by decide, by simp [reservedChars, hchars]⟩
  exact ⟨hk, (compileClause_index _ {} "tags/" hk 9007199254740991 (by decide)).1,
    (compileClause_index _ { throwOnError := false } "tags/" hk 9007199254740991 (by decide)).2.1⟩

end FilterQuery
