/-!
Sets of characters as runs of code points. A table lists the code points at which membership
changes, in increasing order: the first run starts at the first entry and ends before the second. The
tables follow Unicode 17.0.
-/
namespace FilterQuery.Text

/-- Membership in the union of the half-open runs `[lo, hi)` that a table of boundaries lists. -/
def inRuns : List Nat → Nat → Bool
  | lo :: hi :: rest, n => lo ≤ n && (n < hi || inRuns rest n)
  | [lo], n => lo ≤ n
  | [], _ => false

def within (table : List Nat) (c : Char) : Bool :=
  inRuns table c.toNat

end FilterQuery.Text
