import FilterQuery.Text.Runs

/-!
Blank characters (the Unicode property `White_Space`) and the trimming of texts.
-/
namespace FilterQuery.Text

/-- Boundaries of the runs of `White_Space`. -/
def blankRuns : List Nat :=
  [9, 14, 32, 33, 133, 134, 160, 161, 5760, 5761, 8192, 8203, 8232, 8234, 8239, 8240, 8287, 8288,
   12288, 12289]

def isBlank (c : Char) : Bool :=
  within blankRuns c

def trimStart (cs : List Char) : List Char :=
  cs.dropWhile isBlank

def trimEnd (cs : List Char) : List Char :=
  (cs.reverse.dropWhile isBlank).reverse

def trim (cs : List Char) : List Char :=
  trimEnd (trimStart cs)

end FilterQuery.Text
