/-!
# Ranges of characters

Properties of characters are tables: lists of ranges of code points, each with
its first and its last. They are those of Unicode 17.0.
-/

namespace TraceDebug.Text

abbrev CodeRanges := List (Nat × Nat)

def CodeRanges.has (ranges : CodeRanges) (c : Char) : Bool :=
  ranges.any fun (first, last) => first ≤ c.toNat && c.toNat ≤ last

end TraceDebug.Text
