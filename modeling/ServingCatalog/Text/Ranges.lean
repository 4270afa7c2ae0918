/-!
# Classes of characters as ranges of code points

A class is a list of closed ranges, and a character is in it when some range covers its code point.
-/

namespace ServingCatalog

namespace Text

/-- Whether one of some closed ranges covers the code point of a character. -/
def covers (ranges : List (Nat × Nat)) (c : Char) : Bool :=
  ranges.any fun (low, high) => low ≤ c.toNat && c.toNat ≤ high

theorem covers_iff {ranges : List (Nat × Nat)} {c : Char} :
    covers ranges c = true ↔ ∃ r ∈ ranges, r.1 ≤ c.toNat ∧ c.toNat ≤ r.2 := by
  simp [covers]

end Text

end ServingCatalog
