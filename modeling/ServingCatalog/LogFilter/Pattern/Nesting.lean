/-!
# How deep the parts of a pattern stand inside each other

A character stands for itself at depth zero. What encloses parts or joins several of them is one
deeper than the deepest of these, and a pattern can only be so deep.
-/

namespace ServingCatalog

namespace Pattern

/-- The depth of parts that are joined, from the depths of each. A part alone is joined to nothing,
and is as deep as it was. -/
def joinedDepth : List Nat → Nat
  | [] => 0
  | [depth] => depth
  | depths => depths.foldl max 0 + 1

/-- How deep a pattern can be. -/
def depthLimit : Nat := 250

end Pattern

end ServingCatalog
