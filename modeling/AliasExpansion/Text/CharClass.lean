-- SUMMARY: Sets of characters given by sorted code point ranges, plain or with a step of two.

/-!
# Character classes

A class of characters is stored as data: the ranges of code points that belong to it. Two forms
are enough. `CharRanges` lists closed intervals; `CharStride` also carries a step, because the
capital and small letters of many scripts alternate. The tables themselves live in the module
named for their property (`Text/Letter`, `Text/Number`, `Text/Blank`, `Text/Case`,
`Text/Printable`).
-/

namespace AliasExpansion

/-- Closed intervals of code points. -/
abbrev CharRanges := List (Nat × Nat)

def CharRanges.contains (ranges : CharRanges) (c : Char) : Bool :=
  ranges.any fun (first, last) => first ≤ c.toNat && c.toNat ≤ last

/-- The code points `first`, `first + step`, … up to `last`. -/
structure CharStride where
  first : Nat
  last : Nat
  step : Nat

def CharStride.contains (stride : CharStride) (c : Char) : Bool :=
  stride.first ≤ c.toNat && c.toNat ≤ stride.last && (c.toNat - stride.first) % stride.step == 0

end AliasExpansion
