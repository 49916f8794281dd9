/-!
# Ranges of code points

A class of characters is a list of inclusive ranges of code points.  ASCII characters are decided
by the predicates that use such a list, so the lists start at code point 128.
-/

namespace SqlDraft

/-- Inclusive ranges of code points, in increasing order. -/
abbrev CharRanges := List (Nat × Nat)

namespace CharRanges

def contains (ranges : CharRanges) (c : Char) : Bool :=
  ranges.any fun range => Nat.ble range.1 c.toNat && Nat.ble c.toNat range.2

theorem contains_iff {ranges : CharRanges} {c : Char} :
    ranges.contains c = true ↔ ∃ range ∈ ranges, range.1 ≤ c.toNat ∧ c.toNat ≤ range.2 := by
  simp [contains, List.any_eq_true, Nat.ble_eq]

end CharRanges

end SqlDraft
