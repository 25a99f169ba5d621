import Mathlib

/-!
# Machine integers

Counters of a fixed width, kept as natural numbers: an addition that stops at the largest value
of the width, and one that fails there.

## Main definitions

* `u32Max`, `u64Max`: the largest values of the two widths
* `saturatingAdd bound a b`: addition that stops at `bound`
* `checkedAdd bound a b`: addition that fails beyond `bound`
-/

namespace Library

/-- The largest 32-bit value. -/
def u32Max : ℕ := 2 ^ 32 - 1

/-- The largest 64-bit value. -/
def u64Max : ℕ := 2 ^ 64 - 1

/-- Addition that stops at `bound`. -/
def saturatingAdd (bound a b : ℕ) : ℕ := min (a + b) bound

/-- Addition that fails beyond `bound`. -/
def checkedAdd (bound a b : ℕ) : Option ℕ := if a + b ≤ bound then some (a + b) else none

theorem saturatingAdd_le_bound (bound a b : ℕ) : saturatingAdd bound a b ≤ bound :=
  Nat.min_le_right _ _

theorem saturatingAdd_of_le {bound a b : ℕ} (h : a + b ≤ bound) : saturatingAdd bound a b = a + b :=
  Nat.min_eq_left h

theorem checkedAdd_of_le {bound a b : ℕ} (h : a + b ≤ bound) :
    checkedAdd bound a b = some (a + b) :=
  if_pos h

end Library
