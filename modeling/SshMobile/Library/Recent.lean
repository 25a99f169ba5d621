import Mathlib

/-!
# The newest entries of a history

`List.rtake n` keeps the last `n` entries of a list. Read as a history that grows at its end, these
are the entries a bounded queue still holds: an entry leaves once `n` later ones came.

## Main results

* `rtake_rtake_append`: a queue may forget what it has already pushed out
* `le_length_of_notMem_rtake`: an entry is pushed out by `n` later entries at least
* `rtake_append_of_le`: after `n` entries nothing older is left
-/

namespace Library

variable {α : Type*} {l m : List α} {x : α} {n : ℕ}

theorem rtake_of_le (h : l.length ≤ n) : l.rtake n = l := by
  rw [List.rtake, Nat.sub_eq_zero_of_le h, List.drop_zero]

theorem rtake_cons_of_lt (h : n < (x :: l).length) : (x :: l).rtake n = l.rtake n := by
  have hlength : (x :: l).length - n = l.length - n + 1 := by
    rw [List.length_cons] at h ⊢
    omega
  rw [List.rtake, List.rtake, hlength, List.drop_succ_cons]

theorem length_rtake (n : ℕ) (l : List α) : (l.rtake n).length = min l.length n := by
  rw [List.rtake, List.length_drop]
  omega

theorem rtake_append_of_le (l : List α) (h : n ≤ m.length) : (l ++ m).rtake n = m.rtake n := by
  have hlength : (l ++ m).length - n = l.length + (m.length - n) := by
    rw [List.length_append]
    omega
  rw [List.rtake, hlength, List.drop_append, List.drop_eq_nil_of_le (Nat.le_add_right _ _),
    List.nil_append, Nat.add_sub_cancel_left, List.rtake]

/-- A bounded queue may forget what it has already pushed out. -/
theorem rtake_rtake_append (n : ℕ) (l m : List α) :
    (l.rtake n ++ m).rtake n = (l ++ m).rtake n := by
  by_cases h : l.length ≤ n
  · rw [rtake_of_le h]
  · have hsplit : l.take (l.length - n) ++ (l.rtake n ++ m) = l ++ m := by
      rw [← List.append_assoc, List.rtake, List.take_append_drop]
    have hlength : n ≤ (l.rtake n ++ m).length := by
      rw [List.length_append, length_rtake]
      omega
    rw [← hsplit, rtake_append_of_le _ hlength]

/-- An entry that has left the queue was pushed out by `n` later entries. -/
theorem le_length_of_notMem_rtake (h : x ∉ (l ++ x :: m).rtake n) : n ≤ m.length := by
  by_contra hlt
  refine h ?_
  -- The entry is among the newest `m.length + 1` entries.
  have hdrop : (l ++ x :: m).length - n ≤ l.length := by
    rw [List.length_append, List.length_cons]
    omega
  rw [List.rtake, List.drop_append_of_le_length hdrop]
  exact List.mem_append_right _ List.mem_cons_self

end Library
