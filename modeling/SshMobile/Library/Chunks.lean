import Mathlib

/-!
# Runs of elements in chunks

A queue of chunks stands for the run of all its elements. A reader takes elements from the front
without regard to where the chunks end, and a writer cuts a run into chunks of a bounded length.

## Main definitions

* `takeFront n chunks`: up to `n` elements from the front, and what is left
* `chunksOf n xs`: the run `xs` in chunks of `n`, the last one shorter

## Main results

* `takeFront_append`, `length_takeFront`: what is taken and what is left
* `mem_chunksOf`: the lengths of the chunks
-/

namespace Library

universe u

variable {α : Type u}

/-- Up to `n` elements from the front of a queue of chunks, and what is left of the queue. A chunk
that is not taken whole keeps its rest in its place. -/
def takeFront : ℕ → List (List α) → List α × List (List α)
  | _, [] => ([], [])
  | n, chunk :: chunks =>
    if n = 0 then ([], chunk :: chunks)
    else if chunk.length ≤ n then
      let rest := takeFront (n - chunk.length) chunks
      (chunk ++ rest.1, rest.2)
    else (chunk.take n, chunk.drop n :: chunks)

theorem takeFront_append (n : ℕ) (chunks : List (List α)) :
    (takeFront n chunks).1 ++ (takeFront n chunks).2.flatten = chunks.flatten := by
  induction chunks generalizing n with
  | nil => rfl
  | cons chunk chunks ih =>
    rw [takeFront]
    split_ifs with hzero hfits
    · rfl
    · rw [List.append_assoc, ih, List.flatten_cons]
    · rw [List.flatten_cons, ← List.append_assoc, List.take_append_drop, List.flatten_cons]

theorem length_takeFront (n : ℕ) (chunks : List (List α)) :
    (takeFront n chunks).1.length = min n chunks.flatten.length := by
  induction chunks generalizing n with
  | nil => simp [takeFront]
  | cons chunk chunks ih =>
    rw [takeFront, List.flatten_cons, List.length_append]
    split_ifs with hzero hfits
    · simp [hzero]
    · rw [List.length_append, ih]
      omega
    · rw [List.length_take]
      omega

/-- What is taken is the front of the run. -/
theorem takeFront_eq_take (n : ℕ) (chunks : List (List α)) :
    (takeFront n chunks).1 = chunks.flatten.take n := by
  rw [← takeFront_append n chunks, List.take_append, length_takeFront]
  have hle : (takeFront n chunks).1.length ≤ n := by
    rw [length_takeFront]
    exact Nat.min_le_left _ _
  rw [List.take_of_length_le hle]
  by_cases h : n ≤ chunks.flatten.length
  · rw [Nat.min_eq_left h, Nat.sub_self, List.take_zero, List.append_nil]
  · -- all of the run was taken
    have hrest : (takeFront n chunks).2.flatten = [] := by
      have hlength := congrArg List.length (takeFront_append n chunks)
      rw [List.length_append, length_takeFront] at hlength
      exact List.length_eq_zero_iff.mp (by omega)
    rw [hrest, List.take_nil, List.append_nil]

/-- The run `xs` in chunks of `n`; no chunks for `n = 0`. -/
def chunksOf (n : ℕ) (xs : List α) : List (List α) :=
  if xs = [] ∨ n = 0 then []
  else xs.take n :: chunksOf n (xs.drop n)
termination_by xs.length
decreasing_by
  rename_i h
  rw [not_or] at h
  have hpos := List.length_pos_iff.mpr h.1
  rw [List.length_drop]
  omega

theorem chunksOf_nil (n : ℕ) : chunksOf n ([] : List α) = [] := by
  rw [chunksOf, if_pos (.inl rfl)]

variable {n : ℕ} {xs : List α}

theorem chunksOf_of_ne_nil (hn : 0 < n) (hxs : xs ≠ []) :
    chunksOf n xs = xs.take n :: chunksOf n (xs.drop n) := by
  rw [chunksOf, if_neg]
  rintro (h | h)
  · exact hxs h
  · omega

theorem chunksOf_of_le (hxs : xs ≠ []) (hle : xs.length ≤ n) : chunksOf n xs = [xs] := by
  have hpos := List.length_pos_iff.mpr hxs
  rw [chunksOf_of_ne_nil (by omega) hxs, List.take_of_length_le hle, List.drop_of_length_le hle,
    chunksOf_nil]

theorem mem_chunksOf {chunk : List α} (h : chunk ∈ chunksOf n xs) :
    chunk ≠ [] ∧ chunk.length ≤ n := by
  fun_induction chunksOf n xs with
  | case1 => cases h
  | case2 xs hxs ih =>
    rcases List.mem_cons.mp h with rfl | h
    · rw [not_or] at hxs
      refine ⟨fun hnil => ?_, ?_⟩
      · rcases List.take_eq_nil_iff.mp hnil with hzero | hnil
        · exact hxs.2 hzero
        · exact hxs.1 hnil
      · rw [List.length_take]
        exact Nat.min_le_left _ _
    · exact ih h

end Library
