import Mathlib

/-!
# Lists that are related entry by entry

Facts that pass from one list to another along `List.Forall₂`: what holds between any two entries,
and the counts and sums over a part of the entries.

## Main results

* `exists_of_mem_forall₂`: the partner of an entry
* `pairwise_of_forall₂`: a relation between the entries
* `sum_filter_le_of_forall₂`, `length_filter_le_of_forall₂`: a sum, and a count, over a part
-/

namespace Library

universe u v

variable {α : Type u} {β : Type v} {R : α → β → Prop} {xs : List α} {ys : List β}

theorem exists_of_mem_forall₂ (h : List.Forall₂ R xs ys) {x : α} (hx : x ∈ xs) :
    ∃ y ∈ ys, R x y := by
  induction h with
  | nil => cases hx
  | @cons x' y xs ys hxy hrest ih =>
    rcases List.mem_cons.mp hx with rfl | hx
    · exact ⟨y, List.mem_cons_self, hxy⟩
    · obtain ⟨y', hy', hR⟩ := ih hx
      exact ⟨y', List.mem_cons_of_mem _ hy', hR⟩

theorem pairwise_of_forall₂ {S : α → α → Prop} {T : β → β → Prop}
    (hS : ∀ x x' y y', R x y → R x' y' → T y y' → S x x') (h : List.Forall₂ R xs ys)
    (hys : ys.Pairwise T) : xs.Pairwise S := by
  induction h with
  | nil => exact .nil
  | @cons x y xs ys hxy hrest ih =>
    obtain ⟨hy, hys⟩ := List.pairwise_cons.mp hys
    refine List.pairwise_cons.mpr ⟨fun x' hx' => ?_, ih hys⟩
    obtain ⟨y', hy', hx'y'⟩ := exists_of_mem_forall₂ hrest hx'
    exact hS x x' y y' hxy hx'y' (hy y' hy')

variable {P : α → Bool} {Q : β → Bool}

theorem sum_filter_le_of_forall₂ {f : α → ℕ} {g : β → ℕ}
    (hPQ : ∀ x y, R x y → P x = true → Q y = true ∧ f x ≤ g y) (h : List.Forall₂ R xs ys) :
    ((xs.filter P).map f).sum ≤ ((ys.filter Q).map g).sum := by
  induction h with
  | nil => exact le_rfl
  | @cons x y xs ys hxy hrest ih =>
    by_cases hx : P x = true
    · obtain ⟨hy, hle⟩ := hPQ x y hxy hx
      rw [List.filter_cons_of_pos hx, List.filter_cons_of_pos hy]
      simp only [List.map_cons, List.sum_cons]
      exact Nat.add_le_add hle ih
    · rw [List.filter_cons_of_neg hx]
      refine ih.trans ?_
      by_cases hy : Q y = true
      · rw [List.filter_cons_of_pos hy, List.map_cons, List.sum_cons]
        exact Nat.le_add_left _ _
      · rw [List.filter_cons_of_neg hy]

theorem length_filter_le_of_forall₂ (hPQ : ∀ x y, R x y → P x = true → Q y = true)
    (h : List.Forall₂ R xs ys) : (xs.filter P).length ≤ (ys.filter Q).length := by
  have hsum := sum_filter_le_of_forall₂ (f := fun _ => 1) (g := fun _ => 1)
    (fun x y hxy hx => ⟨hPQ x y hxy hx, le_rfl⟩) h
  simpa using hsum

end Library
