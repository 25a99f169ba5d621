import SshMobile.Library.Recent

/-!
# The replay window

A bounded window of nonces: a nonce is accepted at most once while it is in the window, and each
new nonce beyond the capacity pushes the oldest one out. The window keeps a set for the lookup and
a queue for the order of insertion.

Over a whole history of insertions the queue is what `List.rtake` says: the last `capacity` nonces
inserted.

## Main definitions

* `ReplayWindow`: the window, with its set and its queue in step
* `ReplayWindow.reserve`, `ReplayWindow.acceptReceived`: the insertion of the sender and of the
  receiver

## Main results

* `evict_eq`: eviction keeps the newest entries, in the set as in the queue
-/

namespace SshMobile.Crypto

open Library

variable {α : Type} [DecidableEq α]

/-- The eviction loop: the front of the queue leaves, and the set with it, while the queue is
longer than `capacity`. -/
def evict (capacity : ℕ) : Finset α → List α → Finset α × List α
  | seen, [] => (seen, [])
  | seen, nonce :: order =>
    if capacity < (nonce :: order).length then evict capacity (seen.erase nonce) order
    else (seen, nonce :: order)

/-- **Eviction** leaves the newest `capacity` entries, in the set as in the queue. -/
theorem evict_eq (capacity : ℕ) {order : List α} (hnodup : order.Nodup) :
    evict capacity order.toFinset order =
      ((order.rtake capacity).toFinset, order.rtake capacity) := by
  induction order with
  | nil => simp [evict]
  | cons nonce order ih =>
    obtain ⟨hnotMem, hnodup⟩ := List.nodup_cons.mp hnodup
    by_cases h : capacity < (nonce :: order).length
    · have herase : (nonce :: order).toFinset.erase nonce = order.toFinset := by
        rw [List.toFinset_cons, Finset.erase_insert]
        rwa [List.mem_toFinset]
      rw [evict, if_pos h, herase, ih hnodup, rtake_cons_of_lt h]
    · rw [evict, if_neg h, rtake_of_le (Nat.le_of_not_lt h)]

/-- **The replay window**: the set of the nonces in it, and their order of insertion. -/
structure ReplayWindow (α : Type) [DecidableEq α] where
  capacity : ℕ
  seen : Finset α
  order : List α
  one_le_capacity : 1 ≤ capacity
  nodup : order.Nodup
  seen_eq : seen = order.toFinset
  length_le : order.length ≤ capacity

namespace ReplayWindow

def new (capacity : ℕ) : ReplayWindow α where
  capacity := max capacity 1
  seen := ∅
  order := []
  one_le_capacity := le_max_right capacity 1
  nodup := List.nodup_nil
  seen_eq := List.toFinset_nil.symm
  length_le := Nat.zero_le _

variable (window : ReplayWindow α) {nonce : α}

theorem mem_seen : nonce ∈ window.seen ↔ nonce ∈ window.order := by
  rw [window.seen_eq, List.mem_toFinset]

theorem nodup_push (h : nonce ∉ window.seen) : (window.order ++ [nonce]).Nodup := by
  rw [mem_seen] at h
  exact window.nodup.append (List.nodup_singleton nonce) (List.disjoint_singleton.mpr h)

theorem evict_push (h : nonce ∉ window.seen) :
    evict window.capacity (insert nonce window.seen) (window.order ++ [nonce]) =
      (((window.order ++ [nonce]).rtake window.capacity).toFinset,
        (window.order ++ [nonce]).rtake window.capacity) := by
  have hinsert : insert nonce window.seen = (window.order ++ [nonce]).toFinset := by
    ext x
    simp [window.mem_seen]
  rw [hinsert, evict_eq window.capacity (window.nodup_push h)]

/-- The window after the insertion of a nonce that is not in it. -/
def push (nonce : α) (h : nonce ∉ window.seen) : ReplayWindow α :=
  let evicted := evict window.capacity (insert nonce window.seen) (window.order ++ [nonce])
  have hevicted : evicted = _ := window.evict_push h
  { capacity := window.capacity
    seen := evicted.1
    order := evicted.2
    one_le_capacity := window.one_le_capacity
    nodup := by
      rw [hevicted]
      exact (window.nodup_push h).sublist (List.drop_sublist _ _)
    seen_eq := by rw [hevicted]
    length_le := by
      rw [hevicted, length_rtake]
      exact Nat.min_le_right _ _ }

/-- The sender's insertion: a nonce in the window is a reuse. -/
def reserve (nonce : α) : Option (ReplayWindow α) :=
  if h : nonce ∈ window.seen then none else some (window.push nonce h)

/-- The receiver's insertion: a nonce in the window is a replay. -/
def acceptReceived (nonce : α) : Option (ReplayWindow α) :=
  if nonce ∈ window.seen then none else window.reserve nonce

theorem acceptReceived_eq : window.acceptReceived nonce = window.reserve nonce := by
  rw [acceptReceived, reserve]
  split_ifs <;> rfl

@[simp] theorem capacity_push (h : nonce ∉ window.seen) :
    (window.push nonce h).capacity = window.capacity := rfl

/-- **The queue** after an insertion: the new nonce at the end, at most `capacity` entries. -/
theorem order_push (h : nonce ∉ window.seen) :
    (window.push nonce h).order = (window.order ++ [nonce]).rtake window.capacity := by
  show (evict _ _ _).2 = _
  rw [window.evict_push h]

end ReplayWindow

end SshMobile.Crypto
