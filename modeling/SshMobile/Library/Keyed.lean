import SshMobile.Library.Table

/-!
# Tables of values that carry their key

A program often keeps records in a map under an identifier that each record also stores. The two
copies of the identifier agree as long as a record is only ever stored under its own key.
`Keyed key` is the type of the tables for which they do: the operations store a value under `key`
of it and nowhere else.

## Main definitions

* `Keyed key`: tables in which the value at `k` has the key `k`
* `Keyed.put`, `Keyed.erase`, `Keyed.modify`: the operations

## Main results

* `Keyed.get?_put`, `Keyed.get?_erase`, `Keyed.get?_modify`: each operation by its lookups
* `Keyed.mem_keys_iter`: a loop that collects keys
-/

namespace Library

universe u v

variable {K : Type u} {V : Type v} [DecidableEq K]

/-- A finite table in which every value is at its own key. -/
structure Keyed (key : V → K) where
  table : Table K V
  key_eq : ∀ {k v}, table.get? k = some v → key v = k

namespace Keyed

variable {key : V → K}

instance : EmptyCollection (Keyed key) := ⟨⟨∅, fun h => nomatch h⟩⟩

def get? (t : Keyed key) (k : K) : Option V := t.table.get? k

def contains (t : Keyed key) (k : K) : Bool := (t.get? k).isSome

def size (t : Keyed key) : ℕ := t.table.size

/-- The entries in the iteration order `order`. -/
def iter (order : K → ℕ) (t : Keyed key) : List (K × V) := t.table.iter order

/-- The table with `v` at its key. -/
def put (v : V) (t : Keyed key) : Keyed key where
  table := t.table.insert (key v) v
  key_eq := by
    intro k w h
    rw [Table.get?_insert] at h
    split_ifs at h with hk
    · rw [← Option.some.inj h, hk]
    · exact t.key_eq h

def erase (k : K) (t : Keyed key) : Keyed key where
  table := t.table.erase k
  key_eq := by
    intro k' w h
    rw [Table.get?_erase] at h
    split_ifs at h
    exact t.key_eq h

/-- The table with `f`, which keeps keys, applied to every value. -/
def modify (f : V → V) (hf : ∀ v, key (f v) = key v) (t : Keyed key) : Keyed key where
  table := t.table.mapValues fun _ => f
  key_eq := by
    intro k w h
    rw [Table.get?_mapValues, Option.map_eq_some_iff] at h
    obtain ⟨v, hv, rfl⟩ := h
    rw [hf, t.key_eq hv]

variable {t : Keyed key} {k : K} {v : V} {order : K → ℕ}

theorem key_of_get? (h : t.get? k = some v) : key v = k :=
  t.key_eq h

theorem get?_put (k : K) (v : V) (t : Keyed key) :
    (t.put v).get? k = if k = key v then some v else t.get? k :=
  Table.get?_insert _ _ _ _

theorem get?_put_of_ne (h : k ≠ key v) (t : Keyed key) : (t.put v).get? k = t.get? k := by
  rw [get?_put, if_neg h]

/-- A value that is replaced at its own key, or is not. -/
theorem get?_ite_put {c : Prop} [Decidable c] {k' : K} {v' : V} (h : t.get? k = some v)
    (hkey : key v' = k) :
    (if c then t.put v' else t).get? k' =
      if k' = k then some (if c then v' else v) else t.get? k' := by
  split_ifs with hc hk hk
  · rw [get?_put, hkey, if_pos hk]
  · rw [get?_put, hkey, if_neg hk]
  · rw [hk, h]
  · rfl

@[simp] theorem get?_put_self (v : V) (t : Keyed key) : (t.put v).get? (key v) = some v := by
  rw [get?_put, if_pos rfl]

theorem get?_erase (k k' : K) (t : Keyed key) :
    (t.erase k).get? k' = if k' = k then none else t.get? k' :=
  Table.get?_erase _ _ _

theorem get?_erase_of_ne {k' : K} (h : k' ≠ k) (t : Keyed key) :
    (t.erase k).get? k' = t.get? k' := by
  rw [get?_erase, if_neg h]

@[simp] theorem get?_erase_self (k : K) (t : Keyed key) : (t.erase k).get? k = none := by
  rw [get?_erase, if_pos rfl]

theorem get?_modify (f : V → V) (hf : ∀ v, key (f v) = key v) (k : K) (t : Keyed key) :
    (t.modify f hf).get? k = (t.get? k).map f :=
  Table.get?_mapValues _ _ _

theorem mem_iter : (k, v) ∈ t.iter order ↔ t.get? k = some v := by
  rw [iter, Table.mem_iter, Table.mem_toList, get?]

/-- **The keys of the values that satisfy `p`**, as a loop over the table collects them from the
values. -/
theorem mem_keys_iter {p : V → Prop} [DecidablePred p] :
    k ∈ (t.iter order).filterMap (fun entry =>
        if p entry.2 then some (key entry.2) else none) ↔
      ∃ v, t.get? k = some v ∧ p v := by
  simp only [List.mem_filterMap, Prod.exists, mem_iter]
  constructor
  · rintro ⟨k', v, hv, hsome⟩
    split_ifs at hsome with hp
    obtain rfl := Option.some.inj hsome
    exact ⟨v, key_of_get? hv ▸ hv, hp⟩
  · rintro ⟨v, hv, hp⟩
    refine ⟨k, v, hv, ?_⟩
    rw [if_pos hp, key_of_get? hv]

/-- The first entry that satisfies `p` in the iteration order. -/
def find? (order : K → ℕ) (p : K → V → Bool) (t : Keyed key) : Option (K × V) :=
  (t.iter order).find? fun entry => p entry.1 entry.2

theorem find?_some {p : K → V → Bool} (h : t.find? order p = some (k, v)) :
    t.get? k = some v ∧ p k v = true := by
  have hp := List.find?_some h
  exact ⟨mem_iter.mp (List.mem_of_find?_eq_some h), hp⟩

end Keyed

end Library
