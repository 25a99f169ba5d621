import Mathlib

/-!
# Finite tables

A table is a finite map with distinct keys, kept as an association list. A program that walks
over a hash map sees its entries in an order it cannot rely on: the walk `iter order` takes that
order as a parameter, so that a statement about every `order` is a statement about every
iteration order.

## Main definitions

* `Table K V`: finite tables with keys in `K` and values in `V`
* `Table.get?`, `Table.insert`, `Table.erase`, `Table.retain`,
  `Table.mapValues`: the operations
* `Table.size`, `Table.sumBy`: the number of entries, and a sum over them
* `Table.iter order`: the entries in the iteration order `order`

## Main results

* `Table.get?_insert`, `Table.get?_erase`, `Table.get?_retain`, `Table.get?_mapValues`: each
  operation by its lookups
* `Table.sumBy_insert`, `Table.sumBy_erase`: each operation by its sums
* `Table.iter_perm`: the walk visits every entry once
-/

namespace Library

universe u v

/-- A finite map from `K` to `V` with distinct keys. -/
def Table (K : Type u) (V : Type v) : Type (max u v) := AList fun _ : K => V

namespace Table

variable {K : Type u} {V : Type v}

instance : EmptyCollection (Table K V) := ⟨(∅ : AList fun _ : K => V)⟩

instance : Inhabited (Table K V) := ⟨∅⟩

instance [DecidableEq K] [DecidableEq V] : DecidableEq (Table K V) :=
  inferInstanceAs (DecidableEq (AList fun _ : K => V))

/-- The entries, in the order they are kept. -/
def toList (t : Table K V) : List (K × V) := t.entries.map fun e => (e.1, e.2)

/-- The number of entries. -/
def size (t : Table K V) : ℕ := t.entries.length

/-- The sum of `f` over the entries. -/
def sumBy (f : K → V → ℕ) (t : Table K V) : ℕ := (t.toList.map fun e => f e.1 e.2).sum

/-- The entries that `p` keeps. -/
def retain (p : K → V → Bool) (t : Table K V) : Table K V where
  entries := t.entries.filter fun e => p e.1 e.2
  nodupKeys := t.nodupKeys.sublist List.filter_sublist

/-- The table with `f` applied to the value at every key. -/
def mapValues (f : K → V → V) (t : Table K V) : Table K V where
  entries := t.entries.map fun e => ⟨e.1, f e.1 e.2⟩
  nodupKeys := by
    have h : (t.entries.map fun e => (⟨e.1, f e.1 e.2⟩ : Σ _ : K, V)).keys = t.entries.keys := by
      simp [List.keys, Function.comp_def]
    rw [List.NodupKeys, h]
    exact t.nodupKeys

/-- The entries in the iteration order `order`. -/
def iter (order : K → ℕ) (t : Table K V) : List (K × V) :=
  t.toList.insertionSort fun a b => order a.1 ≤ order b.1

theorem iter_perm (order : K → ℕ) (t : Table K V) : (t.iter order).Perm t.toList :=
  List.perm_insertionSort _ _

variable {order : K → ℕ} {t : Table K V} {k : K} {v : V} {k' : K} {f : K → V → ℕ}

@[simp, grind =] theorem mem_iter {e : K × V} : e ∈ t.iter order ↔ e ∈ t.toList :=
  (iter_perm order t).mem_iff

theorem length_toList (t : Table K V) : t.toList.length = t.size := List.length_map _

theorem nodup_keys_toList (t : Table K V) : (t.toList.map Prod.fst).Nodup := by
  have h : t.toList.map Prod.fst = AList.keys t := by
    simp [toList, AList.keys, List.keys, Function.comp_def]
  rw [h]
  exact AList.keys_nodup t

theorem nodup_keys_iter (order : K → ℕ) (t : Table K V) : ((t.iter order).map Prod.fst).Nodup :=
  ((iter_perm order t).map Prod.fst).nodup_iff.mpr t.nodup_keys_toList

variable [DecidableEq K]

/-- The value at a key. -/
def get? (t : Table K V) (k : K) : Option V := AList.lookup k t

/-- The table with the value `v` at the key `k`. -/
def insert (k : K) (v : V) (t : Table K V) : Table K V := AList.insert k v t

/-- The table without the key `k`. -/
def erase (k : K) (t : Table K V) : Table K V := AList.erase k t

/-- The key `k` has a value. -/
def contains (t : Table K V) (k : K) : Bool := (t.get? k).isSome

@[grind =] theorem mem_toList : (k, v) ∈ t.toList ↔ t.get? k = some v := by
  refine Iff.trans ?_ AList.mem_lookup_iff.symm
  simp only [toList, List.mem_map, Prod.mk.injEq]
  constructor
  · rintro ⟨⟨k', v'⟩, hmem, rfl, rfl⟩
    exact hmem
  · intro hmem
    exact ⟨⟨k, v⟩, hmem, rfl, rfl⟩

@[simp, grind =] theorem contains_eq_true : t.contains k = true ↔ ∃ v, t.get? k = some v := by
  rw [contains, Option.isSome_iff_exists]

@[grind =] theorem contains_eq_false : t.contains k = false ↔ t.get? k = none := by
  rw [contains, Option.isSome_eq_false_iff, Option.isNone_iff_eq_none]

@[simp, grind =] theorem get?_empty (k : K) : (∅ : Table K V).get? k = none := rfl

/-! ## Each operation by its lookups -/

@[grind =] theorem get?_insert (k k' : K) (v : V) (t : Table K V) :
    (t.insert k v).get? k' = if k' = k then some v else t.get? k' := by
  by_cases h : k' = k
  · subst h
    rw [if_pos rfl]
    exact AList.lookup_insert t
  · rw [if_neg h]
    exact AList.lookup_insert_ne h

@[simp] theorem get?_insert_self (k : K) (v : V) (t : Table K V) :
    (t.insert k v).get? k = some v := by
  rw [get?_insert, if_pos rfl]

theorem get?_insert_of_ne (h : k' ≠ k) (v : V) (t : Table K V) :
    (t.insert k v).get? k' = t.get? k' := by
  rw [get?_insert, if_neg h]

/-- Replacing the value at a key of the table adds no key. -/
theorem contains_of_contains_insert (h : (t.insert k v).contains k' = true)
    (hk : t.contains k = true) : t.contains k' = true := by
  by_cases heq : k' = k
  · exact heq ▸ hk
  · rwa [contains, get?_insert_of_ne heq] at h

@[grind =] theorem get?_erase (k k' : K) (t : Table K V) :
    (t.erase k).get? k' = if k' = k then none else t.get? k' := by
  by_cases h : k' = k
  · subst h
    rw [if_pos rfl]
    exact AList.lookup_erase k' t
  · rw [if_neg h]
    exact AList.lookup_erase_ne h

@[simp] theorem get?_erase_self (k : K) (t : Table K V) : (t.erase k).get? k = none := by
  rw [get?_erase, if_pos rfl]

theorem get?_erase_of_ne (h : k' ≠ k) (t : Table K V) : (t.erase k).get? k' = t.get? k' := by
  rw [get?_erase, if_neg h]

@[grind =] theorem get?_retain (p : K → V → Bool) (k : K) (t : Table K V) :
    (t.retain p).get? k = (t.get? k).filter (p k) := by
  refine Option.ext fun v => ?_
  rw [Option.filter_eq_some_iff, ← mem_toList, ← mem_toList]
  simp only [toList, retain, List.mem_map, List.mem_filter, Prod.mk.injEq]
  constructor
  · rintro ⟨⟨k', v'⟩, ⟨hmem, hp⟩, rfl, rfl⟩
    exact ⟨⟨⟨k', v'⟩, hmem, rfl, rfl⟩, hp⟩
  · rintro ⟨⟨⟨k', v'⟩, hmem, rfl, rfl⟩, hp⟩
    exact ⟨⟨k', v'⟩, ⟨hmem, hp⟩, rfl, rfl⟩

theorem get?_retain_keys (p : K → Bool) (k : K) (t : Table K V) :
    (t.retain fun k _ => p k).get? k = if p k then t.get? k else none := by
  rw [get?_retain]
  cases t.get? k <;> cases p k <;> simp [Option.filter]

@[grind =] theorem get?_mapValues (f : K → V → V) (k : K) (t : Table K V) :
    (t.mapValues f).get? k = (t.get? k).map (f k) := by
  refine Option.ext fun v => ?_
  rw [Option.map_eq_some_iff, ← mem_toList]
  simp only [← mem_toList, toList, mapValues, List.mem_map, Prod.mk.injEq]
  constructor
  · rintro ⟨_, ⟨⟨k', v'⟩, hmem, rfl⟩, rfl, rfl⟩
    exact ⟨v', ⟨⟨k', v'⟩, hmem, rfl, rfl⟩, rfl⟩
  · rintro ⟨v', ⟨⟨k', v''⟩, hmem, rfl, rfl⟩, rfl⟩
    exact ⟨_, ⟨⟨k', v''⟩, hmem, rfl⟩, rfl, rfl⟩

theorem get?_of_retain {p : K → V → Bool} (h : (t.retain p).get? k = some v) :
    t.get? k = some v ∧ p k v = true := by
  rw [get?_retain, Option.filter_eq_some_iff] at h
  exact h

/-! ## Each operation by its size and its sums -/

theorem toList_insert_of_none (h : t.get? k = none) :
    (t.insert k v).toList = (k, v) :: t.toList := by
  have hmem : k ∉ (show AList fun _ : K => V from t) := AList.lookup_eq_none.mp h
  simp only [toList, insert, AList.entries_insert_of_notMem hmem, List.map_cons]

theorem perm_toList_of_some (h : t.get? k = some v) :
    t.toList.Perm ((k, v) :: (t.erase k).toList) := by
  have hmem : Sigma.mk k v ∈ t.entries := AList.mem_lookup_iff.mp h
  obtain ⟨v', l₁, l₂, hk, hl, hl'⟩ := List.exists_of_kerase (List.mem_keys_of_mem hmem)
  obtain rfl : v' = v := t.nodupKeys.eq_of_mk_mem (by rw [hl]; simp) hmem
  have he : (t.erase k).entries = l₁ ++ l₂ := hl'
  simp only [toList, he, hl, List.map_append, List.map_cons]
  exact List.perm_middle

theorem size_insert_of_none (h : t.get? k = none) : (t.insert k v).size = t.size + 1 := by
  rw [← length_toList, ← length_toList, toList_insert_of_none h, List.length_cons]

theorem size_erase_of_some (h : t.get? k = some v) : (t.erase k).size + 1 = t.size := by
  rw [← length_toList, ← length_toList, (perm_toList_of_some h).length_eq, List.length_cons]

theorem erase_of_none (h : t.get? k = none) : t.erase k = t := by
  have hmem : k ∉ t.entries.keys := AList.lookup_eq_none.mp h
  exact AList.ext (List.kerase_of_notMem_keys hmem)

theorem size_erase_le (k : K) (t : Table K V) : (t.erase k).size ≤ t.size := by
  cases h : t.get? k with
  | none => rw [erase_of_none h]
  | some v => exact Nat.le_of_succ_le (size_erase_of_some h).le

omit [DecidableEq K] in
theorem size_retain_le (p : K → V → Bool) (t : Table K V) : (t.retain p).size ≤ t.size :=
  List.length_filter_le _ _

theorem size_le_card {s : Finset K} (h : ∀ k, t.contains k = true → k ∈ s) : t.size ≤ s.card := by
  rw [← length_toList, ← List.length_map (f := Prod.fst),
    ← List.toFinset_card_of_nodup t.nodup_keys_toList]
  refine Finset.card_le_card fun k hk => h k ?_
  obtain ⟨⟨_, v⟩, hmem, rfl⟩ := List.mem_map.mp (List.mem_toFinset.mp hk)
  exact contains_eq_true.mpr ⟨v, mem_toList.mp hmem⟩

theorem sumBy_insert (h : t.get? k = none) : (t.insert k v).sumBy f = t.sumBy f + f k v := by
  simp only [sumBy, toList_insert_of_none h, List.map_cons, List.sum_cons]
  exact Nat.add_comm _ _

theorem sumBy_erase (h : t.get? k = some v) : (t.erase k).sumBy f + f k v = t.sumBy f := by
  simp only [sumBy, ((perm_toList_of_some h).map _).sum_eq, List.map_cons, List.sum_cons]
  exact Nat.add_comm _ _

theorem insert_eq_insert_erase (k : K) (v : V) (t : Table K V) :
    t.insert k v = (t.erase k).insert k v := by
  refine AList.ext ?_
  have hk : k ∉ (List.kerase k t.entries).keys := List.notMem_keys_kerase k t.nodupKeys
  change Sigma.mk k v :: List.kerase k t.entries =
    Sigma.mk k v :: List.kerase k (List.kerase k t.entries)
  rw [List.kerase_of_notMem_keys hk]

theorem size_insert_of_some {w : V} (h : t.get? k = some v) : (t.insert k w).size = t.size := by
  rw [insert_eq_insert_erase, size_insert_of_none (get?_erase_self k t), size_erase_of_some h]

theorem sumBy_insert_of_some {w : V} (h : t.get? k = some v) :
    (t.insert k w).sumBy f + f k v = t.sumBy f + f k w := by
  rw [insert_eq_insert_erase, sumBy_insert (get?_erase_self k t), ← sumBy_erase h]
  exact Nat.add_right_comm _ _ _

theorem get?_of_size_eq_zero (h : t.size = 0) (k : K) : t.get? k = none := by
  rcases hget : t.get? k with _ | v
  · rfl
  · have hsize := size_erase_of_some hget
    omega

theorem exists_get?_of_iter (h : (k, v) ∈ t.iter order) : t.get? k = some v :=
  mem_toList.mp (mem_iter.mp h)

end Table

end Library
