import SshMobile.Library.Table

/-!
# Binary heaps whose entries know their position

A heap of keyed entries that also keeps, for every key, the position its entry stands at, so that
an entry can be removed or moved by its key. The entries sit in a list; the entry at `c` has its
parent at `(c - 1) / 2`. Sifting swaps neighbours, and every swap updates both stored positions.

Up to one misplaced entry the list is in order at any time. `UpHole` and `DownHole` say what is
still in order while that entry moves up or down; they are stated for any ranking of positions.

## Main definitions

* `Heap K P`: entries with keys in `K` and priorities in `P`, and their stored positions
* `Heap.push`, `Heap.remove`, `Heap.fix`: the operations
* `Heap.Placed`: every stored position is the entry's position
* `Heap.Ordered`: no entry ranks before its parent
* `Heap.Valid`: both

## Main results

* `Heap.valid_push`, `Heap.mem_push`: an entry is added
* `Heap.remove_spec`, `Heap.mem_remove`: the entry at a position is removed
* `Heap.reprioritize_spec`: an entry gets another priority
-/

namespace Library

/-! ## Order of positions -/

section Positions

variable {α : Type*} [LinearOrder α] {r : ℕ → α} {n i j c : ℕ}

/-- **Heap order below `n`**: no position ranks before its parent. -/
def HeapOrder (r : ℕ → α) (n : ℕ) : Prop := ∀ c, 0 < c → c < n → r ((c - 1) / 2) ≤ r c

/-- Heap order except between `j` and its parent; the children of `j` rank after that parent. -/
structure UpHole (r : ℕ → α) (n j : ℕ) : Prop where
  pairs : ∀ c, 0 < c → c < n → c ≠ j → r ((c - 1) / 2) ≤ r c
  across : 0 < j → ∀ c, 0 < c → c < n → (c - 1) / 2 = j → r ((j - 1) / 2) ≤ r c

/-- Heap order except between `i` and its parent or children; the children of `i` rank after that
parent. -/
structure DownHole (r : ℕ → α) (n i : ℕ) : Prop where
  pairs : ∀ c, 0 < c → c < n → c ≠ i → (c - 1) / 2 ≠ i → r ((c - 1) / 2) ≤ r c
  across : 0 < i → ∀ c, 0 < c → c < n → (c - 1) / 2 = i → r ((i - 1) / 2) ≤ r c

theorem HeapOrder.mono {m : ℕ} (h : HeapOrder r n) (hm : m ≤ n) : HeapOrder r m :=
  fun c hpos hc => h c hpos (hc.trans_le hm)

/-- A change of rank at one position leaves a hole there. -/
theorem HeapOrder.downHole {r' : ℕ → α} (h : HeapOrder r n)
    (hsame : ∀ c, c < n → c ≠ i → r' c = r c) (hi : i < n) : DownHole r' n i where
  pairs c hpos hc hne hparent := by
    rw [hsame c hc hne, hsame _ (by omega) hparent]
    exact h c hpos hc
  across hpos c hcpos hc hparent := by
    rw [hsame c hc (by omega), hsame _ (by omega) (by omega)]
    exact (h i hpos hi).trans (hparent ▸ h c hcpos hc)

theorem UpHole.order (h : UpHole r n j) (hstop : 0 < j → r ((j - 1) / 2) ≤ r j) :
    HeapOrder r n := by
  intro c hpos hc
  rcases eq_or_ne c j with rfl | hne
  · exact hstop hpos
  · exact h.pairs c hpos hc hne

/-- **One swap upwards** moves the hole to the parent. -/
theorem UpHole.swap (h : UpHole r n j) (hpos : 0 < j) (hj : j < n) (hlt : r j < r ((j - 1) / 2)) :
    UpHole (r ∘ Equiv.swap ((j - 1) / 2) j) n ((j - 1) / 2) := by
  generalize hp : (j - 1) / 2 = p at hlt ⊢
  have hpj : p < j := by omega
  have hother : ∀ c, c ≠ p → c ≠ j → Equiv.swap p j c = c := fun c => Equiv.swap_apply_of_ne_of_ne
  constructor
  · intro c hcpos hc hne
    simp only [Function.comp_apply]
    rcases eq_or_ne c j with rfl | hcj
    · grind
    · rw [hother c hne hcj]
      rcases eq_or_ne ((c - 1) / 2) j with hcp | hcp
      · rw [hcp, Equiv.swap_apply_right, ← hp]
        exact h.across hpos c hcpos hc hcp
      · rcases eq_or_ne ((c - 1) / 2) p with hcp' | hcp'
        · rw [hcp', Equiv.swap_apply_left]
          exact hlt.le.trans (hcp' ▸ h.pairs c hcpos hc hcj)
        · rw [hother _ hcp' hcp]
          exact h.pairs c hcpos hc hcj
  · intro hppos c hcpos hc hcp
    simp only [Function.comp_apply]
    have habove : r ((p - 1) / 2) ≤ r p := h.pairs p hppos (by omega) hpj.ne
    rw [hother ((p - 1) / 2) (by omega) (by omega)]
    rcases eq_or_ne c j with rfl | hcj
    · simp_all
    · rw [hother c (by omega) hcj]
      exact habove.trans (hcp ▸ h.pairs c hcpos hc hcj)

/-- If no child ranks before `i`, the only pair left is that of `i` and its parent. -/
theorem DownHole.upHole (h : DownHole r n i)
    (hstop : ∀ c, 0 < c → c < n → (c - 1) / 2 = i → r i ≤ r c) : UpHole r n i where
  pairs c hpos hc hne := by
    rcases eq_or_ne ((c - 1) / 2) i with hparent | hparent
    · simp_all
    · exact h.pairs c hpos hc hne hparent
  across := h.across

/-- **One swap downwards** with the child that ranks first moves the hole to that child, and its
new parent ranks before it. -/
theorem DownHole.swap (h : DownHole r n i) (hpos : 0 < j) (hj : j < n) (hparent : (j - 1) / 2 = i)
    (hfirst : ∀ c, 0 < c → c < n → (c - 1) / 2 = i → r j ≤ r c) (hlt : r j < r i) :
    DownHole (r ∘ Equiv.swap i j) n j ∧
      (r ∘ Equiv.swap i j) ((j - 1) / 2) ≤ (r ∘ Equiv.swap i j) j := by
  have hother : ∀ c, c ≠ i → c ≠ j → Equiv.swap i j c = c := fun c => Equiv.swap_apply_of_ne_of_ne
  refine ⟨⟨?_, ?_⟩, ?_⟩
  · intro c hcpos hc hne hcp
    simp only [Function.comp_apply]
    rcases eq_or_ne c i with rfl | hci
    · rw [Equiv.swap_apply_left, hother _ (by omega) (by omega)]
      exact h.across hcpos j hpos hj hparent
    · rw [hother c hci hne]
      rcases eq_or_ne ((c - 1) / 2) i with hcp' | hcp'
      · simp_all
      · rw [hother _ hcp' hcp]
        exact h.pairs c hcpos hc hci hcp'
  · intro _ c hcpos hc hcp
    simp only [Function.comp_apply]
    rw [hparent, Equiv.swap_apply_left, hother c (by omega) (by omega)]
    exact hcp ▸ h.pairs c hcpos hc (by omega) (by omega)
  · grind

end Positions

/-! ## The heap -/

universe u v w

/-- A heap: its entries by position, and the position stored for each key. -/
structure Heap (K : Type u) (P : Type v) where
  entries : List (K × P)
  position : Table K ℕ

namespace Heap

variable {K : Type u} {P : Type v} {R : Type w} [DecidableEq K] [LinearOrder R]

instance : EmptyCollection (Heap K P) := ⟨⟨[], ∅⟩⟩

section Operations

variable (rank : K × P → R)

/-- The rank of the entry at a position, if there is one. -/
def rankAt (h : Heap K P) (i : ℕ) : WithTop R :=
  match h.entries[i]? with
  | some e => (rank e : WithTop R)
  | none => ⊤

def less (h : Heap K P) (i j : ℕ) : Bool := decide (h.rankAt rank i < h.rankAt rank j)

/-- Two entries change places, and each stores its new position. -/
def swap (h : Heap K P) (i j : ℕ) : Heap K P :=
  match h.entries[i]?, h.entries[j]? with
  | some a, some b =>
    { entries := (h.entries.set i b).set j a
      position := (h.position.insert b.1 i).insert a.1 j }
  | _, _ => h

/-- The entry at `j` moves up while it ranks before its parent. -/
def up : ℕ → Heap K P → ℕ → Heap K P
  | 0, h, _ => h
  | fuel + 1, h, j =>
    if (j - 1) / 2 = j ∨ ¬ h.less rank j ((j - 1) / 2) then h
    else up fuel (h.swap ((j - 1) / 2) j) ((j - 1) / 2)

/-- The child of `i` below `n` that ranks first, given that there is one. -/
def firstChild (h : Heap K P) (i n : ℕ) : ℕ :=
  if 2 * i + 2 < n ∧ h.less rank (2 * i + 2) (2 * i + 1) then 2 * i + 2 else 2 * i + 1

/-- The entry at `i` moves down, among the first `n` entries, while a child ranks before it.
Returns where it ends. -/
def down : ℕ → Heap K P → ℕ → ℕ → Heap K P × ℕ
  | 0, h, i, _ => (h, i)
  | fuel + 1, h, i, n =>
    if n ≤ 2 * i + 1 ∨ ¬ h.less rank (h.firstChild rank i n) i then (h, i)
    else down fuel (h.swap i (h.firstChild rank i n)) (h.firstChild rank i n) n

/-- A misplaced entry moves down, or up if it did not move down. -/
def settle (h : Heap K P) (i n : ℕ) : Heap K P :=
  if i < (h.down rank n i n).2 then (h.down rank n i n).1
  else (h.down rank n i n).1.up rank (i + 1) i

def push (h : Heap K P) (key : K) (priority : P) : Heap K P :=
  up rank (h.entries.length + 1)
    { entries := h.entries ++ [(key, priority)]
      position := h.position.insert key h.entries.length }
    h.entries.length

/-- The last entry leaves the heap. -/
def pop (h : Heap K P) : Heap K P :=
  match h.entries.getLast? with
  | some e => { entries := h.entries.dropLast, position := h.position.erase e.1 }
  | none => h

/-- The entry at `i` leaves the heap: it changes places with the last one, which then settles. -/
def remove (h : Heap K P) (i : ℕ) : Heap K P :=
  if h.entries.length - 1 = i then h.pop
  else ((h.swap i (h.entries.length - 1)).settle rank i (h.entries.length - 1)).pop

/-- The entry of a key gets another priority. -/
def setPriority (h : Heap K P) (key : K) (priority : P) : Heap K P :=
  { h with entries := h.entries.map fun e => if e.1 = key then (key, priority) else e }

/-- The priority of the entry of a key. -/
def priority? (h : Heap K P) (key : K) : Option P :=
  (h.entries.find? fun e => e.1 = key).map Prod.snd

/-- The entry at `i` settles after a change of its priority. -/
def fix (h : Heap K P) (i : ℕ) : Heap K P := h.settle rank i h.entries.length

end Operations

/-! ## Stored positions -/

/-- **Every stored position is the entry's position**, and no key has a stored position without
an entry. -/
structure Placed (h : Heap K P) : Prop where
  stored : ∀ i e, h.entries[i]? = some e → h.position.get? e.1 = some i
  entry : ∀ k i, h.position.get? k = some i → ∃ p, h.entries[i]? = some (k, p)

variable {h : Heap K P} {rank : K × P → R} {i j n : ℕ} {key : K} {priority : P}

theorem placed_empty : Placed (∅ : Heap K P) :=
  ⟨fun _ _ he => by simp [EmptyCollection.emptyCollection] at he, fun _ _ hi => by cases hi⟩

variable {e : K × P} {fuel : ℕ}

theorem Placed.position_unique (hp : Placed h) {e' : K × P} (hi : h.entries[i]? = some e)
    (hj : h.entries[j]? = some e') (hkey : e.1 = e'.1) : i = j := by
  have hstored := hp.stored i e hi
  rw [hkey, hp.stored j e' hj] at hstored
  exact (Option.some.inj hstored).symm

theorem Placed.nodup_keys (hp : Placed h) : (h.entries.map Prod.fst).Nodup := by
  rw [List.nodup_iff_getElem?_ne_getElem?]
  intro i j hij hj heq
  rw [List.length_map] at hj
  rw [List.getElem?_map, List.getElem?_map, List.getElem?_eq_getElem (hij.trans hj),
    List.getElem?_eq_getElem hj] at heq
  exact hij.ne (hp.position_unique (List.getElem?_eq_getElem (hij.trans hj))
    (List.getElem?_eq_getElem hj) (Option.some.inj heq))

/-- A key has a stored position iff it has an entry. -/
theorem Placed.position_isSome (hp : Placed h) :
    (∃ i, h.position.get? key = some i) ↔ ∃ p, (key, p) ∈ h.entries := by
  constructor
  · rintro ⟨i, hi⟩
    obtain ⟨p, hentry⟩ := hp.entry key i hi
    exact ⟨p, List.mem_of_getElem? hentry⟩
  · rintro ⟨p, hmem⟩
    obtain ⟨i, hi⟩ := List.mem_iff_getElem?.mp hmem
    exact ⟨i, hp.stored i _ hi⟩

theorem mem_of_priority?_eq_some (hpriority : h.priority? key = some priority) :
    (key, priority) ∈ h.entries := by
  obtain ⟨⟨k, p⟩, hfound, rfl⟩ := Option.map_eq_some_iff.mp hpriority
  grind

theorem priority?_eq_none_iff : h.priority? key = none ↔ ∀ p, (key, p) ∉ h.entries := by
  grind [priority?, Option.map_eq_none_iff]

/-- No key has two entries. -/
theorem Placed.priority_unique (hp : Placed h) {p p' : P} (hmem : (key, p) ∈ h.entries)
    (hmem' : (key, p') ∈ h.entries) : p = p' :=
  congrArg Prod.snd (List.inj_on_of_nodup_map hp.nodup_keys hmem hmem' rfl)

/-! ## Swaps -/

theorem swap_eq {a b : K × P} (ha : h.entries[i]? = some a) (hb : h.entries[j]? = some b) :
    h.swap i j =
      { entries := (h.entries.set i b).set j a
        position := (h.position.insert b.1 i).insert a.1 j } := by
  simp only [swap, ha, hb]

theorem getElem?_swap (hi : i < h.entries.length) (hj : j < h.entries.length) (c : ℕ) :
    (h.swap i j).entries[c]? = h.entries[Equiv.swap i j c]? := by
  have ha := List.getElem?_eq_getElem hi
  have hb := List.getElem?_eq_getElem hj
  rw [swap_eq ha hb, List.getElem?_set, List.length_set, List.getElem?_set,
    Equiv.swap_apply_def]
  grind

omit [LinearOrder R] in
theorem rankAt_swap (hi : i < h.entries.length) (hj : j < h.entries.length) :
    (h.swap i j).rankAt rank = h.rankAt rank ∘ Equiv.swap i j := by
  grind [rankAt, getElem?_swap]

theorem perm_swap (i j : ℕ) (h : Heap K P) : (h.swap i j).entries.Perm h.entries := by
  unfold swap
  split
  · grind [List.set_set_perm]
  · exact .refl _

@[simp] theorem length_swap (i j : ℕ) (h : Heap K P) :
    (h.swap i j).entries.length = h.entries.length := (perm_swap i j h).length_eq

theorem placed_swap (hp : Placed h) (i j : ℕ) : Placed (h.swap i j) := by
  rcases ha : h.entries[i]? with _ | a
  · simpa only [swap, ha] using hp
  rcases hb : h.entries[j]? with _ | b
  · simpa only [swap, ha, hb] using hp
  have hi := (List.getElem?_eq_some_iff.mp ha).1
  have hj := (List.getElem?_eq_some_iff.mp hb).1
  have hposition : (h.swap i j).position = (h.position.insert b.1 i).insert a.1 j := by
    rw [swap_eq ha hb]
  constructor
  · intro c e he
    rw [getElem?_swap hi hj, Equiv.swap_apply_def] at he
    rw [hposition]
    split_ifs at he with hci hcj
    · -- The entry that was at `j` now stores `i`.
      obtain rfl := Option.some.inj (hb.symm.trans he)
      subst hci
      rcases eq_or_ne b.1 a.1 with hkey | hkey
      · obtain rfl := hp.position_unique hb ha hkey
        rw [hkey, Table.get?_insert_self]
      · grind
    · simp_all
    · have hka : e.1 ≠ a.1 := fun hkey => hci (hp.position_unique he ha hkey)
      have hkb : e.1 ≠ b.1 := fun hkey => hcj (hp.position_unique he hb hkey)
      rw [Table.get?_insert_of_ne hka, Table.get?_insert_of_ne hkb]
      exact hp.stored c e he
  · intro k c hc
    rw [hposition] at hc
    rw [getElem?_swap hi hj]
    rcases eq_or_ne k a.1 with rfl | hka
    · grind
    rw [Table.get?_insert_of_ne hka] at hc
    rcases eq_or_ne k b.1 with rfl | hkb
    · grind
    rw [Table.get?_insert_of_ne hkb] at hc
    obtain ⟨p, hentry⟩ := hp.entry k c hc
    grind

/-! ## Sifting -/

section

variable (rank : K × P → R) (hp : Placed h)

include hp

/-- What no sift changes: the entries up to their order, and the stored positions being right. -/
theorem up_kept (fuel j : ℕ) :
    Placed (up rank fuel h j) ∧ (up rank fuel h j).entries.Perm h.entries := by
  induction fuel generalizing h j with
  | zero => exact ⟨hp, .refl _⟩
  | succ fuel ih =>
    rw [up]
    split
    · exact ⟨hp, .refl _⟩
    · obtain ⟨hplaced, hperm⟩ := ih (placed_swap hp _ _) ((j - 1) / 2)
      exact ⟨hplaced, hperm.trans (perm_swap _ _ h)⟩

theorem down_kept (fuel i n : ℕ) :
    Placed (down rank fuel h i n).1 ∧ (down rank fuel h i n).1.entries.Perm h.entries := by
  induction fuel generalizing h i with
  | zero => exact ⟨hp, .refl _⟩
  | succ fuel ih =>
    rw [down]
    split
    · exact ⟨hp, .refl _⟩
    · obtain ⟨hplaced, hperm⟩ := ih (placed_swap hp _ _) (h.firstChild rank i n)
      exact ⟨hplaced, hperm.trans (perm_swap _ _ h)⟩

theorem settle_kept (i n : ℕ) :
    Placed (h.settle rank i n) ∧ (h.settle rank i n).entries.Perm h.entries := by
  obtain ⟨hplaced, hperm⟩ := down_kept rank hp n i n
  unfold settle
  split
  · exact ⟨hplaced, hperm⟩
  · obtain ⟨hplaced', hperm'⟩ := up_kept rank hplaced (i + 1) i
    exact ⟨hplaced', hperm'.trans hperm⟩

end

/-- **Sifting up restores the order.** -/
theorem heapOrder_up (hole : UpHole (h.rankAt rank) n j) (hj : j < n) (hn : n ≤ h.entries.length)
    (hfuel : j < fuel) : HeapOrder ((up rank fuel h j).rankAt rank) n := by
  induction fuel generalizing h j with
  | zero => exact absurd hfuel (Nat.not_lt_zero j)
  | succ fuel ih =>
    rw [up]
    split
    · refine hole.order fun hpos => ?_
      grind [less]
    · rename_i hgo
      rw [not_or, not_not] at hgo
      have hless := of_decide_eq_true hgo.2
      have hpos : 0 < j := Nat.pos_of_ne_zero fun hzero => hgo.1 (by omega)
      refine ih ?_ (by omega) (by rwa [length_swap]) (by omega)
      rw [rankAt_swap (by omega) (by omega)]
      exact hole.swap hpos hj hless

omit [DecidableEq K] in
/-- The first child is a child, and no child ranks before it. -/
theorem firstChild_spec (rank : K × P → R) (h : Heap K P) (hchild : 2 * i + 1 < n) :
    (0 < h.firstChild rank i n ∧ h.firstChild rank i n < n ∧
        (h.firstChild rank i n - 1) / 2 = i) ∧
      ∀ c, 0 < c → c < n → (c - 1) / 2 = i →
        h.rankAt rank (h.firstChild rank i n) ≤ h.rankAt rank c := by
  unfold firstChild
  split
  · rename_i hright
    refine ⟨⟨by omega, hright.1, by omega⟩, fun c hpos hc hparent => ?_⟩
    rcases (by omega : c = 2 * i + 1 ∨ c = 2 * i + 2) with rfl | rfl
    · exact (of_decide_eq_true hright.2).le
    · exact le_rfl
  · rename_i hleft
    refine ⟨⟨by omega, hchild, by omega⟩, fun c hpos hc hparent => ?_⟩
    rcases (by omega : c = 2 * i + 1 ∨ c = 2 * i + 2) with rfl | rfl
    · exact le_rfl
    · have hless : ¬ h.less rank (2 * i + 2) (2 * i + 1) := fun hless => hleft ⟨hc, hless⟩
      simpa only [less, decide_eq_true_eq, not_lt] using hless

omit [DecidableEq K] in
/-- A sift down that stops at `i` leaves no child before it. -/
theorem le_child_of_stop (hstop : n ≤ 2 * i + 1 ∨ ¬ h.less rank (h.firstChild rank i n) i) :
    ∀ c, 0 < c → c < n → (c - 1) / 2 = i → h.rankAt rank i ≤ h.rankAt rank c := by
  grind [less, firstChild_spec]

/-- **Sifting down restores the order** below a parent that ranks before the entry. -/
theorem heapOrder_down (hole : DownHole (h.rankAt rank) n i)
    (habove : 0 < i → h.rankAt rank ((i - 1) / 2) ≤ h.rankAt rank i) (hi : i < n)
    (hn : n ≤ h.entries.length) (hfuel : n ≤ i + fuel) :
    HeapOrder ((down rank fuel h i n).1.rankAt rank) n := by
  induction fuel generalizing h i with
  | zero => omega
  | succ fuel ih =>
    rw [down]
    split
    · rename_i hstop
      exact (hole.upHole (le_child_of_stop hstop)).order habove
    · rename_i hgo
      rw [not_or, not_le, not_not] at hgo
      obtain ⟨⟨hpos, hlt, hparent⟩, hfirst⟩ := firstChild_spec rank h hgo.1
      obtain ⟨hhole, hle⟩ := hole.swap hpos hlt hparent hfirst (of_decide_eq_true hgo.2)
      rw [← rankAt_swap (by omega) (by omega)] at hhole hle
      grind [length_swap]

theorem le_down (h : Heap K P) (i n : ℕ) : i ≤ (down rank fuel h i n).2 := by
  induction fuel generalizing h i with
  | zero => exact le_rfl
  | succ fuel ih =>
    grind [down, firstChild_spec]

/-- **Settling restores the order** around one misplaced entry. -/
theorem heapOrder_settle (hole : DownHole (h.rankAt rank) n i) (hi : i < n)
    (hn : n ≤ h.entries.length) : HeapOrder ((h.settle rank i n).rankAt rank) n := by
  obtain ⟨fuel, rfl⟩ : ∃ fuel, n = fuel + 1 := ⟨n - 1, by omega⟩
  unfold settle
  rw [down]
  split
  · -- Not moved down: only the parent may rank after the entry.
    rename_i hstop
    rw [if_neg (lt_irrefl i)]
    exact heapOrder_up (hole.upHole (le_child_of_stop hstop)) hi hn (Nat.lt_succ_self i)
  · rename_i hgo
    rw [not_or, not_le, not_not] at hgo
    obtain ⟨⟨hpos, hlt, hparent⟩, hfirst⟩ := firstChild_spec rank h hgo.1
    obtain ⟨hhole, hle⟩ := hole.swap hpos hlt hparent hfirst (of_decide_eq_true hgo.2)
    rw [← rankAt_swap (by omega) (by omega)] at hhole hle
    grind [le_down, heapOrder_down, length_swap]

/-! ## What a sift does not reach -/

/-- Sifting up from `j` leaves the entries after `j` alone. -/
theorem getElem?_up {c : ℕ} (hj : j < h.entries.length) (hc : j < c) :
    (up rank fuel h j).entries[c]? = h.entries[c]? := by
  induction fuel generalizing h j with
  | zero => rfl
  | succ fuel ih =>
    rw [up]
    split
    · rfl
    · grind [length_swap, getElem?_swap]

/-- Sifting down among the first `n` entries leaves the others alone. -/
theorem getElem?_down {c : ℕ} (hi : i < n) (hn : n ≤ h.entries.length) (hc : n ≤ c) :
    (down rank fuel h i n).1.entries[c]? = h.entries[c]? := by
  induction fuel generalizing h i with
  | zero => rfl
  | succ fuel ih =>
    rw [down]
    split
    · rfl
    · rename_i hgo
      rw [not_or, not_le] at hgo
      obtain ⟨⟨-, hlt, -⟩, -⟩ := firstChild_spec rank h hgo.1
      rw [ih hlt (by rwa [length_swap]), getElem?_swap (by omega) (by omega),
        Equiv.swap_apply_of_ne_of_ne (by omega) (by omega)]

theorem getElem?_settle {c : ℕ} (hp : Placed h) (hi : i < n) (hn : n ≤ h.entries.length)
    (hc : n ≤ c) : (h.settle rank i n).entries[c]? = h.entries[c]? := by
  unfold settle
  split
  · exact getElem?_down hi hn hc
  · have hlength := (down_kept rank hp n i n).2.length_eq
    grind [getElem?_up, getElem?_down]

/-! ## Valid heaps -/

/-- **No entry ranks before its parent.** -/
def Ordered (rank : K × P → R) (h : Heap K P) : Prop :=
  HeapOrder (h.rankAt rank) h.entries.length

/-- **A valid heap**: stored positions are right, and the entries are in order. -/
structure Valid (rank : K × P → R) (h : Heap K P) : Prop where
  placed : Placed h
  ordered : h.Ordered rank

theorem valid_empty (rank : K × P → R) : Valid rank (∅ : Heap K P) :=
  ⟨placed_empty, fun c _ hc => absurd hc (Nat.not_lt_zero c)⟩

/-! ## Adding an entry -/

theorem placed_append (hp : Placed h) (hnew : h.position.get? key = none) (priority : P) :
    Placed
      { entries := h.entries ++ [(key, priority)]
        position := h.position.insert key h.entries.length } := by
  constructor
  · intro i e he
    rcases Nat.lt_or_ge i h.entries.length with hi | hi
    · rw [List.getElem?_append_left hi] at he
      have hstored := hp.stored i e he
      grind
    · grind
  · intro k i hi
    rcases eq_or_ne k key with rfl | hkey
    · simp_all
    · rw [Table.get?_insert_of_ne hkey] at hi
      obtain ⟨p, hentry⟩ := hp.entry k i hi
      grind

theorem perm_push (rank : K × P → R) (hp : Placed h) (hnew : h.position.get? key = none)
    (priority : P) : (h.push rank key priority).entries.Perm ((key, priority) :: h.entries) :=
  (up_kept rank (placed_append hp hnew priority) _ _).2.trans
    (List.perm_append_singleton _ _)

theorem mem_push (hp : Placed h) (hnew : h.position.get? key = none) :
    e ∈ (h.push rank key priority).entries ↔ e = (key, priority) ∨ e ∈ h.entries := by
  grind [perm_push]

/-- **Adding an entry** keeps the heap valid. -/
theorem valid_push (hv : Valid rank h) (hnew : h.position.get? key = none) (priority : P) :
    Valid rank (h.push rank key priority) := by
  have hplaced := placed_append hv.placed hnew priority
  refine ⟨(up_kept rank hplaced _ _).1, ?_⟩
  unfold Ordered
  rw [(perm_push rank hv.placed hnew priority).length_eq, List.length_cons]
  refine heapOrder_up ⟨?_, ?_⟩ (Nat.lt_succ_self _) (by simp) (Nat.lt_succ_self _)
  · intro c hpos hc hne
    simp only [rankAt]
    rw [List.getElem?_append_left (by omega), List.getElem?_append_left (by omega)]
    exact hv.ordered c hpos (by omega)
  · intro hpos c hcpos hc hparent
    omega

/-! ## Removing an entry -/

theorem pop_eq (hlast : h.entries.getLast? = some e) :
    h.pop = { entries := h.entries.dropLast, position := h.position.erase e.1 } := by
  simp only [pop, hlast]

theorem placed_pop (hp : Placed h) : Placed h.pop := by
  rcases hlast : h.entries.getLast? with _ | last
  · simpa only [pop, hlast] using hp
  rw [pop_eq hlast]
  have hend : h.entries[h.entries.length - 1]? = some last := by
    grind
  constructor
  · intro i e he
    rw [List.getElem?_dropLast] at he
    split_ifs at he with hi
    have hkey : e.1 ≠ last.1 := fun hkey => hi.ne (hp.position_unique he hend hkey)
    rw [Table.get?_erase_of_ne hkey]
    exact hp.stored i e he
  · intro k i hi
    rcases eq_or_ne k last.1 with rfl | hkey
    · simp_all
    · rw [Table.get?_erase_of_ne hkey] at hi
      obtain ⟨p, hentry⟩ := hp.entry k i hi
      grind

theorem perm_pop (hlast : h.entries.getLast? = some e) : (e :: h.pop.entries).Perm h.entries := by
  rw [pop_eq hlast]
  conv_rhs => rw [← List.dropLast_append_getLast? e hlast]
  exact (List.perm_append_singleton _ _).symm

theorem ordered_pop (ho : HeapOrder (h.rankAt rank) (h.entries.length - 1)) :
    h.pop.Ordered rank := by
  rcases hlast : h.entries.getLast? with _ | last
  · rw [List.getLast?_eq_none_iff] at hlast
    intro c _ hc
    simp [pop, hlast] at hc
  rw [pop_eq hlast]
  intro c hpos hc
  rw [List.length_dropLast] at hc
  have hbelow := ho c hpos hc
  grind [rankAt]

/-- **Removing the entry at a position** keeps the heap valid, and removes that entry. -/
theorem remove_spec (hv : Valid rank h) (he : h.entries[i]? = some e) :
    Valid rank (h.remove rank i) ∧ (e :: (h.remove rank i).entries).Perm h.entries := by
  have hi := (List.getElem?_eq_some_iff.mp he).1
  unfold remove
  split
  · have hend : h.entries.getLast? = some e := by
      grind
    exact ⟨⟨placed_pop hv.placed, ordered_pop (hv.ordered.mono (Nat.sub_le _ _))⟩,
      perm_pop hend⟩
  · have hswap := placed_swap hv.placed i (h.entries.length - 1)
    obtain ⟨hplaced, hperm⟩ := settle_kept rank hswap i (h.entries.length - 1)
    have hlength := hperm.length_eq
    rw [length_swap] at hlength
    have hend : ((h.swap i (h.entries.length - 1)).settle rank i
        (h.entries.length - 1)).entries.getLast? = some e := by
      rw [List.getLast?_eq_getElem?, hlength, getElem?_settle hswap (by omega)
        (by rw [length_swap]; omega) le_rfl, getElem?_swap hi (by omega), Equiv.swap_apply_right]
      exact he
    have hhole : DownHole ((h.swap i (h.entries.length - 1)).rankAt rank)
        (h.entries.length - 1) i := by
      rw [rankAt_swap hi (by omega)]
      refine (hv.ordered.mono (Nat.sub_le _ 1)).downHole (fun c hc hne => ?_) (by omega)
      grind
    refine ⟨⟨placed_pop hplaced, ordered_pop ?_⟩,
      (perm_pop hend).trans (hperm.trans (perm_swap _ _ h))⟩
    grind [heapOrder_settle, length_swap]

theorem mem_remove (hv : Valid rank h) (he : h.entries[i]? = some e) {e' : K × P} :
    e' ∈ (h.remove rank i).entries ↔ e' ∈ h.entries ∧ e'.1 ≠ e.1 := by
  obtain ⟨-, hperm⟩ := remove_spec hv he
  have hnodup := (hperm.map Prod.fst).nodup_iff.mpr hv.placed.nodup_keys
  grind

/-! ## Another priority -/

theorem getElem?_setPriority (key : K) (priority : P) (h : Heap K P) (i : ℕ) :
    (h.setPriority key priority).entries[i]? =
      h.entries[i]?.map fun e => if e.1 = key then (key, priority) else e :=
  List.getElem?_map

theorem placed_setPriority (hp : Placed h) (key : K) (priority : P) :
    Placed (h.setPriority key priority) := by
  constructor
  · intro i e he
    rw [getElem?_setPriority, Option.map_eq_some_iff] at he
    obtain ⟨old, hold, rfl⟩ := he
    have hkey : (if old.1 = key then (key, priority) else old).1 = old.1 := by
      grind
    rw [hkey]
    exact hp.stored i old hold
  · intro k i hi
    obtain ⟨p, hentry⟩ := hp.entry k i hi
    grind [getElem?_setPriority]

/-- **Giving an entry another priority** and letting it settle keeps the heap valid. -/
theorem reprioritize_spec (hv : Valid rank h) (hi : h.position.get? key = some i) (priority : P) :
    Valid rank ((h.setPriority key priority).fix rank i) ∧
      ∀ e, e ∈ ((h.setPriority key priority).fix rank i).entries ↔
        e = (key, priority) ∨ e ∈ h.entries ∧ e.1 ≠ key := by
  obtain ⟨p, hentry⟩ := hv.placed.entry key i hi
  have hlt := (List.getElem?_eq_some_iff.mp hentry).1
  have hlength : (h.setPriority key priority).entries.length = h.entries.length :=
    List.length_map _
  obtain ⟨hplaced, hperm⟩ :=
    settle_kept rank (placed_setPriority hv.placed key priority) i
      (h.setPriority key priority).entries.length
  have hhole : DownHole ((h.setPriority key priority).rankAt rank) h.entries.length i := by
    refine hv.ordered.downHole (fun c hc hne => ?_) hlt
    have hc' := List.getElem?_eq_getElem hc
    have hkey : (h.entries[c]).1 ≠ key := fun hkey =>
      hne (hv.placed.position_unique hc' hentry hkey)
    grind [rankAt, getElem?_setPriority]
  refine ⟨⟨hplaced, ?_⟩, fun e => ?_⟩
  · unfold Ordered fix
    grind [List.Perm.length_eq, heapOrder_settle]
  · unfold fix
    rw [hperm.mem_iff]
    grind [setPriority]

end Heap

end Library
