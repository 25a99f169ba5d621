import SshMobile.Library.Heap
import SshMobile.Server.CredentialFence

/-!
# Proof nonces

Every signed request of a device carries a nonce. The memory store remembers the nonces it has
seen, per device, until the request they belong to can no longer be fresh; a heap with one entry
per device knows which device has the nonce that expires first. Consuming a nonce first drops
expired nonces: of up to eight devices in the order of the heap, and of the device itself.

## Main definitions

* `ProofNonces`, `ProofNonces.consumeNonce`: the nonces of all devices, and the consumption of one
* `NonceIndex`: the heap has exactly one entry for each device that holds nonces, with the earliest
  expiry of the device
* `proofMachine`: any run of `authenticatedRequest` and `refresh` with enrollments, revocations and
  cleanup between them

## Main results

* `consumeNonce_spec`: what consuming a nonce does and returns
* `proofs_accepted_once`: no proof is accepted twice, and the nonces stay indexed and bounded
-/

namespace SshMobile.Server

open Library

def maxProofNoncesPerDevice : ℕ := 128
def maxProofNoncePrunesPerConsume : ℕ := 8

/-- The earlier expiry first, and the smaller device name among equal ones. -/
def nonceRank (entry : String × ℕ) : ℕ ×ₗ String := toLex (entry.2, entry.1)

/-- The nonces of each device with their expiry, and the heap over devices. -/
structure ProofNonces where
  proofNonces : Table String (Table String ℕ)
  proofNonceExpiries : Heap String ℕ

namespace ProofNonces

def empty : ProofNonces := ⟨∅, ∅⟩

/-- The expiry of a nonce the store holds. -/
def nonceAt (s : ProofNonces) (deviceId nonce : String) : Option ℕ :=
  (s.proofNonces.get? deviceId).bind fun nonces => nonces.get? nonce

/-- The nonces of a device; an absent map is empty. -/
def noncesOf (s : ProofNonces) (deviceId : String) : Table String ℕ :=
  (s.proofNonces.get? deviceId).getD ∅

/-- `trackProofNonceExpiryLocked`. -/
def track (s : ProofNonces) (deviceId : String) (expiresAt : ℕ) : ProofNonces :=
  match s.proofNonceExpiries.priority? deviceId,
    s.proofNonceExpiries.position.get? deviceId with
  | some earliest, some index =>
    if expiresAt < earliest then
      { s with
        proofNonceExpiries :=
          (s.proofNonceExpiries.setPriority deviceId expiresAt).fix nonceRank index }
    else s
  | _, _ =>
    { s with proofNonceExpiries := s.proofNonceExpiries.push nonceRank deviceId expiresAt }

/-- `pruneProofNonceDeviceLocked`: drops the expired nonces of a device, if its earliest one has
expired, and indexes the next one. -/
def pruneDevice (s : ProofNonces) (deviceId : String) (now : ℕ) : ProofNonces × Bool :=
  match s.proofNonceExpiries.priority? deviceId,
    s.proofNonceExpiries.position.get? deviceId with
  | some earliest, some index =>
    if now ≤ earliest then (s, false)
    else
      let live := (s.noncesOf deviceId).retain fun _ expiry => decide (now ≤ expiry)
      match (live.toList.map Prod.snd).min? with
      | none =>
        (⟨s.proofNonces.erase deviceId, s.proofNonceExpiries.remove nonceRank index⟩, true)
      | some next =>
        (⟨s.proofNonces.insert deviceId live,
          (s.proofNonceExpiries.remove nonceRank index).push nonceRank deviceId next⟩, true)
  | _, _ => (s, false)

/-- `pruneExpiredProofNoncesLocked`: at most `budget` devices, in the order of the heap. -/
def pruneExpired (now : ℕ) : ℕ → ProofNonces → ProofNonces
  | 0, s => s
  | budget + 1, s =>
    match s.proofNonceExpiries.entries.head? with
    | none => s
    | some (deviceId, earliest) =>
      if now ≤ earliest then s
      else
        match s.pruneDevice deviceId now with
        | (s, true) => pruneExpired now budget s
        | (s, false) => s

/-- The store after its cleanup for a consumption of the device. -/
def cleaned (s : ProofNonces) (deviceId : String) (now : ℕ) : ProofNonces :=
  ((pruneExpired now maxProofNoncePrunesPerConsume s).pruneDevice deviceId now).1

def record (s : ProofNonces) (deviceId nonce : String) (expiresAt : ℕ) : ProofNonces :=
  track
    { s with
      proofNonces :=
        s.proofNonces.insert deviceId ((s.noncesOf deviceId).insert nonce expiresAt) }
    deviceId expiresAt

/-- **`ConsumeNonce`**: returns whether the nonce counts as replayed, which it also does when its
window is over or the device holds too many nonces. -/
def consumeNonce (s : ProofNonces) (deviceId nonce : String) (expiresAt now : ℕ) :
    ProofNonces × Bool :=
  let s := s.cleaned deviceId now
  if expiresAt ≤ now then (s, true)
  else if (s.noncesOf deviceId).contains nonce then (s, true)
  else if maxProofNoncesPerDevice ≤ (s.noncesOf deviceId).size then (s, true)
  else (s.record deviceId nonce expiresAt, false)

end ProofNonces

/-! ## The index -/

/-- The earliest expiry of a map of nonces. -/
structure Earliest (nonces : Table String ℕ) (expiry : ℕ) : Prop where
  held : ∃ nonce, nonces.get? nonce = some expiry
  least : ∀ nonce other, nonces.get? nonce = some other → expiry ≤ other

/-- **The heap indexes the nonces**: it is valid, it has exactly one entry for each device that
holds nonces, with the earliest expiry of the device, and no device holds too many. -/
structure NonceIndex (s : ProofNonces) : Prop where
  valid : s.proofNonceExpiries.Valid nonceRank
  indexed : ∀ deviceId expiry, (deviceId, expiry) ∈ s.proofNonceExpiries.entries ↔
    ∃ nonces, s.proofNonces.get? deviceId = some nonces ∧ Earliest nonces expiry
  nonempty : ∀ deviceId nonces, s.proofNonces.get? deviceId = some nonces →
    ∃ expiry, Earliest nonces expiry
  bounded : ∀ deviceId, (s.noncesOf deviceId).size ≤ maxProofNoncesPerDevice

open ProofNonces

section Index

variable {s : ProofNonces} {deviceId nonce : String} {now expiry : ℕ}

variable {nonces : Table String ℕ}

theorem Earliest.unique {expiry' : ℕ}
    (h : Earliest nonces expiry) (h' : Earliest nonces expiry') : expiry = expiry' := by
  obtain ⟨nonce, hnonce⟩ := h.held
  obtain ⟨nonce', hnonce'⟩ := h'.held
  exact le_antisymm (h.least nonce' _ hnonce') (h'.least nonce _ hnonce)

theorem earliest_iff_min? :
    Earliest nonces expiry ↔ (nonces.toList.map Prod.snd).min? = some expiry := by
  rw [List.min?_eq_some_iff]
  constructor
  · rintro ⟨⟨nonce, hnonce⟩, hleast⟩
    refine ⟨List.mem_map.mpr ⟨(nonce, expiry), Table.mem_toList.mpr hnonce, rfl⟩, ?_⟩
    grind
  · rintro ⟨hmem, hleast⟩
    obtain ⟨⟨nonce, _⟩, hentry, rfl⟩ := List.mem_map.mp hmem
    refine ⟨⟨nonce, Table.mem_toList.mp hentry⟩, fun nonce' other hother => ?_⟩
    exact hleast other (List.mem_map.mpr ⟨(nonce', other), Table.mem_toList.mpr hother, rfl⟩)

theorem get?_noncesOf (s : ProofNonces) (deviceId nonce : String) :
    (s.noncesOf deviceId).get? nonce = s.nonceAt deviceId nonce := by
  unfold noncesOf nonceAt
  cases s.proofNonces.get? deviceId <;> rfl

theorem nonceIndex_empty : NonceIndex .empty where
  valid := Heap.valid_empty nonceRank
  indexed deviceId expiry := by
    constructor
    · intro hmem
      cases hmem
    · rintro ⟨nonces, hnonces, -⟩
      cases hnonces
  nonempty deviceId nonces hnonces := by cases hnonces
  bounded deviceId := Nat.zero_le _

/-- The entry of a device in the heap, with its stored position. -/
theorem NonceIndex.entry_cases (h : NonceIndex s) (deviceId : String) :
    (s.proofNonceExpiries.priority? deviceId = none ∧
        s.proofNonceExpiries.position.get? deviceId = none ∧
        s.proofNonces.get? deviceId = none) ∨
      ∃ earliest index nonces, s.proofNonceExpiries.priority? deviceId = some earliest ∧
        s.proofNonceExpiries.position.get? deviceId = some index ∧
        s.proofNonceExpiries.entries[index]? = some (deviceId, earliest) ∧
        s.proofNonces.get? deviceId = some nonces ∧ Earliest nonces earliest := by
  rcases hpriority : s.proofNonceExpiries.priority? deviceId with _ | earliest
  · have hnone := Heap.priority?_eq_none_iff.mp hpriority
    refine .inl ⟨rfl, ?_, ?_⟩
    · by_contra hsome
      obtain ⟨index, hindex⟩ := Option.ne_none_iff_exists'.mp hsome
      obtain ⟨p, hmem⟩ := h.valid.placed.position_isSome.mp ⟨index, hindex⟩
      exact hnone p hmem
    · by_contra hsome
      obtain ⟨nonces, hnonces⟩ := Option.ne_none_iff_exists'.mp hsome
      obtain ⟨earliest, hearliest⟩ := h.nonempty deviceId nonces hnonces
      exact hnone earliest ((h.indexed deviceId earliest).mpr ⟨nonces, hnonces, hearliest⟩)
  · have hmem := Heap.mem_of_priority?_eq_some hpriority
    obtain ⟨nonces, hnonces, hearliest⟩ := (h.indexed deviceId earliest).mp hmem
    obtain ⟨index, hindex⟩ := List.mem_iff_getElem?.mp hmem
    exact .inr ⟨earliest, index, nonces, rfl, h.valid.placed.stored index _ hindex, hindex,
      hnonces, hearliest⟩

variable {earliest : ℕ}

theorem ne_of_entries_remove {index : ℕ} (h : NonceIndex s)
    (hindex : s.proofNonceExpiries.entries[index]? = some (deviceId, earliest)) :
    (s.proofNonceExpiries.remove nonceRank index).position.get? deviceId = none := by
  by_contra hsome
  obtain ⟨position, hposition⟩ := Option.ne_none_iff_exists'.mp hsome
  obtain ⟨p, hmem⟩ := (Heap.remove_spec h.valid hindex).1.placed.position_isSome.mp
    ⟨position, hposition⟩
  exact ((Heap.mem_remove h.valid hindex).mp hmem).2 rfl

/-- Another map of nonces for one device, and another entry for it in the heap. -/
theorem nonceIndex_update {t : Table String (Table String ℕ)} {heap : Heap String ℕ}
    (h : NonceIndex s) (hvalid : heap.Valid nonceRank)
    (ht : ∀ d, t.get? d = if d = deviceId then some nonces else s.proofNonces.get? d)
    (hmem : ∀ d e, (d, e) ∈ heap.entries ↔
      d = deviceId ∧ e = expiry ∨ d ≠ deviceId ∧ (d, e) ∈ s.proofNonceExpiries.entries)
    (hearliest : Earliest nonces expiry) (hsize : nonces.size ≤ maxProofNoncesPerDevice) :
    NonceIndex ⟨t, heap⟩ where
  valid := hvalid
  indexed d e := by
    rw [hmem]
    rw [ht]
    rcases eq_or_ne d deviceId with rfl | hne
    · simp only [if_true, true_and, ne_eq, not_true, false_and, or_false, Option.some.injEq,
        exists_eq_left']
      exact ⟨fun he => he ▸ hearliest, fun he => he.unique hearliest⟩
    · simp only [hne, false_and, false_or, ne_eq, not_false_eq_true, true_and, if_false]
      exact h.indexed d e
  nonempty d found hfound := by
    rw [ht] at hfound
    split at hfound
    · grind
    · exact h.nonempty d found hfound
  bounded d := by
    have hbound := h.bounded d
    grind [noncesOf]

/-- A device's nonces go, and its entry with them. -/
theorem nonceIndex_remove {index : ℕ} (h : NonceIndex s)
    (hindex : s.proofNonceExpiries.entries[index]? = some (deviceId, earliest)) :
    NonceIndex
      ⟨s.proofNonces.erase deviceId, s.proofNonceExpiries.remove nonceRank index⟩ where
  valid := (Heap.remove_spec h.valid hindex).1
  indexed d e := by
    rw [Heap.mem_remove h.valid hindex]
    rw [Table.get?_erase]
    rcases eq_or_ne d deviceId with rfl | hne
    · simp
    · simp only [ne_eq, hne, not_false_eq_true, and_true, if_false]
      exact h.indexed d e
  nonempty d found hfound := by
    rw [Table.get?_erase] at hfound
    split at hfound
    · cases hfound
    · exact h.nonempty d found hfound
  bounded d := by
    have hbound := h.bounded d
    unfold noncesOf at hbound ⊢
    rw [Table.get?_erase]
    split
    · exact Nat.zero_le _
    · exact hbound

/-- The live nonces of a device. -/
theorem get?_live (s : ProofNonces) (deviceId nonce : String) (now : ℕ) :
    ((s.noncesOf deviceId).retain fun _ expiry => decide (now ≤ expiry)).get? nonce =
      (s.nonceAt deviceId nonce).filter (now ≤ ·) := by
  rw [Table.get?_retain, get?_noncesOf]

/-! ## Pruning -/

/-- **Pruning a device** keeps the nonces indexed, and drops exactly its expired nonces. -/
theorem pruneDevice_spec (h : NonceIndex s) (deviceId : String) (now : ℕ) :
    NonceIndex (s.pruneDevice deviceId now).1 ∧
      ∀ d nonce, (s.pruneDevice deviceId now).1.nonceAt d nonce =
        if d = deviceId then (s.nonceAt d nonce).filter (now ≤ ·) else s.nonceAt d nonce := by
  rcases h.entry_cases deviceId with ⟨hpriority, hposition, hnone⟩ |
    ⟨earliest, index, nonces, hpriority, hposition, hindex, hnonces, hearliest⟩
  · grind [pruneDevice, nonceAt]
  simp only [pruneDevice, hpriority, hposition]
  split
  · rename_i hlive
    refine ⟨h, fun d nonce => ?_⟩
    split
    · rename_i hd
      rw [hd, nonceAt, hnonces, Option.bind_some]
      rcases he : nonces.get? nonce with _ | e
      · rfl
      · have hle : now ≤ e := hlive.trans (hearliest.least nonce e he)
        simp [Option.filter, hle]
    · rfl
  -- The next expiry is that of the nonces that are left, if any are.
  have hlive := fun nonce => get?_live s deviceId nonce now
  have hsize : ((s.noncesOf deviceId).retain fun _ expiry => decide (now ≤ expiry)).size ≤
      maxProofNoncesPerDevice := (Table.size_retain_le _ _).trans (h.bounded deviceId)
  generalize (s.noncesOf deviceId).retain (fun _ expiry => decide (now ≤ expiry)) = live
    at hlive hsize ⊢
  rcases hmin : (live.toList.map Prod.snd).min? with _ | next
  · refine ⟨nonceIndex_remove h hindex, fun d nonce => ?_⟩
    have hnil : live.toList = [] := List.map_eq_nil_iff.mp (List.min?_eq_none_iff.mp hmin)
    have hgone : live.get? nonce = none := by
      by_contra hsome
      obtain ⟨e, he⟩ := Option.ne_none_iff_exists'.mp hsome
      have hentry := Table.mem_toList.mpr he
      rw [hnil] at hentry
      cases hentry
    grind [ProofNonces.nonceAt]
  · have hnext := earliest_iff_min?.mpr hmin
    have hnew := ne_of_entries_remove h hindex
    obtain ⟨hvalid, -⟩ := Heap.remove_spec h.valid hindex
    refine ⟨?_, fun d nonce => ?_⟩
    · refine nonceIndex_update h (Heap.valid_push hvalid hnew next)
        (fun d => Table.get?_insert _ _ _ _) (fun d e => ?_) hnext hsize
      grind [Heap.mem_push, Heap.Valid.placed, Heap.mem_remove, NonceIndex.valid]
    · grind [ProofNonces.nonceAt]

/-- Only expired nonces have gone. -/
def Pruned (now : ℕ) (s s' : ProofNonces) : Prop :=
  ∀ deviceId nonce, s'.nonceAt deviceId nonce = s.nonceAt deviceId nonce ∨
    s'.nonceAt deviceId nonce = none ∧
      ∃ expiry, s.nonceAt deviceId nonce = some expiry ∧ expiry < now

theorem Pruned.refl (now : ℕ) (s : ProofNonces) : Pruned now s s := fun _ _ => .inl rfl

theorem Pruned.trans {s' s'' : ProofNonces} (h : Pruned now s s') (h' : Pruned now s' s'') :
    Pruned now s s'' := by
  grind [Pruned]

theorem pruned_pruneDevice (h : NonceIndex s) (deviceId : String) (now : ℕ) :
    Pruned now s (s.pruneDevice deviceId now).1 := by
  intro d nonce
  rw [(pruneDevice_spec h deviceId now).2]
  split
  · rcases s.nonceAt d nonce with _ | expiry
    · exact .inl rfl
    · grind
  · exact .inl rfl

theorem pruneExpired_spec (h : NonceIndex s) (now budget : ℕ) :
    NonceIndex (s.pruneExpired now budget) ∧ Pruned now s (s.pruneExpired now budget) := by
  induction budget generalizing s with
  | zero => exact ⟨h, Pruned.refl now s⟩
  | succ budget ih =>
    rw [pruneExpired]
    split
    · exact ⟨h, Pruned.refl now s⟩
    · rename_i deviceId earliest _
      split
      · exact ⟨h, Pruned.refl now s⟩
      · have hindex := (pruneDevice_spec h deviceId now).1
        have hpruned := pruned_pruneDevice h deviceId now
        generalize s.pruneDevice deviceId now = result at hindex hpruned
        rcases result with ⟨s', _ | _⟩
        · exact ⟨hindex, hpruned⟩
        · exact ⟨(ih hindex).1, hpruned.trans (ih hindex).2⟩

/-- The cleanup before a consumption: only expired nonces go, and of the device itself all. -/
theorem cleaned_spec (h : NonceIndex s) (deviceId : String) (now : ℕ) :
    NonceIndex (s.cleaned deviceId now) ∧ Pruned now s (s.cleaned deviceId now) ∧
      ∀ nonce, (s.cleaned deviceId now).nonceAt deviceId nonce =
        (s.nonceAt deviceId nonce).filter (now ≤ ·) := by
  obtain ⟨hindex, hpruned⟩ := pruneExpired_spec h now maxProofNoncePrunesPerConsume
  refine ⟨(pruneDevice_spec hindex deviceId now).1,
    hpruned.trans (pruned_pruneDevice hindex deviceId now), fun nonce => ?_⟩
  rw [cleaned, (pruneDevice_spec hindex deviceId now).2, if_pos rfl]
  rcases hpruned deviceId nonce with heq | ⟨hnone, expiry, hexpiry, hlt⟩
  · rw [heq]
  · rw [hnone, hexpiry]
    simp [Option.filter, hlt]

/-! ## Recording -/

theorem earliest_insert_of_none (hnone : nonces = ∅) :
    Earliest (nonces.insert nonce expiry) expiry := by
  subst hnone
  refine ⟨⟨nonce, Table.get?_insert_self _ _ _⟩, fun other e he => ?_⟩
  grind

theorem earliest_insert (h : Earliest nonces earliest) (hnew : nonces.get? nonce = none) :
    Earliest (nonces.insert nonce expiry) (min earliest expiry) := by
  constructor
  · rcases le_total earliest expiry with hle | hle
    · obtain ⟨holder, hholder⟩ := h.held
      have hne : holder ≠ nonce := by
        grind
      exact ⟨holder, by grind⟩
    · grind [Table.get?_insert_self]
  · intro other e he
    rw [Table.get?_insert] at he
    split at he
    · cases he
      exact min_le_right _ _
    · exact (min_le_left _ _).trans (h.least other e he)

/-- **Recording a new nonce** keeps the nonces indexed and changes nothing else. -/
theorem record_spec (h : NonceIndex s) (hnew : s.nonceAt deviceId nonce = none)
    (hroom : (s.noncesOf deviceId).size < maxProofNoncesPerDevice) (expiry : ℕ) :
    NonceIndex (s.record deviceId nonce expiry) ∧
      ∀ d other, (s.record deviceId nonce expiry).nonceAt d other =
        if d = deviceId ∧ other = nonce then some expiry else s.nonceAt d other := by
  have hnew' : (s.noncesOf deviceId).get? nonce = none := by rw [get?_noncesOf, hnew]
  have hsize : ((s.noncesOf deviceId).insert nonce expiry).size ≤ maxProofNoncesPerDevice := by
    rw [Table.size_insert_of_none hnew']
    exact hroom
  have hlookup : ∀ heap : Heap String ℕ, ∀ d other,
      nonceAt ⟨s.proofNonces.insert deviceId
        ((s.noncesOf deviceId).insert nonce expiry), heap⟩ d other =
        if d = deviceId ∧ other = nonce then some expiry else s.nonceAt d other := by
    grind [nonceAt, get?_noncesOf]
  unfold record track
  rcases h.entry_cases deviceId with ⟨hpriority, hposition, hnone⟩ |
    ⟨earliest, index, nonces, hpriority, hposition, hindex, hnonces, hearliest⟩
  · simp only [hpriority, hposition]
    have hempty : s.noncesOf deviceId = ∅ := by rw [noncesOf, hnone]; rfl
    refine ⟨nonceIndex_update h (Heap.valid_push h.valid hposition expiry)
      (fun d => Table.get?_insert _ _ _ _) (fun d e => ?_) (earliest_insert_of_none hempty) hsize,
      hlookup _⟩
    rw [Heap.mem_push h.valid.placed hposition, Prod.mk.injEq]
    grind [Heap.priority?_eq_none_iff]
  simp only [hpriority, hposition]
  have hof : s.noncesOf deviceId = nonces := by rw [noncesOf, hnonces]; rfl
  have hmin : Earliest ((s.noncesOf deviceId).insert nonce expiry) (min earliest expiry) :=
    earliest_insert (hof ▸ hearliest) hnew'
  split
  · rename_i hlt
    rw [min_eq_right hlt.le] at hmin
    obtain ⟨hvalid, hmem⟩ := Heap.reprioritize_spec h.valid hposition expiry
    refine ⟨nonceIndex_update h hvalid (fun d => Table.get?_insert _ _ _ _) (fun d e => ?_) hmin
      hsize, hlookup _⟩
    grind
  · rename_i hle
    rw [min_eq_left (not_lt.mp hle)] at hmin
    refine ⟨nonceIndex_update h h.valid (fun d => Table.get?_insert _ _ _ _) (fun d e => ?_) hmin
      hsize, hlookup _⟩
    constructor
    · intro hmem
      rcases eq_or_ne d deviceId with rfl | hne
      · exact .inl ⟨rfl, h.valid.placed.priority_unique hmem
          (Heap.mem_of_priority?_eq_some hpriority)⟩
      · exact .inr ⟨hne, hmem⟩
    · grind

/-! ## Consuming -/

/-- **What consuming a nonce returns**: it counts as replayed if its window is over, if the device
still holds it, or if the device holds too many nonces that are live. -/
theorem consumeNonce_replayed (h : NonceIndex s) (deviceId nonce : String) (expiry now : ℕ) :
    (s.consumeNonce deviceId nonce expiry now).2 = true ↔
      expiry ≤ now ∨ ((s.nonceAt deviceId nonce).filter (now ≤ ·)).isSome ∨
        maxProofNoncesPerDevice ≤ ((s.cleaned deviceId now).noncesOf deviceId).size := by
  grind [cleaned_spec, get?_noncesOf, consumeNonce]

/-- **What consuming a nonce leaves**: the nonces stay indexed; apart from a nonce that is
recorded, only expired nonces go. -/
theorem consumeNonce_spec (h : NonceIndex s) (deviceId nonce : String) (expiry now : ℕ) :
    ∃ cleaned, NonceIndex cleaned ∧ Pruned now s cleaned ∧
      NonceIndex (s.consumeNonce deviceId nonce expiry now).1 ∧
      ∀ d other, (s.consumeNonce deviceId nonce expiry now).1.nonceAt d other =
        if (s.consumeNonce deviceId nonce expiry now).2 = false ∧ d = deviceId ∧ other = nonce
        then some expiry else cleaned.nonceAt d other := by
  obtain ⟨hindex, hpruned, -⟩ := cleaned_spec h deviceId now
  refine ⟨s.cleaned deviceId now, hindex, hpruned, ?_⟩
  unfold consumeNonce
  dsimp only
  split_ifs with hover hheld hfull
  · exact ⟨hindex, fun d other => by simp⟩
  · exact ⟨hindex, fun d other => by simp⟩
  · exact ⟨hindex, fun d other => by simp⟩
  · have hnew : (s.cleaned deviceId now).nonceAt deviceId nonce = none := by
      rw [← get?_noncesOf]
      exact Table.contains_eq_false.mp (Bool.not_eq_true _ ▸ hheld)
    obtain ⟨hrecorded, hlookup⟩ := record_spec hindex hnew (not_le.mp hfull) expiry
    exact ⟨hrecorded, fun d other => by simp only [hlookup, true_and]⟩

end Index

/-! ## Requests -/

def refreshProofFreshness : ℕ := 300 * second
def refreshNonceSlack : ℕ := second

/-- Both ends of the window are fresh. -/
def refreshProofTimestampIsFresh (timestamp : ℤ) (now : ℕ) : Bool :=
  let windowSeconds : ℤ := (refreshProofFreshness / second : ℕ)
  let nowSeconds : ℤ := (unixSeconds now : ℕ)
  decide (nowSeconds - windowSeconds ≤ timestamp) && decide (timestamp ≤ nowSeconds + windowSeconds)

/-- Until when the nonce of a proof is kept. -/
def nonceExpiresAt (timestamp : ℤ) : ℕ :=
  (timestamp * second + refreshProofFreshness + refreshNonceSlack).toNat

def authenticatedProofPayload (method path : String) (timestamp : ℤ) (nonce : String) : String :=
  method ++ "\n" ++ path ++ "\n" ++ toString timestamp ++ "\n" ++ nonce

def refreshProofPayloadForPath (path : String) (timestamp : ℤ) (nonce : String) : String :=
  "POST\n" ++ path ++ "\n" ++ toString timestamp ++ "\n" ++ nonce

def pathRefreshV2 : String := "/v2/devices/refresh"

/-- The enrollment settings with the code over credentials, the signature check and the checks of
encodings, all arbitrary. -/
structure ProofConfig (Tag : Type) extends EnrollmentConfig where
  mac : CredentialClaims → Tag
  /-- The text encodes a public key. -/
  validKey : String → Bool
  /-- The text encodes 32 bytes. -/
  validNonce : String → Bool
  verifyDeviceProof : (publicKey payload signature : String) → Bool

/-- What a proof is told by: its device, its nonce and its timestamp. -/
structure DeviceProof where
  deviceId : String
  nonce : String
  timestamp : ℤ
deriving DecidableEq

/-- A request with a credential. Its timestamp is the canonical decimal of the header. -/
structure SignedRequest (Tag : Type) where
  credential : Credential Tag
  method : String
  path : String
  timestamp : ℤ
  nonce : String
  signature : String

structure RefreshRequest where
  deviceId : String
  publicKey : String
  timestamp : ℤ
  nonce : String
  signature : String
deriving DecidableEq

structure ProofState where
  enrollment : EnrollmentState
  nonces : ProofNonces

inductive ProofOutput
  | none
  | refused
  /-- The nonce of the proof was consumed and was not replayed. -/
  | accepted (proof : DeviceProof)
deriving DecidableEq

/-- The consumption of the nonce of a proof, now. -/
def ProofState.consume (s : ProofState) (proof : DeviceProof) : ProofState × Bool :=
  match s.nonces.consumeNonce proof.deviceId proof.nonce (nonceExpiresAt proof.timestamp)
      s.enrollment.clock with
  | (nonces, replayed) => ({ s with nonces }, replayed)

/-- The proof is accepted unless its nonce is replayed. -/
def ProofState.accept (s : ProofState) (proof : DeviceProof) : ProofState × ProofOutput :=
  match s.consume proof with
  | (s, true) => (s, .refused)
  | (s, false) => (s, .accepted proof)

section Steps

variable {Tag : Type} [DecidableEq Tag] (config : ProofConfig Tag)

/-- **`authenticatedRequest`**. The credential is verified and the freshness checked at earlier
readings of the clock; the rest runs under the lock of the device. -/
def authenticatedRequest (s : ProofState) (request : SignedRequest Tag) (verifiedAt now : ℕ) :
    ProofState × ProofOutput :=
  match verifyCredential config.mac config.validKey request.credential verifiedAt with
  | .error _ => (s, .refused)
  | .ok claims =>
    if request.timestamp ≤ 0 || !refreshProofTimestampIsFresh request.timestamp now then
      (s, .refused)
    else if !config.validNonce request.nonce then (s, .refused)
    else if !config.verifyDeviceProof claims.publicKey
        (authenticatedProofPayload request.method request.path request.timestamp request.nonce)
        request.signature then (s, .refused)
    else
      match s.enrollment.store.isRevoked claims.deviceId now with
      | (store, revoked) =>
        let s := { s with enrollment := { s.enrollment with store } }
        match store.enrolledDevices.get? claims.deviceId with
        | none => (s, .refused)
        | some device =>
          if revoked || !device.matchesClaims config.toEnrollmentConfig claims claims.publicKey then
            (s, .refused)
          else
            s.accept ⟨claims.deviceId, request.nonce, request.timestamp⟩

/-- The checks of a refresh that come before its nonce is consumed, under the lock. -/
def refreshProofDue (s : ProofState) (request : RefreshRequest) (now : ℕ) : Bool :=
  match s.enrollment.store.enrolledDevices.get? request.deviceId with
  | none => false
  | some device =>
    decide (device.protocolVersion = config.protocolVersion) &&
      !(s.enrollment.store.isRevoked request.deviceId now).2 &&
      decide (request.publicKey = device.publicKey) &&
      config.verifyDeviceProof device.publicKey
        (refreshProofPayloadForPath pathRefreshV2 request.timestamp request.nonce)
        request.signature

/-- **`refresh`**. A request that passes its checks consumes its nonce, and `refreshCredential`
goes on with the result. -/
def refresh (s : ProofState) (request : RefreshRequest) (now : ℕ) : ProofState × ProofOutput :=
  if request.deviceId = "" || decide (128 < request.deviceId.utf8ByteSize) then (s, .refused)
  else if !config.validKey request.publicKey || !config.validNonce request.nonce then
    (s, .refused)
  else if request.timestamp ≤ 0 || !refreshProofTimestampIsFresh request.timestamp now then
    (s, .refused)
  else if refreshProofDue config s request now then
    let proof := ⟨request.deviceId, request.nonce, request.timestamp⟩
    match s.consume proof with
    | (s, replayed) =>
      let enrollment := (refreshCredential config.toEnrollmentConfig s.enrollment request.deviceId
        request.publicKey now true replayed).1
      ({ s with enrollment }, if replayed then .refused else .accepted proof)
  else
    let enrollment := (refreshCredential config.toEnrollmentConfig s.enrollment request.deviceId
      request.publicKey now false false).1
    ({ s with enrollment }, .refused)

end Steps

inductive ProofOp (Tag : Type)
  /-- Time passes, a device enrolls or is revoked, tombstones are cleaned up. -/
  | enrollment (op : EnrollmentOp)
  | authenticate (request : SignedRequest Tag) (verifiedAt readAt : ℕ)
  | refresh (request : RefreshRequest) (readAt : ℕ)
  /-- A telemetry attestation that passed its checks; it consumes the nonce of its proof in the
  same store. -/
  | attest (proof : DeviceProof)

section Machine

variable {Tag : Type} [DecidableEq Tag] (config : ProofConfig Tag)

def proofStep (s : ProofState) : ProofOp Tag → ProofState × ProofOutput
  -- A refresh is not an operation of its own on the enrollments: it consumes a nonce.
  | .enrollment (.refresh _ _ _ _ _) => (s, .none)
  | .enrollment op =>
    ({ s with enrollment := (enrollmentStep config.toEnrollmentConfig s.enrollment op).1 }, .none)
  | .authenticate request verifiedAt readAt =>
    authenticatedRequest config s request (min verifiedAt s.enrollment.clock)
      (min readAt s.enrollment.clock)
  | .refresh request readAt => refresh config s request (min readAt s.enrollment.clock)
  | .attest proof => s.accept proof

/-- **Any run of requests**, with enrollments, revocations and cleanup between them, over an empty
store. -/
def proofMachine (clock : ℕ) : Machine ProofState (ProofOp Tag) ProofOutput where
  start := ⟨(enrollmentMachine config.toEnrollmentConfig clock).start, .empty⟩
  step := proofStep config

def ProofOutput.accepted? : ProofOutput → Option DeviceProof
  | .accepted proof => some proof
  | _ => Option.none

/-- The proofs that a transcript accepts, in order. -/
def acceptedProofs (history : List (ProofOp Tag × ProofOutput)) : List DeviceProof :=
  history.filterMap fun entry => entry.2.accepted?

/-! ## No proof twice -/

/-- The nonce of the proof is consumed at the clock, with this result. -/
def ProofState.Consumes (s : ProofState) (proof : DeviceProof) (nonces : ProofNonces)
    (replayed : Bool) : Prop :=
  s.nonces.consumeNonce proof.deviceId proof.nonce (nonceExpiresAt proof.timestamp)
    s.enrollment.clock = (nonces, replayed)

/-- **What a step does to the nonces**: nothing, or it consumes the nonce of one proof and accepts
the proof exactly when the nonce was not replayed. -/
inductive NonceStep (s s' : ProofState) (output : ProofOutput) : Prop
  | keeps (hclock : s.enrollment.clock ≤ s'.enrollment.clock) (hnonces : s'.nonces = s.nonces)
      (hnone : output.accepted? = none)
  | consumes (proof : DeviceProof) (replayed : Bool)
      (hclock : s.enrollment.clock ≤ s'.enrollment.clock)
      (hresult : s.Consumes proof s'.nonces replayed)
      (houtput : output.accepted? = if replayed then none else some proof)

theorem clock_refreshCredential (config : EnrollmentConfig) (s : EnrollmentState)
    (deviceId publicKey : String) (now : ℕ) (proof replayed : Bool) :
    (refreshCredential config s deviceId publicKey now proof replayed).1.clock = s.clock := by
  grind [refreshCredential]

theorem consume_eq {s : ProofState} {proof : DeviceProof} {nonces : ProofNonces} {replayed : Bool}
    (h : s.Consumes proof nonces replayed) : s.consume proof = ({ s with nonces }, replayed) := by
  unfold ProofState.consume
  rw [h]

theorem nonceStep_accept {s t : ProofState} (hnonces : t.nonces = s.nonces)
    (hclock : t.enrollment.clock = s.enrollment.clock) (proof : DeviceProof) :
    NonceStep s (t.accept proof).1 (t.accept proof).2 := by
  rcases hresult : s.nonces.consumeNonce proof.deviceId proof.nonce (nonceExpiresAt proof.timestamp)
    s.enrollment.clock with ⟨nonces, replayed⟩
  have hconsumes : t.Consumes proof nonces replayed := by
    grind [ProofState.Consumes]
  unfold ProofState.accept
  rw [consume_eq hconsumes]
  cases replayed
  · exact .consumes proof false hclock.ge hresult rfl
  · exact .consumes proof true hclock.ge hresult rfl

theorem nonceStep_authenticatedRequest (s : ProofState) (request : SignedRequest Tag)
    (verifiedAt now : ℕ) :
    NonceStep s (authenticatedRequest config s request verifiedAt now).1
      (authenticatedRequest config s request verifiedAt now).2 := by
  unfold authenticatedRequest
  split
  · exact .keeps le_rfl rfl rfl
  · split_ifs
    · exact .keeps le_rfl rfl rfl
    · exact .keeps le_rfl rfl rfl
    · exact .keeps le_rfl rfl rfl
    · dsimp only
      split
      · exact .keeps le_rfl rfl rfl
      · split_ifs
        · exact .keeps le_rfl rfl rfl
        · grind [nonceStep_accept]

omit [DecidableEq Tag] in
theorem nonceStep_refresh (s : ProofState) (request : RefreshRequest) (now : ℕ) :
    NonceStep s (refresh config s request now).1 (refresh config s request now).2 := by
  unfold refresh
  split_ifs
  · exact .keeps le_rfl rfl rfl
  · exact .keeps le_rfl rfl rfl
  · exact .keeps le_rfl rfl rfl
  · rcases hresult : s.nonces.consumeNonce request.deviceId request.nonce
      (nonceExpiresAt request.timestamp) s.enrollment.clock with ⟨nonces, replayed⟩
    have hconsumes : s.Consumes ⟨request.deviceId, request.nonce, request.timestamp⟩ nonces
      replayed := hresult
    dsimp only
    rw [consume_eq hconsumes]
    refine .consumes _ replayed (clock_refreshCredential _ _ _ _ _ _ _).ge hconsumes ?_
    cases replayed <;> rfl
  · exact .keeps (clock_refreshCredential _ _ _ _ _ _ _).ge rfl rfl

theorem nonceStep_step (s : ProofState) (op : ProofOp Tag) :
    NonceStep s (proofStep config s op).1 (proofStep config s op).2 := by
  cases op with
  | enrollment op =>
    cases op with
    | refresh => exact .keeps le_rfl rfl rfl
    | _ => exact .keeps (moves_step config.toEnrollmentConfig "" s.enrollment _).clock_le rfl rfl
  | authenticate request verifiedAt readAt =>
    exact nonceStep_authenticatedRequest config s request _ _
  | refresh request readAt => exact nonceStep_refresh config s request _
  | attest proof =>
    refine nonceStep_accept ?_ ?_ proof
    · rfl
    · rfl

/-- An accepted proof cannot pass again: its nonce is still held, or its window is over. -/
def Spent (s : ProofState) (proof : DeviceProof) : Prop :=
  s.nonces.nonceAt proof.deviceId proof.nonce = some (nonceExpiresAt proof.timestamp) ∨
    nonceExpiresAt proof.timestamp ≤ s.enrollment.clock

/-- Everything accepted is spent, nothing was accepted twice, and the nonces are indexed. -/
structure Replay (s : ProofState) (accepted : List DeviceProof) : Prop where
  index : NonceIndex s.nonces
  spent : ∀ proof ∈ accepted, Spent s proof
  once : accepted.Nodup

variable {s s' : ProofState} {proof other : DeviceProof} {nonces : ProofNonces} {replayed : Bool}

/-- The nonce of a spent proof is replayed. -/
theorem Spent.isReplayed (h : Spent s proof) (hindex : NonceIndex s.nonces)
    (hresult : s.Consumes proof nonces replayed) : replayed = true := by
  have hiff := consumeNonce_replayed hindex proof.deviceId proof.nonce
    (nonceExpiresAt proof.timestamp) s.enrollment.clock
  rw [hresult] at hiff
  refine hiff.mpr ?_
  rcases h with hheld | hover
  · rcases Nat.lt_or_ge s.enrollment.clock (nonceExpiresAt proof.timestamp) with hlt | hge
    · refine .inr (.inl ?_)
      rw [hheld]
      simp [Option.filter, hlt.le]
    · exact .inl hge
  · exact .inl hover

/-- Consuming a nonce leaves every spent proof spent. -/
theorem Spent.consume (h : Spent s proof) (hindex : NonceIndex s.nonces)
    (hresult : s.Consumes other s'.nonces replayed)
    (hclock : s.enrollment.clock ≤ s'.enrollment.clock) : Spent s' proof := by
  rcases h with hheld | hover
  · have hiff := consumeNonce_replayed hindex other.deviceId other.nonce
      (nonceExpiresAt other.timestamp) s.enrollment.clock
    obtain ⟨cleaned, -, hpruned, -, hlookup⟩ := consumeNonce_spec hindex other.deviceId other.nonce
      (nonceExpiresAt other.timestamp) s.enrollment.clock
    rw [hresult] at hiff hlookup
    rcases hpruned proof.deviceId proof.nonce with heq | ⟨-, expiry, hexpiry, hlt⟩
    · by_cases hsame : replayed = false ∧ proof.deviceId = other.deviceId ∧
          proof.nonce = other.nonce
      · -- The nonce was consumed anew although it is held: its window is over.
        refine .inr (le_trans ?_ hclock)
        by_contra hlive
        have hreplayed : replayed = true := by
          refine hiff.mpr (.inr (.inl ?_))
          rw [← hsame.2.1, ← hsame.2.2, hheld]
          simp [Option.filter, (not_le.mp hlive).le]
        rw [hsame.1] at hreplayed
        cases hreplayed
      · exact .inl ((hlookup proof.deviceId proof.nonce).trans (by rw [if_neg hsame, heq, hheld]))
    · rw [hheld, Option.some.injEq] at hexpiry
      exact .inr (hexpiry.le.trans (hlt.le.trans hclock))
  · exact .inr (hover.trans hclock)

theorem spent_of_consumed (hindex : NonceIndex s.nonces)
    (hresult : s.Consumes proof s'.nonces false) : Spent s' proof := by
  obtain ⟨cleaned, -, -, -, hlookup⟩ := consumeNonce_spec hindex proof.deviceId proof.nonce
    (nonceExpiresAt proof.timestamp) s.enrollment.clock
  grind [Spent, ProofState.Consumes]

theorem nonceIndex_of_consumes (hindex : NonceIndex s.nonces)
    (hresult : s.Consumes proof nonces replayed) : NonceIndex nonces := by
  obtain ⟨cleaned, -, -, hkept, -⟩ := consumeNonce_spec hindex proof.deviceId proof.nonce
    (nonceExpiresAt proof.timestamp) s.enrollment.clock
  rwa [hresult] at hkept

theorem replay_step {accepted : List DeviceProof} (h : Replay s accepted) (op : ProofOp Tag) :
    Replay (proofStep config s op).1
      (accepted ++ (proofStep config s op).2.accepted?.toList) := by
  have hstep := nonceStep_step config s op
  generalize proofStep config s op = result at hstep ⊢
  obtain ⟨s', output⟩ := result
  cases hstep with
  | keeps hclock hnonces hnone =>
    rw [hnone, Option.toList_none, List.append_nil]
    refine ⟨hnonces ▸ h.index, fun proof hproof => ?_, h.once⟩
    rcases h.spent proof hproof with hheld | hover
    · exact .inl (by rw [hnonces, hheld])
    · exact .inr (hover.trans hclock)
  | consumes proof replayed hclock hresult houtput =>
    have hindex := nonceIndex_of_consumes h.index hresult
    have hspent : ∀ p ∈ accepted, Spent s' p := fun p hp =>
      (h.spent p hp).consume h.index hresult hclock
    rw [houtput]
    cases replayed with
    | false =>
      refine ⟨hindex, fun p hp => ?_, ?_⟩
      · grind [spent_of_consumed, Replay.index, ProofState.Consumes]
      · -- A proof accepted before would have been replayed.
        refine List.nodup_append.mpr ⟨h.once, List.nodup_singleton proof, ?_⟩
        rintro p hp q hq rfl
        obtain rfl : p = proof := List.mem_singleton.mp hq
        cases (h.spent p hp).isReplayed h.index hresult
    | true =>
      refine ⟨hindex, fun p hp => hspent p ?_, ?_⟩
      · simpa using hp
      · simpa using h.once

theorem replay_run (clock : ℕ) (ops : List (ProofOp Tag)) :
    Replay ((proofMachine config clock).run ops)
      (acceptedProofs ((proofMachine config clock).transcript ops)) := by
  refine (proofMachine config clock).transcript_always
    (I := fun s history => Replay s (acceptedProofs history)) ?_ ?_ ops
  · exact ⟨nonceIndex_empty, fun _ hmem => absurd hmem List.not_mem_nil, List.nodup_nil⟩
  · intro s history op h
    have haccepted : acceptedProofs (history ++ [(op, (proofStep config s op).2)]) =
        acceptedProofs history ++ (proofStep config s op).2.accepted?.toList := by
      grind [acceptedProofs]
    exact haccepted ▸ replay_step config h op

/-- **Each signed proof is accepted at most once**, over any run of requests with enrollments,
revocations and cleanup between them: no proof passes twice. Every device holds at most 128 nonces,
and the heap has exactly one entry for each device that holds nonces, with its earliest expiry. -/
theorem proofs_accepted_once (clock : ℕ) (ops : List (ProofOp Tag)) :
    (acceptedProofs ((proofMachine config clock).transcript ops)).Nodup ∧
    (∀ deviceId, (((proofMachine config clock).run ops).nonces.noncesOf deviceId).size ≤
      maxProofNoncesPerDevice) ∧
    (((proofMachine config clock).run ops).nonces.proofNonceExpiries.entries.map Prod.fst).Nodup ∧
    (∀ deviceId expiry,
      (deviceId, expiry) ∈ ((proofMachine config clock).run ops).nonces.proofNonceExpiries.entries ↔
        Earliest (((proofMachine config clock).run ops).nonces.noncesOf deviceId) expiry) := by
  obtain ⟨hindex, -, honce⟩ := replay_run config clock ops
  refine ⟨honce, hindex.bounded, hindex.valid.placed.nodup_keys, fun deviceId expiry => ?_⟩
  rw [hindex.indexed, noncesOf]
  constructor
  · simp_all
  · intro hearliest
    rcases hnonces : ((proofMachine config clock).run ops).nonces.proofNonces.get? deviceId with
      _ | nonces
    · grind [Earliest.held]
    · simp_all

end Machine

/-- A proof signed at one second passes; presented again it is replayed while its nonce is held,
and later because its window is over. -/
example :
    ((proofMachine (⟨⟨second, 2, 10, 10, by decide⟩, fun _ => (), fun _ => true,
        fun _ => true, fun _ _ _ => true⟩ : ProofConfig Unit) second).transcript
      [.attest ⟨"device", "nonce", 1⟩, .attest ⟨"device", "nonce", 1⟩,
        .enrollment (.tick (302 * second)), .attest ⟨"other", "nonce", 300⟩,
        .attest ⟨"device", "nonce", 1⟩]).map Prod.snd =
      [.accepted ⟨"device", "nonce", 1⟩, .refused, .none, .accepted ⟨"other", "nonce", 300⟩,
        .refused] := by
  decide +kernel

end SshMobile.Server
