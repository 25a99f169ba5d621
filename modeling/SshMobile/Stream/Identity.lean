import SshMobile.Stream.Manager

/-!
# The identities of streams

A stream is known by its opener and its number, so a manager can have `maxRetiredStreamKeys` streams
over its life and not one more. A removed stream leaves its identity in the retired set. The
insertions look at the size of the set first; but a set that is full contains every identity, also
that of the stream which is being removed, and a stream that is open is not retired. So no look ever
keeps an identity out, and no identity is used twice.

## Main definitions

* `Identities`: what holds of a manager at any time
* `IdentitiesUsedOnce`: what holds of a run

## Main results

* `Identities.step`: every step of a manager keeps its identities
* `identities_used_once`: no run uses an identity twice
-/

namespace SshMobile.Stream

open Library

variable {L : Type}

/-! ## The number of identities -/

/-- An identity as a number. -/
def StreamKey.code (key : StreamKey) : ℕ :=
  match key.opener with
  | .local => key.streamId.toNat
  | .remote => 65536 + key.streamId.toNat

theorem StreamKey.code_lt (key : StreamKey) : key.code < maxRetiredStreamKeys := by
  grind [UInt16.toNat_lt, code, maxRetiredStreamKeys]

theorem StreamKey.code_injective : Function.Injective StreamKey.code := by
  rintro ⟨opener, streamId⟩ ⟨opener', streamId'⟩ h
  grind [UInt16.toNat_lt, code, UInt16.toNat_inj]

/-- **A full set** of identities contains every one. -/
theorem mem_of_card_le {keys : Finset StreamKey} (h : maxRetiredStreamKeys ≤ keys.card)
    (key : StreamKey) : key ∈ keys := by
  by_contra hkey
  have hsubset : (insert key keys).image StreamKey.code ⊆ Finset.range maxRetiredStreamKeys := by
    grind [StreamKey.code_lt]
  have hcard := Finset.card_le_card hsubset
  grind [Finset.card_image_of_injective, StreamKey.code_injective]

variable {m : StreamManager L} {key : StreamKey}

/-- A stream that is gone is retired: the other case of `Gone` is a full set. -/
theorem Gone.mem_retired (h : Gone m key) : key ∈ m.retired := by
  grind [mem_of_card_le, Gone]

/-! ## One step -/

/-- **The identities of a manager**: the retired ones are not open, and few are open. -/
structure Identities (m : StreamManager L) : Prop where
  retired_closed : ∀ key ∈ m.retired, m.streams.get? key = none
  open_le : m.streams.size ≤ maxConcurrentStreams

theorem identities_new : Identities (.new : StreamManager L) where
  retired_closed key hmem := absurd hmem (Finset.notMem_empty key)
  open_le := Nat.zero_le _

/-- A stream that is open leaves room for its identity. -/
theorem Identities.card_retired_lt (h : Identities m) {entry : StreamEntry L}
    (hentry : m.streams.get? key = some entry) : m.retired.card < maxRetiredStreamKeys := by
  by_contra hfull
  have hmem := mem_of_card_le (Nat.le_of_not_lt hfull) key
  rw [h.retired_closed key hmem] at hentry
  cases hentry

theorem mem_retired_of_retire {k : StreamKey} (h : key ∈ (m.retire k).retired) :
    key = k ∨ key ∈ m.retired := by
  grind [StreamManager.retire]

theorem mem_retired_of_foldl_retire {keys : List StreamKey}
    (h : key ∈ (keys.foldl StreamManager.retire m).retired) : key ∈ keys ∨ key ∈ m.retired := by
  induction keys generalizing m with
  | nil => exact .inr h
  | cons k keys ih =>
    grind [mem_retired_of_retire]

theorem size_put_of_some {entry entry' : StreamEntry L} (h : m.streams.get? key = some entry) :
    (m.put key entry').streams.size = m.streams.size :=
  Table.size_insert_of_some h

theorem size_retire_le (m : StreamManager L) (key : StreamKey) :
    (m.retire key).streams.size ≤ m.streams.size :=
  Table.size_erase_le key m.streams

theorem size_foldl_retire_le (m : StreamManager L) (keys : List StreamKey) :
    (keys.foldl StreamManager.retire m).streams.size ≤ m.streams.size := by
  induction keys generalizing m with
  | nil => exact le_refl _
  | cons k keys ih => grind [size_retire_le]

theorem Identities.put (h : Identities m) (hkey : key ∉ m.retired) (entry : StreamEntry L)
    (hsize : (m.put key entry).streams.size ≤ maxConcurrentStreams) :
    Identities (m.put key entry) where
  retired_closed k hmem := by
    have hne : k ≠ key := fun he => hkey (he ▸ hmem)
    rw [get?_put, if_neg hne]
    exact h.retired_closed k hmem
  open_le := hsize

/-- **Every step keeps the identities.** -/
theorem Identities.step (h : Identities m) (op : StreamOp L) : Identities (streamStep m op).1 := by
  have hmoves := streamStep_moves m op
  generalize (streamStep m op).1 = m' at hmoves ⊢
  cases hmoves with
  | rest => exact h
  | opened consumer hroom hnone hretired =>
    refine h.put hretired _ ?_
    rw [StreamManager.put, Table.size_insert_of_none hnone]
    exact hroom
  | @updated key entry entry' hentry =>
    refine h.put (fun hmem => ?_) _ ?_
    · rw [h.retired_closed key hmem] at hentry
      cases hentry
    · rw [size_put_of_some hentry]
      exact h.open_le
  | retired keys =>
    refine ⟨fun key hmem => ?_, (size_foldl_retire_le m keys).trans h.open_le⟩
    rw [get?_foldl_retire]
    rcases mem_retired_of_foldl_retire hmem with hkeys | hmem
    · exact if_pos hkeys
    · rw [h.retired_closed key hmem, ite_self]
  | cleared order => exact ⟨fun _ _ => rfl, Nat.zero_le _⟩

/-! ## Runs -/

theorem identities_run (ops : List (StreamOp L)) : Identities (streamMachine.run ops) :=
  streamMachine.run_always identities_new (fun _ op h => h.step op) ops

/-- A stream that was open at some time is open, or gone. -/
theorem open_or_gone (h : m.streams.contains key = true ∨ Gone m key) (op : StreamOp L) :
    (streamStep m op).1.streams.contains key = true ∨ Gone (streamStep m op).1 key := by
  rcases h with hopen | hgone
  · obtain ⟨e, he⟩ := Table.contains_eq_true.mp hopen
    have hchange := streamStep_change m key op
    rw [he] at hchange
    rcases hafter : (streamStep m op).1.streams.get? key with _ | e'
    · rw [hafter] at hchange
      cases hchange with
      | removed _ _ hremoves => exact .inr (gone_of_removed he hremoves)
    · simp_all
  · exact .inr (hgone.step op)

theorem open_or_gone_run (h : m.streams.contains key = true ∨ Gone m key)
    (ops : List (StreamOp L)) :
    (streamMachine.runFrom m ops).streams.contains key = true ∨
      Gone (streamMachine.runFrom m ops) key := by
  induction ops generalizing m with
  | nil => exact h
  | cons op ops ih => exact ih (open_or_gone h op)

theorem retains_run (m : StreamManager L) (ops : List (StreamOp L)) :
    Retains m (streamMachine.runFrom m ops) := by
  induction ops generalizing m with
  | nil => exact .refl m
  | cons op ops ih => exact (streamStep_retains m op).trans (ih _)

/-- `openStream` refuses a stream that is open or gone. -/
theorem openStream_refused (h : m.streams.contains key = true ∨ Gone m key) (service : String)
    (consumer : StreamConsumer) :
    ∃ error, (m.openStream key service consumer).2 = .error error := by
  rw [StreamManager.openStream]
  split_ifs with _ _ hcontains hretired
  · exact ⟨_, rfl⟩
  · exact ⟨_, rfl⟩
  · exact ⟨_, rfl⟩
  · exact ⟨_, rfl⟩
  · exact ⟨_, rfl⟩
  · grind [Gone.mem_retired]

/-- **Identities are used at most once** in a run: what is open and what is retired never meet, a
stream that was removed is retired from then on, and cannot be opened again. `before` is the run up
to any earlier time. -/
structure IdentitiesUsedOnce (ops : List (StreamOp L)) : Prop where
  disjoint : ∀ key ∈ (streamMachine.run ops).retired,
    (streamMachine.run ops).streams.contains key = false
  open_le : (streamMachine.run ops).streams.size ≤ maxConcurrentStreams
  /-- The look at the size of the retired set never keeps an identity out. -/
  room : ∀ key, (streamMachine.run ops).streams.contains key = true →
    (streamMachine.run ops).retired.card < maxRetiredStreamKeys
  retired : ∀ before after key, ops = before ++ after →
    (streamMachine.run before).streams.contains key = true →
    (streamMachine.run ops).streams.contains key = false → key ∈ (streamMachine.run ops).retired
  forever : ∀ before after, ops = before ++ after →
    (streamMachine.run before).retired ⊆ (streamMachine.run ops).retired
  refused : ∀ before after key service consumer, ops = before ++ after →
    (streamMachine.run before).streams.contains key = true →
    ∃ error, ((streamMachine.run ops).openStream key service consumer).2 = .error error

/-- **No run of a manager uses a stream identity twice.** -/
theorem identities_used_once (ops : List (StreamOp L)) : IdentitiesUsedOnce ops where
  disjoint key hmem := Table.contains_eq_false.mpr ((identities_run ops).retired_closed key hmem)
  open_le := (identities_run ops).open_le
  room key hopen := by
    obtain ⟨entry, hentry⟩ := Table.contains_eq_true.mp hopen
    exact (identities_run ops).card_retired_lt hentry
  retired before after key hops hopen hclosed := by
    subst hops
    rw [Machine.run_append] at hclosed ⊢
    rcases open_or_gone_run (.inl hopen) after with hstill | hgone
    · rw [hclosed] at hstill
      cases hstill
    · exact hgone.mem_retired
  forever before after hops := by
    subst hops
    rw [Machine.run_append]
    exact retains_run _ after
  refused before after key service consumer hops hopen := by
    subst hops
    rw [Machine.run_append]
    exact openStream_refused (open_or_gone_run (.inl hopen) after) service consumer

end SshMobile.Stream
