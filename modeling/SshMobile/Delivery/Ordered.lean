import SshMobile.Delivery.Store

/-!
# The ordered channel

An ordered channel releases one message at a time. The message with the expected sequence becomes
the in-flight message; a later one waits in the bounded reorder buffer; the acknowledgement of the
in-flight message moves the expected sequence and takes the next message out of the buffer.

## Main definitions

* `OrderedChannelState.insert`, `OrderedChannelState.acknowledge`: the two operations
* `OrderedChannelState.clear`: what closing a peer leaves of its channels

## Main results

* `OrderedChannelState.insert_cases`, `OrderedChannelState.acknowledge_none`,
  `OrderedChannelState.acknowledge_some`: everything the two operations can do
* `OrderedChannelState.Buffered`: what holds of the buffer of every channel, with
  `OrderedChannelState.Buffered.insert` and `OrderedChannelState.Buffered.acknowledge`
-/

namespace SshMobile.Delivery

open Library

namespace OrderedChannelState

def insert (ch : OrderedChannelState) (message : OrderedMessage)
    (maxMessages maxBytes maxGap : ℕ) : OrderedChannelState × OrderedInsertResult :=
  if message.sequence < ch.expectedSequence then
    (ch, .duplicate)
  else if message.sequence = ch.expectedSequence then
    match ch.inFlight with
    | some messageId =>
      if messageId = message.messageId then (ch, .duplicate) else (ch, .rejected)
    | none => ({ ch with inFlight := some message.messageId }, .ready)
  else if maxGap < message.sequence - ch.expectedSequence
      ∨ maxMessages ≤ ch.reorderBuffer.size
      ∨ maxBytes < ch.reorderBytes + message.payload.length then
    (ch, .rejected)
  else
    match ch.reorderBuffer.get? message.sequence with
    | some existing =>
      if existing.messageId = message.messageId then (ch, .duplicate) else (ch, .rejected)
    | none =>
      ({ ch with
          reorderBytes := ch.reorderBytes + message.payload.length
          reorderBuffer := ch.reorderBuffer.insert message.sequence message }, .buffered)

/-- The sequence expected once the in-flight message is acknowledged. -/
def nextSequence (ch : OrderedChannelState) : ℕ := saturatingAdd u64Max ch.expectedSequence 1

def acknowledge (ch : OrderedChannelState) (messageId : MessageId) :
    OrderedChannelState × Option OrderedMessage :=
  if ch.inFlight ≠ some messageId then
    (ch, none)
  else
    match ch.reorderBuffer.get? ch.nextSequence with
    | none => ({ ch with inFlight := none, expectedSequence := ch.nextSequence }, none)
    | some next =>
      ({ expectedSequence := ch.nextSequence
         inFlight := some next.messageId
         reorderBuffer := ch.reorderBuffer.erase ch.nextSequence
         reorderBytes := ch.reorderBytes - next.payload.length }, some next)

/-- The channel without its in-flight and buffered messages; the expected sequence stays. -/
def clear (ch : OrderedChannelState) : OrderedChannelState :=
  { ch with inFlight := none, reorderBuffer := ∅, reorderBytes := 0 }

variable {ch ch' : OrderedChannelState} {message : OrderedMessage} {messageId : MessageId}
  {maxMessages maxBytes maxGap : ℕ}

/-- **An insertion** leaves the channel as it is, releases the expected message, or buffers a
later one within the limits. -/
theorem insert_cases {result : OrderedInsertResult}
    (h : ch.insert message maxMessages maxBytes maxGap = (ch', result)) :
    ((result = .duplicate ∨ result = .rejected) ∧ ch' = ch) ∨
    (result = .ready ∧ message.sequence = ch.expectedSequence ∧ ch.inFlight = none ∧
      ch' = { ch with inFlight := some message.messageId }) ∨
    (result = .buffered ∧ ch.expectedSequence < message.sequence ∧
      message.sequence - ch.expectedSequence ≤ maxGap ∧
      ch.reorderBuffer.size < maxMessages ∧
      ch.reorderBytes + message.payload.length ≤ maxBytes ∧
      ch.reorderBuffer.get? message.sequence = none ∧
      ch' = { ch with
        reorderBytes := ch.reorderBytes + message.payload.length
        reorderBuffer := ch.reorderBuffer.insert message.sequence message }) := by
  unfold insert at h
  split_ifs at h with hlt heq hlim
  · obtain ⟨rfl, rfl⟩ := Prod.mk.inj h
    exact Or.inl ⟨Or.inl rfl, rfl⟩
  -- the expected message: ready, unless one is in flight
  · cases hf : ch.inFlight with
    | none =>
      rw [hf] at h
      obtain ⟨rfl, rfl⟩ := Prod.mk.inj h
      exact Or.inr (Or.inl ⟨rfl, heq, rfl, rfl⟩)
    | some current =>
      simp only [hf] at h
      split_ifs at h
      · obtain ⟨rfl, rfl⟩ := Prod.mk.inj h
        exact Or.inl ⟨Or.inl rfl, rfl⟩
      · obtain ⟨rfl, rfl⟩ := Prod.mk.inj h
        exact Or.inl ⟨Or.inr rfl, rfl⟩
  · obtain ⟨rfl, rfl⟩ := Prod.mk.inj h
    exact Or.inl ⟨Or.inr rfl, rfl⟩
  · simp only [not_or, not_lt, not_le] at hlim
    -- a later message: buffered, unless its place is taken
    cases hb : ch.reorderBuffer.get? message.sequence with
    | some existing =>
      simp only [hb] at h
      split_ifs at h
      · obtain ⟨rfl, rfl⟩ := Prod.mk.inj h
        exact Or.inl ⟨Or.inl rfl, rfl⟩
      · obtain ⟨rfl, rfl⟩ := Prod.mk.inj h
        exact Or.inl ⟨Or.inr rfl, rfl⟩
    | none =>
      rw [hb] at h
      obtain ⟨rfl, rfl⟩ := Prod.mk.inj h
      have hgt : ch.expectedSequence < message.sequence := by omega
      exact Or.inr (Or.inr ⟨rfl, hgt, hlim.1, hlim.2.1, hlim.2.2, rfl, rfl⟩)

theorem insert_ready (h : ch.insert message maxMessages maxBytes maxGap = (ch', .ready)) :
    message.sequence = ch.expectedSequence ∧ ch.inFlight = none ∧
      ch' = { ch with inFlight := some message.messageId } := by
  obtain ⟨hresult | hresult, -⟩ | ⟨-, hready⟩ | ⟨hresult, -⟩ := insert_cases h
  · cases hresult
  · cases hresult
  · exact hready
  · cases hresult

theorem insert_buffered (h : ch.insert message maxMessages maxBytes maxGap = (ch', .buffered)) :
    ch.expectedSequence < message.sequence ∧ ch.reorderBuffer.get? message.sequence = none ∧
      ch' = { ch with
        reorderBytes := ch.reorderBytes + message.payload.length
        reorderBuffer := ch.reorderBuffer.insert message.sequence message } := by
  obtain ⟨hresult | hresult, -⟩ | ⟨hresult, -⟩ | ⟨-, hlt, -, -, -, hnone, hch⟩ := insert_cases h
  · cases hresult
  · cases hresult
  · cases hresult
  · exact ⟨hlt, hnone, hch⟩

/-- A duplicate is a message from before the expected sequence, or one the channel has. -/
theorem insert_duplicate (h : ch.insert message maxMessages maxBytes maxGap = (ch', .duplicate)) :
    message.sequence < ch.expectedSequence ∨ ch.inFlight = some message.messageId ∨
      ∃ m, ch.reorderBuffer.get? message.sequence = some m ∧ m.messageId = message.messageId := by
  unfold insert at h
  split_ifs at h with hlt heq hlim
  · exact Or.inl hlt
  · cases hf : ch.inFlight with
    | none =>
      rw [hf] at h
      cases h
    | some current =>
      simp only [hf] at h
      split_ifs at h with hid
      · exact Or.inr (Or.inl (by rw [hid]))
      · cases h
  · cases h
  · cases hb : ch.reorderBuffer.get? message.sequence with
    | none =>
      rw [hb] at h
      cases h
    | some existing =>
      simp only [hb] at h
      split_ifs at h with hid
      · exact Or.inr (Or.inr ⟨existing, rfl, hid⟩)
      · cases h

/-- **An acknowledgement** of the in-flight message moves the expected sequence; the next message
is not there. -/
theorem acknowledge_none (hf : ch.inFlight = some messageId)
    (hnext : ch.reorderBuffer.get? ch.nextSequence = none) :
    ch.acknowledge messageId =
      ({ ch with inFlight := none, expectedSequence := ch.nextSequence }, none) := by
  unfold acknowledge
  rw [if_neg (not_not.mpr hf), hnext]

/-- **An acknowledgement** of the in-flight message moves the expected sequence and takes the next
message out of the buffer. -/
theorem acknowledge_some {next : OrderedMessage} (hf : ch.inFlight = some messageId)
    (hnext : ch.reorderBuffer.get? ch.nextSequence = some next) :
    ch.acknowledge messageId =
      ({ expectedSequence := ch.nextSequence
         inFlight := some next.messageId
         reorderBuffer := ch.reorderBuffer.erase ch.nextSequence
         reorderBytes := ch.reorderBytes - next.payload.length }, some next) := by
  unfold acknowledge
  rw [if_neg (not_not.mpr hf), hnext]

/-! ## The buffer of a channel -/

/-- The payload bytes waiting in a reorder buffer. -/
def bufferedBytes (ch : OrderedChannelState) : ℕ :=
  ch.reorderBuffer.sumBy fun _ message => message.payload.length

/-- The buffer of the channel `scope`: its messages belong to the channel, stand at their own
sequences and come after the expected one, and the byte counter counts them. -/
structure Buffered (scope : Scope) (maxBytes : ℕ) (ch : OrderedChannelState) : Prop where
  scope_eq : ∀ {seq m}, ch.reorderBuffer.get? seq = some m → m.scope = scope
  sequence_eq : ∀ {seq m}, ch.reorderBuffer.get? seq = some m → m.sequence = seq
  expected_lt : ∀ {seq m}, ch.reorderBuffer.get? seq = some m → ch.expectedSequence < seq
  bytes_eq : ch.reorderBytes = ch.bufferedBytes
  bytes_le : ch.reorderBytes ≤ maxBytes

theorem Buffered.default (scope : Scope) (maxBytes : ℕ) :
    Buffered scope maxBytes OrderedChannelState.default where
  scope_eq h := by simp [OrderedChannelState.default] at h
  sequence_eq h := by simp [OrderedChannelState.default] at h
  expected_lt h := by simp [OrderedChannelState.default] at h
  bytes_eq := rfl
  bytes_le := Nat.zero_le _

theorem Buffered.clear (scope : Scope) (maxBytes : ℕ) (ch : OrderedChannelState) :
    Buffered scope maxBytes ch.clear where
  scope_eq h := by simp [OrderedChannelState.clear] at h
  sequence_eq h := by simp [OrderedChannelState.clear] at h
  expected_lt h := by simp [OrderedChannelState.clear] at h
  bytes_eq := rfl
  bytes_le := Nat.zero_le _

variable {scope : Scope}

/-- The buffer survives an insertion. -/
theorem Buffered.insert {result : OrderedInsertResult} (hb : Buffered scope maxBytes ch)
    (hm : message.scope = scope)
    (h : ch.insert message maxMessages maxBytes maxGap = (ch', result)) :
    Buffered scope maxBytes ch' := by
  obtain ⟨-, rfl⟩ | ⟨-, -, -, rfl⟩ | ⟨-, hgt, -, -, hbytes, hnone, rfl⟩ := insert_cases h
  · exact hb
  · exact ⟨hb.scope_eq, hb.sequence_eq, hb.expected_lt, hb.bytes_eq, hb.bytes_le⟩
  · refine ⟨?_, ?_, ?_, ?_, hbytes⟩
    · intro seq m hget
      rw [Table.get?_insert] at hget
      split_ifs at hget with hseq
      · cases hget
        exact hm
      · exact hb.scope_eq hget
    · intro seq m hget
      rw [Table.get?_insert] at hget
      split_ifs at hget with hseq
      · cases hget
        exact hseq.symm
      · exact hb.sequence_eq hget
    · intro seq m hget
      rw [Table.get?_insert] at hget
      split_ifs at hget with hseq
      · exact hseq ▸ hgt
      · exact hb.expected_lt hget
    · simp only [bufferedBytes, Table.sumBy_insert hnone]
      rw [hb.bytes_eq]
      rfl

/-- The buffer survives the acknowledgement of the in-flight message. -/
theorem Buffered.acknowledge (hb : Buffered scope maxBytes ch)
    (hf : ch.inFlight = some messageId) :
    Buffered scope maxBytes (ch.acknowledge messageId).1 := by
  -- the expected sequence saturates, so the next one is at most one ahead
  have hlt : ∀ {seq m}, ch.reorderBuffer.get? seq = some m → seq ≠ ch.nextSequence →
      ch.nextSequence < seq := by
    intro seq m hget hne
    have hgt := hb.expected_lt hget
    have hle : ch.nextSequence ≤ ch.expectedSequence + 1 := Nat.min_le_left _ _
    omega
  cases hnext : ch.reorderBuffer.get? ch.nextSequence with
  | none =>
    rw [acknowledge_none hf hnext]
    refine ⟨hb.scope_eq, hb.sequence_eq, ?_, hb.bytes_eq, hb.bytes_le⟩
    intro seq m hget
    refine hlt hget ?_
    rintro rfl
    rw [hnext] at hget
    cases hget
  | some next =>
    rw [acknowledge_some hf hnext]
    have hget' : ∀ {seq m}, (ch.reorderBuffer.erase ch.nextSequence).get? seq = some m →
        ch.reorderBuffer.get? seq = some m ∧ seq ≠ ch.nextSequence := by
      intro seq m hget
      rw [Table.get?_erase] at hget
      split_ifs at hget with hseq
      exact ⟨hget, hseq⟩
    have hsum := Table.sumBy_erase (f := fun _ m => m.payload.length) hnext
    have hbytes := hb.bytes_eq
    have hle := hb.bytes_le
    refine ⟨?_, ?_, ?_, ?_, ?_⟩
    · exact fun hget => hb.scope_eq (hget' hget).1
    · exact fun hget => hb.sequence_eq (hget' hget).1
    · exact fun hget => hlt (hget' hget).1 (hget' hget).2
    · simp only [bufferedBytes] at hbytes ⊢
      omega
    · simp only
      omega

end OrderedChannelState

end SshMobile.Delivery
