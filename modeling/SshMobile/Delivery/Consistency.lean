import SshMobile.Delivery.Receive

/-!
# Records and channels agree

The asserted invariant ties the active records to the ordered channels. One channel at a time: a
record is buffered exactly when its message waits in the buffer, and the in-flight message has a
record in flight. Every step keeps this, except a rejection of a message that its channel holds:
`rejectIncoming` removes the record and leaves the channel as it is.

The senders are honest: the sequence of a message is a function `seqOf` of its key. So a buffered
message stands at its own sequence, and the in-flight message has the expected one.

## Main definitions

* `OrderedChannelState.Holds`: a message waits in the buffer
* `OrderedChannelState.Tracked`, `OrderedChannelState.Honest`: the agreement of one channel
* `Receive.Invariants`, `Receive.Consistent`: the agreement of all channels
* `ConsistencyGuard`: what the steps may assume

## Main results

* `assertDeliveryInvariants_iff`: the asserted invariant of a store is the abstract one
* `consistentInvariant`: every guarded step keeps the agreement
* `Receive.Invariants.detached_of_drop`: a rejection that keeps it is one of a detached message
* `receive_run_refines`: a run is a path of abstract steps
* `processed_not_repeated`: a processed message is not admitted, released or completed again
-/

namespace SshMobile.Delivery

open Library

/-! ## One channel -/

variable {ch : OrderedChannelState} {message : OrderedMessage} {record : ActiveIncomingRecord}

namespace OrderedChannelState

/-- A message with the identifier waits in the buffer. -/
def Holds (ch : OrderedChannelState) (messageId : MessageId) : Prop :=
  ∃ seq m, ch.reorderBuffer.get? seq = some m ∧ m.messageId = messageId

/-- The records of a channel agree with its state. -/
structure Tracked (records : MessageId → Option ActiveIncomingRecord) (ch : OrderedChannelState) :
    Prop where
  buffered_iff : ∀ {messageId}, (∃ record, records messageId = some record ∧
    record.state = .orderedBuffered) ↔ ch.Holds messageId
  inFlight : ∀ {messageId}, ch.inFlight = some messageId →
    ∃ record, records messageId = some record ∧ record.state = .inFlight

/-- The messages of a channel have the sequences of their identifiers. -/
structure Honest (seqOf : MessageId → ℕ) (ch : OrderedChannelState) : Prop where
  buffered : ∀ {seq m}, ch.reorderBuffer.get? seq = some m → seqOf m.messageId = seq
  inFlight : ∀ {messageId}, ch.inFlight = some messageId → seqOf messageId = ch.expectedSequence

variable {records : MessageId → Option ActiveIncomingRecord} {seqOf : MessageId → ℕ}
  {ch' : OrderedChannelState} {messageId : MessageId} {maxMessages maxBytes maxGap : ℕ}

theorem not_holds_default (messageId : MessageId) : ¬ default.Holds messageId := by
  rintro ⟨seq, m, h, -⟩
  simp [default] at h

theorem not_holds_clear (ch : OrderedChannelState) (messageId : MessageId) :
    ¬ ch.clear.Holds messageId := by
  rintro ⟨seq, m, h, -⟩
  simp [clear] at h

theorem holds_of_buffered (messageId : MessageId)
    (hinsert : ch.insert message maxMessages maxBytes maxGap = (ch', .buffered)) :
    ch'.Holds messageId ↔ messageId = message.messageId ∨ ch.Holds messageId := by
  obtain ⟨-, hnone, rfl⟩ := insert_buffered hinsert
  constructor
  · rintro ⟨seq, m, hget, rfl⟩
    simp only [Table.get?_insert] at hget
    split_ifs at hget with hseq
    · cases hget
      exact Or.inl rfl
    · exact Or.inr ⟨seq, m, hget, rfl⟩
  · rintro (rfl | ⟨seq, m, hget, hm⟩)
    · exact ⟨message.sequence, message, by simp, rfl⟩
    · refine ⟨seq, m, ?_, hm⟩
      have hseq : seq ≠ message.sequence := by
        rintro rfl
        rw [hnone] at hget
        cases hget
      simpa [Table.get?_insert, hseq] using hget

theorem expectedSequence_acknowledge (hflight : ch.inFlight = some messageId) :
    (ch.acknowledge messageId).1.expectedSequence = ch.nextSequence := by
  cases hnext : ch.reorderBuffer.get? ch.nextSequence with
  | none => rw [acknowledge_none hflight hnext]
  | some next => rw [acknowledge_some hflight hnext]

theorem reorderBuffer_of_acknowledge (hflight : ch.inFlight = some messageId) {seq : ℕ}
    (h : (ch.acknowledge messageId).1.reorderBuffer.get? seq = some message) :
    ch.reorderBuffer.get? seq = some message := by
  cases hnext : ch.reorderBuffer.get? ch.nextSequence with
  | none => rwa [acknowledge_none hflight hnext] at h
  | some next =>
    rw [acknowledge_some hflight hnext, Table.get?_erase] at h
    split_ifs at h
    exact h

variable {other : MessageId}

theorem holds_of_acknowledge_inFlight (hflight : ch.inFlight = some messageId)
    (h : (ch.acknowledge messageId).1.inFlight = some other) : ch.Holds other := by
  cases hnext : ch.reorderBuffer.get? ch.nextSequence with
  | none =>
    rw [acknowledge_none hflight hnext] at h
    cases h
  | some next =>
    rw [acknowledge_some hflight hnext] at h
    cases h
    exact ⟨ch.nextSequence, next, hnext, rfl⟩

/-- A buffered message stays in the buffer or is released. -/
theorem Holds.acknowledge (h : ch.Holds other) (hflight : ch.inFlight = some messageId) :
    (ch.acknowledge messageId).1.inFlight = some other ∨
      (ch.acknowledge messageId).1.Holds other := by
  obtain ⟨seq, m, hget, rfl⟩ := h
  cases hnext : ch.reorderBuffer.get? ch.nextSequence with
  | none =>
    rw [acknowledge_none hflight hnext]
    exact Or.inr ⟨seq, m, hget, rfl⟩
  | some next =>
    rw [acknowledge_some hflight hnext]
    by_cases hseq : seq = ch.nextSequence
    · subst hseq
      cases hnext.symm.trans hget
      exact Or.inl rfl
    · exact Or.inr ⟨seq, m, by simpa [Table.get?_erase, hseq] using hget, rfl⟩

namespace Tracked

/-- A channel without messages, and no buffered record. -/
theorem of_empty (hholds : ∀ messageId, ¬ ch.Holds messageId) (hflight : ch.inFlight = none)
    (hrecords : ∀ messageId record, records messageId = some record → record.state = .inFlight) :
    Tracked records ch where
  buffered_iff := by
    intro messageId
    refine iff_of_false ?_ (hholds messageId)
    rintro ⟨record, hrecord, hstate⟩
    rw [hrecords messageId record hrecord] at hstate
    cases hstate
  inFlight := fun h => by
    rw [hflight] at h
    cases h

section

variable (h : Tracked records ch)

include h

/-- Records may change as long as their states do not. -/
theorem congr {records' : MessageId → Option ActiveIncomingRecord}
    (hstate : ∀ messageId, (records' messageId).map ActiveIncomingRecord.state =
      (records messageId).map ActiveIncomingRecord.state) : Tracked records' ch := by
  have hiff : ∀ messageId state, (∃ record, records' messageId = some record ∧
      record.state = state) ↔ ∃ record, records messageId = some record ∧ record.state = state := by
    intro messageId state
    have := hstate messageId
    cases h' : records' messageId <;> cases h'' : records messageId <;> simp_all
  exact ⟨(hiff _ _).trans h.buffered_iff, fun hflight => (hiff _ _).mpr (h.inFlight hflight)⟩

theorem not_holds_of_inFlight (hrecord : records messageId = some record)
    (hstate : record.state = .inFlight) : ¬ ch.Holds messageId := by
  intro hholds
  obtain ⟨found, hfound, hbuffered⟩ := h.buffered_iff.mpr hholds
  cases hrecord.symm.trans hfound
  rw [hstate] at hbuffered
  cases hbuffered

/-- A new record of a message the channel does not hold. -/
theorem enroll (hholds : ¬ ch.Holds messageId) (hstate : record.state = .inFlight) :
    Tracked (Function.update records messageId (some record)) ch where
  buffered_iff := by
    intro other
    by_cases hother : other = messageId
    · subst hother
      simp [hholds, hstate]
    · simpa [hother] using h.buffered_iff
  inFlight := by
    intro other hflight
    by_cases hother : other = messageId
    · subst hother
      simp [hstate]
    · simpa [hother] using h.inFlight hflight

/-- The record of a message the channel does not hold is removed. -/
theorem drop (hholds : ¬ ch.Holds messageId) (hfree : ch.inFlight ≠ some messageId) :
    Tracked (Function.update records messageId none) ch where
  buffered_iff := by
    intro other
    by_cases hother : other = messageId
    · subst hother
      simp [hholds]
    · simpa [hother] using h.buffered_iff
  inFlight := by
    intro other hflight
    have hother : other ≠ messageId := by
      rintro rfl
      exact hfree hflight
    simpa [hother] using h.inFlight hflight

/-- The expected message is released. -/
theorem ready (hholds : ¬ ch.Holds message.messageId) (hstate : record.state = .inFlight)
    (hinsert : ch.insert message maxMessages maxBytes maxGap = (ch', .ready)) :
    Tracked (Function.update records message.messageId (some record)) ch' := by
  obtain ⟨-, -, rfl⟩ := insert_ready hinsert
  refine ⟨(h.enroll hholds hstate).buffered_iff, ?_⟩
  intro messageId hflight
  cases hflight
  simp [hstate]

/-- A later message is buffered. -/
theorem buffer (hfree : ch.inFlight ≠ some message.messageId)
    (hstate : record.state = .orderedBuffered)
    (hinsert : ch.insert message maxMessages maxBytes maxGap = (ch', .buffered)) :
    Tracked (Function.update records message.messageId (some record)) ch' := by
  refine ⟨?_, ?_⟩
  · intro other
    rw [holds_of_buffered other hinsert]
    by_cases hother : other = message.messageId
    · subst hother
      exact iff_of_true ⟨record, by simp, hstate⟩ (Or.inl rfl)
    · simp only [Function.update_of_ne hother, h.buffered_iff, hother, false_or]
  · intro other hflight
    rw [(insert_buffered hinsert).2.2] at hflight
    have hother : other ≠ message.messageId := by
      rintro rfl
      exact hfree hflight
    simpa [hother] using h.inFlight hflight

/-- The in-flight message is acknowledged and no message follows. -/
theorem advance (hflight : ch.inFlight = some messageId)
    (hnext : ch.reorderBuffer.get? ch.nextSequence = none) :
    Tracked (Function.update records messageId none) (ch.acknowledge messageId).1 := by
  obtain ⟨record, hrecord, hstate⟩ := h.inFlight hflight
  have hholds := h.not_holds_of_inFlight hrecord hstate
  rw [acknowledge_none hflight hnext]
  refine ⟨?_, fun hnone => by cases hnone⟩
  intro other
  by_cases hother : other = messageId
  · subst hother
    refine iff_of_false ?_ hholds
    rintro ⟨found, hfound, -⟩
    simp at hfound
  · rw [Function.update_of_ne hother]
    exact h.buffered_iff

/-- The in-flight message is acknowledged and the next one released. -/
theorem promote (hflight : ch.inFlight = some messageId)
    (hnext : ch.reorderBuffer.get? ch.nextSequence = some message)
    (hne : message.messageId ≠ messageId) (hunique : ∀ {seq m}, ch.reorderBuffer.get? seq = some m →
      m.messageId = message.messageId → seq = ch.nextSequence) (hstate : record.state = .inFlight) :
    Tracked (Function.update (Function.update records messageId none) message.messageId
      (some record)) (ch.acknowledge messageId).1 := by
  obtain ⟨current, hcurrent, hin⟩ := h.inFlight hflight
  have hholds := h.not_holds_of_inFlight hcurrent hin
  rw [acknowledge_some hflight hnext]
  -- the buffer loses one message, since no other entry has its identifier
  have herase : ∀ other, Holds { ch with
      expectedSequence := ch.nextSequence
      inFlight := some message.messageId
      reorderBuffer := ch.reorderBuffer.erase ch.nextSequence
      reorderBytes := ch.reorderBytes - message.payload.length } other ↔
      ch.Holds other ∧ other ≠ message.messageId := by
    intro other
    constructor
    · rintro ⟨seq, m, hget, rfl⟩
      simp only [Table.get?_erase] at hget
      split_ifs at hget with hseq
      exact ⟨⟨seq, m, hget, rfl⟩, fun heq => hseq (hunique hget heq)⟩
    · rintro ⟨⟨seq, m, hget, rfl⟩, hother⟩
      have hseq : seq ≠ ch.nextSequence := by
        rintro rfl
        cases hnext.symm.trans hget
        exact hother rfl
      exact ⟨seq, m, by simpa [Table.get?_erase, hseq] using hget, rfl⟩
  refine ⟨?_, ?_⟩
  · intro other
    rw [herase other]
    by_cases hother : other = message.messageId
    · subst hother
      simp [hstate]
    · by_cases hself : other = messageId
      · subst hself
        simp [hother, hholds]
      · simpa [hother, hself] using h.buffered_iff
  · intro other hother
    cases hother
    simp [hstate]

end

end Tracked

namespace Honest

theorem of_empty (hholds : ∀ messageId, ¬ ch.Holds messageId) (hflight : ch.inFlight = none) :
    Honest seqOf ch where
  buffered := fun {seq m} h => absurd ⟨seq, m, h, rfl⟩ (hholds m.messageId)
  inFlight := fun h => by
    rw [hflight] at h
    cases h

section

variable (h : Honest seqOf ch)

include h

theorem insert {result : OrderedInsertResult} (hseq : message.sequence = seqOf message.messageId)
    (hinsert : ch.insert message maxMessages maxBytes maxGap = (ch', result)) :
    Honest seqOf ch' := by
  obtain ⟨-, rfl⟩ | ⟨-, heq, -, rfl⟩ | ⟨-, -, -, -, -, -, rfl⟩ := insert_cases hinsert
  · exact h
  · refine ⟨h.buffered, fun hflight => ?_⟩
    cases hflight
    exact hseq.symm.trans heq
  · refine ⟨?_, h.inFlight⟩
    intro seq m hget
    simp only [Table.get?_insert] at hget
    split_ifs at hget with hs
    · cases hget
      exact hseq.symm.trans hs.symm
    · exact h.buffered hget

theorem acknowledge (hflight : ch.inFlight = some messageId) :
    Honest seqOf (ch.acknowledge messageId).1 := by
  cases hnext : ch.reorderBuffer.get? ch.nextSequence with
  | none =>
    rw [acknowledge_none hflight hnext]
    exact ⟨h.buffered, fun hnone => by cases hnone⟩
  | some next =>
    rw [acknowledge_some hflight hnext]
    refine ⟨?_, ?_⟩
    · intro seq m hget
      simp only [Table.get?_erase] at hget
      split_ifs at hget
      exact h.buffered hget
    · intro messageId hnew
      cases hnew
      exact h.buffered hnext

/-- A message that is released now does not wait in the buffer. -/
theorem not_holds_of_ready {scope : Scope} (hbuffered : ch.Buffered scope maxBytes)
    (hseq : message.sequence = seqOf message.messageId)
    (hinsert : ch.insert message maxMessages maxBytes maxGap = (ch', .ready)) :
    ¬ ch.Holds message.messageId := by
  rintro ⟨seq, m, hget, hm⟩
  have heq := (insert_ready hinsert).1
  have hlt := hbuffered.expected_lt hget
  have hown := h.buffered hget
  rw [hm] at hown
  omega

/-- A message that is buffered now is not in flight. -/
theorem not_inFlight_of_buffered (hseq : message.sequence = seqOf message.messageId)
    (hinsert : ch.insert message maxMessages maxBytes maxGap = (ch', .buffered)) :
    ch.inFlight ≠ some message.messageId := by
  intro hflight
  have hlt := (insert_buffered hinsert).1
  have hown := h.inFlight hflight
  omega

end

end Honest

end OrderedChannelState

/-! ## All channels -/

variable {config : DeliveryConfig}

namespace Receive

/-- The records of the channel `scope`. -/
def records (r : Receive) (scope : Scope) : MessageId → Option ActiveIncomingRecord :=
  fun messageId => r.active (scope.key messageId)

/-- Active messages are not processed, and exactly the ones in flight have a deadline. -/
structure RecordsValid (r : Receive) : Prop where
  disjoint : ∀ {key record}, r.active key = some record → key ∉ r.processed
  deadline : ∀ {key record}, r.active key = some record →
    (record.ackDeadline.isSome ↔ record.state = .inFlight)

/-- **The asserted invariant**, abstractly. -/
structure Invariants (r : Receive) : Prop where
  valid : r.RecordsValid
  tracked : ∀ scope, (r.view scope).Tracked (r.records scope)

/-- The channel `scope` agrees with its records and with the senders. -/
structure Agrees (seqOf : DedupKey → ℕ) (r : Receive) (scope : Scope) : Prop where
  tracked : (r.view scope).Tracked (r.records scope)
  honest : (r.view scope).Honest fun messageId => seqOf (scope.key messageId)

/-- The invariant of runs with honest senders. -/
structure Consistent (seqOf : DedupKey → ℕ) (r : Receive) : Prop where
  valid : r.RecordsValid
  agrees : ∀ scope, r.Agrees seqOf scope

theorem Consistent.invariants {seqOf : DedupKey → ℕ} {r : Receive} (h : r.Consistent seqOf) :
    r.Invariants :=
  ⟨h.valid, fun scope => (h.agrees scope).tracked⟩

variable {r : Receive} {key : DedupKey} {seqOf : DedupKey → ℕ}

section Lemmas

variable {r' : Receive} {scope : Scope}

section

variable {value : Option ActiveIncomingRecord}
  (h : ∀ k, r'.active k = if k = key then value else r.active k)

include h

/-- The records of a channel after one record was set or dropped. -/
theorem records_update_self :
    r'.records key.scope = Function.update (r.records key.scope) key.messageId value := by
  funext messageId
  by_cases hid : messageId = key.messageId
  · subst hid
    simp [records, h]
  · have hne : key.scope.key messageId ≠ key := fun heq => hid (congrArg DedupKey.messageId heq)
    simp [records, h, hid, hne]

theorem records_update_of_ne (hscope : scope ≠ key.scope) :
    r'.records scope = r.records scope := by
  funext messageId
  have hne : scope.key messageId ≠ key := fun heq => hscope (congrArg DedupKey.scope heq)
  simp [records, h, hne]

end

theorem records_put_self : (r.put key record).records key.scope =
    Function.update (r.records key.scope) key.messageId (some record) :=
  records_update_self fun _ => rfl

theorem records_put_of_ne (h : scope ≠ key.scope) :
    (r.put key record).records scope = r.records scope :=
  records_update_of_ne (fun _ => rfl) h

theorem records_drop_self : (r.drop key).records key.scope =
    Function.update (r.records key.scope) key.messageId none :=
  records_update_self fun _ => rfl

theorem records_drop_of_ne (h : scope ≠ key.scope) :
    (r.drop key).records scope = r.records scope :=
  records_update_of_ne (fun _ => rfl) h

theorem inFlight_iff (r : Receive) (key : DedupKey) :
    r.InFlight key ↔ (r.view key.scope).inFlight = some key.messageId := by
  unfold InFlight view
  cases r.channel key.scope <;> simp [OrderedChannelState.default]

theorem waiting_iff (r : Receive) (key : DedupKey) :
    r.Waiting key ↔ (r.view key.scope).Holds key.messageId := by
  unfold Waiting view OrderedChannelState.Holds
  cases r.channel key.scope <;> simp [OrderedChannelState.default]

namespace RecordsValid

section

variable (h : r.RecordsValid)

include h

theorem put (hkey : key ∉ r.processed)
    (hrecord : record.ackDeadline.isSome ↔ record.state = .inFlight) :
    (r.put key record).RecordsValid := by
  constructor
  · intro k found hactive
    rw [put_active] at hactive
    split_ifs at hactive with hk
    · exact hk ▸ hkey
    · exact h.disjoint hactive
  · intro k found hactive
    rw [put_active] at hactive
    split_ifs at hactive
    · cases hactive
      exact hrecord
    · exact h.deadline hactive

/-- Fewer active records and a smaller history. -/
theorem mono (hactive : ∀ {key record}, r'.active key = some record → r.active key = some record)
    (hprocessed : ∀ {key record}, r'.active key = some record → key ∈ r'.processed → key ∈
      r.processed) : r'.RecordsValid where
  disjoint := fun h' hmem => h.disjoint (hactive h') (hprocessed h' hmem)
  deadline := fun h' => h.deadline (hactive h')

theorem setChannel (scope : Scope) (ch : OrderedChannelState) :
    (r.setChannel scope ch).RecordsValid :=
  ⟨h.disjoint, h.deadline⟩

theorem drop (key : DedupKey) : (r.drop key).RecordsValid := by
  refine h.mono ?_ fun _ hmem => hmem
  intro k found hactive
  rw [drop_active] at hactive
  split_ifs at hactive
  exact hactive

/-- A completed message becomes a processed one. -/
theorem complete {kept : Set DedupKey} (hkept : kept ⊆ insert key r.processed) :
    ((r.drop key).remember kept).RecordsValid := by
  refine h.mono ?_ ?_
  · intro k found hactive
    rw [remember_active, drop_active] at hactive
    split_ifs at hactive
    exact hactive
  · intro k found hactive hmem
    rw [remember_active, drop_active] at hactive
    split_ifs at hactive with hk
    exact (hkept hmem).resolve_left hk

end

end RecordsValid

/-- A step that touches one channel keeps the others. -/
theorem agrees_of_scope (scope : Scope) (h : ∀ scope, r.Agrees seqOf scope)
    (hother : ∀ other, other ≠ scope → r'.view other = r.view other ∧
      r'.records other = r.records other)
    (hscope : r'.Agrees seqOf scope) : ∀ scope, r'.Agrees seqOf scope := by
  intro other
  by_cases heq : other = scope
  · exact heq ▸ hscope
  · obtain ⟨hview, hrecords⟩ := hother other heq
    refine ⟨?_, hview ▸ (h other).honest⟩
    rw [hview, hrecords]
    exact (h other).tracked

/-- A channel without messages and without records. -/
theorem agrees_of_empty (hholds : ∀ messageId, ¬ (r.view scope).Holds messageId)
    (hflight : (r.view scope).inFlight = none) (hrecords : ∀ messageId,
      r.records scope messageId = none) : r.Agrees seqOf scope where
  tracked := by
    refine .of_empty hholds hflight fun messageId record hrecord => ?_
    rw [hrecords messageId] at hrecord
    cases hrecord
  honest := .of_empty hholds hflight

end Lemmas

/-! ## The steps -/

namespace Consistent

section

variable (h : r.Consistent seqOf)

include h

/-- A step that changes the channel of one scope and its records. -/
theorem of_scope {r' : Receive} {scope : Scope}
    {records : MessageId → Option ActiveIncomingRecord} (hvalid : r'.RecordsValid)
    (hother : ∀ other, other ≠ scope → r'.view other = r.view other ∧
      r'.records other = r.records other)
    (hview : r'.view scope = ch) (hrecords : r'.records scope = records)
    (htracked : ch.Tracked records)
    (hhonest : ch.Honest fun messageId => seqOf (scope.key messageId)) : r'.Consistent seqOf := by
  refine ⟨hvalid, agrees_of_scope scope h.agrees hother ⟨?_, ?_⟩⟩
  · rw [hview, hrecords]
    exact htracked
  · rw [hview]
    exact hhonest

theorem touch (hactive : r.active key = some record) (epoch : ℕ) :
    (r.put key { record with recoveryEpoch := epoch }).Consistent seqOf := by
  have hdeadline := h.valid.deadline hactive
  refine h.of_scope (h.valid.put (h.valid.disjoint hactive) hdeadline)
    (fun other hne => ⟨rfl, records_put_of_ne hne⟩) rfl records_put_self ?_
    (h.agrees key.scope).honest
  refine (h.agrees key.scope).tracked.congr fun messageId => ?_
  by_cases hid : messageId = key.messageId
  · subst hid
    have hrecord : r.records key.scope key.messageId = some record := hactive
    simp [hrecord]
  · simp [hid]

theorem enroll (hactive : r.active key = none) (hprocessed : key ∉ r.processed)
    (deadline epoch : ℕ) : (r.put key ⟨some deadline, epoch, .inFlight⟩).Consistent seqOf := by
  refine h.of_scope (h.valid.put hprocessed (by simp))
    (fun other hne => ⟨rfl, records_put_of_ne hne⟩) rfl records_put_self ?_
    (h.agrees key.scope).honest
  refine (h.agrees key.scope).tracked.enroll ?_ rfl
  intro hholds
  obtain ⟨found, hfound, -⟩ := (h.agrees key.scope).tracked.buffered_iff.mpr hholds
  cases hactive.symm.trans hfound

theorem drop (hfree : r.Detached key) : (r.drop key).Consistent seqOf := by
  refine h.of_scope (h.valid.drop key) (fun other hne => ⟨rfl, records_drop_of_ne hne⟩) rfl
    records_drop_self ?_ (h.agrees key.scope).honest
  obtain ⟨hflight, hwaiting⟩ := hfree
  rw [inFlight_iff] at hflight
  rw [waiting_iff] at hwaiting
  exact (h.agrees key.scope).tracked.drop hwaiting hflight

/-- An unordered record that is in flight is of a message no channel holds. -/
theorem detached (hactive : r.active key = some record) (hstate : record.state = .inFlight)
    (hfree : ¬ r.InFlight key) : r.Detached key := by
  refine ⟨hfree, ?_⟩
  rw [waiting_iff]
  exact (h.agrees key.scope).tracked.not_holds_of_inFlight hactive hstate

theorem fail (hwf : r.WellFormed config) (scope : Scope) : (r.fail scope).Consistent seqOf := by
  have haffected : ∀ key : DedupKey, r.Affected scope key ↔ key.scope = scope := by
    intro key
    refine or_iff_left_of_imp ?_
    rintro ⟨ch, seq, m, hch, hget, rfl⟩
    exact (hwf scope ch hch).scope_eq hget
  have hactive : ∀ {key record}, (r.fail scope).active key = some record →
      r.active key = some record := by
    intro key record hactive
    by_cases hkey : r.Affected scope key
    · rw [fail_active_of_affected hkey] at hactive
      cases hactive
    · rwa [fail_active_of_not_affected hkey] at hactive
  refine ⟨h.valid.mono hactive fun _ hmem => hmem, ?_⟩
  refine agrees_of_scope scope h.agrees ?_ ?_
  · intro other hne
    refine ⟨by simp [view, hne], ?_⟩
    funext messageId
    exact fail_active_of_not_affected (fun hkey => hne ((haffected _).mp hkey))
  · have hview : (r.fail scope).view scope = .default := by simp [view]
    refine agrees_of_empty ?_ ?_ fun messageId => ?_
    · exact hview ▸ OrderedChannelState.not_holds_default
    · rw [hview]
      rfl
    · exact fail_active_of_affected ((haffected _).mpr rfl)

theorem close (peerId : String) : (r.close peerId).Consistent seqOf := by
  have hactive : ∀ {key record}, (r.close peerId).active key = some record →
      r.active key = some record := by
    intro key record hactive
    simp only [Receive.close] at hactive
    split_ifs at hactive
    exact hactive
  refine ⟨h.valid.mono hactive fun _ hmem => hmem.1, fun scope => ?_⟩
  by_cases hpeer : scope.1 = peerId
  · have hview : (r.close peerId).view scope = (r.view scope).clear := by
      simp only [view, Receive.close, hpeer, if_true]
      cases r.channel scope <;> rfl
    refine agrees_of_empty ?_ ?_ fun messageId => ?_
    · exact hview ▸ OrderedChannelState.not_holds_clear _
    · rw [hview]
      rfl
    · exact if_pos hpeer
  · have hview : (r.close peerId).view scope = r.view scope := by
      simp [view, Receive.close, hpeer]
    have hrecords : (r.close peerId).records scope = r.records scope := by
      funext messageId
      exact if_neg hpeer
    refine ⟨?_, hview ▸ (h.agrees scope).honest⟩
    rw [hview, hrecords]
    exact (h.agrees scope).tracked

theorem refuse (scope : Scope) : (r.setChannel scope (r.view scope)).Consistent seqOf := by
  exact h.of_scope (h.valid.setChannel _ _)
    (fun other hne => ⟨view_setChannel_of_ne hne r _, rfl⟩) (view_setChannel_self r scope _) rfl
    (h.agrees scope).tracked (h.agrees scope).honest

theorem ready (hwf : r.WellFormed config) (hseq : message.sequence = seqOf message.key)
    (hactive : r.active message.key = some record)
    (hinsert : (r.view message.scope).insert message config.maxReorderMessages
      config.maxReorderBytes config.maxSequenceGap = (ch, .ready)) (deadline : ℕ) :
    ((r.setChannel message.scope ch).put message.key
      { record with state := .inFlight, ackDeadline := some deadline }).Consistent seqOf := by
  have hagrees := h.agrees message.scope
  refine h.of_scope ((h.valid.setChannel _ _).put (h.valid.disjoint hactive) (by simp))
    (fun other hne => ⟨view_setChannel_of_ne hne r ch, records_put_of_ne hne⟩)
    (view_setChannel_self r message.scope ch) records_put_self ?_
    (hagrees.honest.insert hseq hinsert)
  refine hagrees.tracked.ready ?_ rfl hinsert
  exact hagrees.honest.not_holds_of_ready (hwf.view message.scope) hseq hinsert

theorem buffer (hseq : message.sequence = seqOf message.key)
    (hactive : r.active message.key = some record)
    (hinsert : (r.view message.scope).insert message config.maxReorderMessages
      config.maxReorderBytes config.maxSequenceGap = (ch, .buffered)) :
    ((r.setChannel message.scope ch).put message.key
      { record with state := .orderedBuffered, ackDeadline := none }).Consistent seqOf := by
  have hagrees := h.agrees message.scope
  refine h.of_scope ((h.valid.setChannel _ _).put (h.valid.disjoint hactive) (by simp))
    (fun other hne => ⟨view_setChannel_of_ne hne r ch, records_put_of_ne hne⟩)
    (view_setChannel_self r message.scope ch) records_put_self ?_
    (hagrees.honest.insert hseq hinsert)
  refine hagrees.tracked.buffer ?_ rfl hinsert
  exact hagrees.honest.not_inFlight_of_buffered hseq hinsert

variable {kept : Set DedupKey}

/-- A completion of an unordered message. -/
theorem finish (hfree : r.Detached key) (hkept : kept ⊆ insert key r.processed) :
    ((r.drop key).remember kept).Consistent seqOf :=
  ⟨h.valid.complete hkept, fun scope =>
    ⟨((h.drop hfree).agrees scope).tracked, ((h.drop hfree).agrees scope).honest⟩⟩

variable (hch : r.channel key.scope = some ch) (hflight : ch.inFlight = some key.messageId)

include hch hflight

theorem advance (hnext : ch.reorderBuffer.get? ch.nextSequence = none)
    (hkept : kept ⊆ insert key r.processed) :
    (((r.setChannel key.scope (ch.acknowledge key.messageId).1).drop key).remember
      kept).Consistent seqOf := by
  have hview := view_of_channel hch
  obtain ⟨htracked, hhonest⟩ := h.agrees key.scope
  rw [hview] at htracked hhonest
  exact h.of_scope ((h.valid.setChannel _ _).complete hkept)
    (fun other hne => ⟨view_setChannel_of_ne hne r _, records_drop_of_ne hne⟩)
    (view_setChannel_self r key.scope _) records_drop_self (htracked.advance hflight hnext)
    (hhonest.acknowledge hflight)

theorem promote {next : ActiveIncomingRecord} (hscope : message.scope = key.scope)
    (hnext : ch.reorderBuffer.get? ch.nextSequence = some message)
    (hrecord : r.active message.key = some next) (hne : message.key ≠ key)
    (hkept : kept ⊆ insert key r.processed) (deadline : ℕ) :
    ((((r.setChannel key.scope (ch.acknowledge key.messageId).1).drop key).put message.key
      { next with state := .inFlight, ackDeadline := some deadline }).remember
        kept).Consistent seqOf := by
  have hview := view_of_channel hch
  have hkept' : message.key ∉ kept := fun hmem =>
    (hkept hmem).elim hne fun hprocessed => h.valid.disjoint hrecord hprocessed
  obtain ⟨htracked, hhonest⟩ := h.agrees key.scope
  rw [hview] at htracked hhonest
  have hkey : message.key.scope = key.scope := hscope
  have hrecords : ((((r.setChannel key.scope (ch.acknowledge key.messageId).1).drop key).put
      message.key { next with state := .inFlight, ackDeadline := some deadline }).remember
        kept).records key.scope = Function.update (Function.update (r.records key.scope)
          key.messageId none) message.messageId
            (some { next with state := .inFlight, ackDeadline := some deadline }) := by
    rw [← hkey]
    refine records_put_self.trans ?_
    rw [hkey, records_drop_self]
    rfl
  refine h.of_scope (((h.valid.setChannel _ _).complete hkept).put hkept' (by simp)) ?_
    (view_setChannel_self r key.scope _) hrecords (htracked.promote hflight hnext ?_ ?_ rfl)
    (hhonest.acknowledge hflight)
  · intro other hother
    refine ⟨view_setChannel_of_ne hother r _, ?_⟩
    exact (records_put_of_ne (hkey ▸ hother)).trans (records_drop_of_ne hother)
  · intro heq
    exact hne (Scope.key_inj.mpr ⟨hscope, heq⟩)
  · -- the sequence of a waiting message is that of its identifier
    intro seq m hget hm
    have hseq := hhonest.buffered hget
    rw [hm, hhonest.buffered hnext] at hseq
    exact hseq.symm

/-- The in-flight message has no buffered record, so a completion never waits for itself. -/
theorem not_stall (hactive : r.active key = some record) : record.state ≠ .orderedBuffered := by
  have hview := view_of_channel hch
  obtain ⟨found, hfound, hstate⟩ := (h.agrees key.scope).tracked.inFlight (hview ▸ hflight)
  cases hactive.symm.trans hfound
  rw [hstate]
  exact fun heq => by cases heq

end

end Consistent

end Receive

/-- What the steps may assume: a rejected message is detached, and an inserted message has the
sequence of its key. -/
def ConsistencyGuard (seqOf : DedupKey → ℕ) (r : Receive) : ReceiveAction → Prop
  | .reject key => r.Detached key
  | .ready message | .buffer message => message.sequence = seqOf message.key
  | _ => True

/-- **Every guarded step keeps records and channels in agreement.** -/
theorem consistentInvariant (config : DeliveryConfig) (seqOf : DedupKey → ℕ) :
    ReceiveInvariant config (ConsistencyGuard seqOf) fun r _ => r.Consistent seqOf where
  step := by
    intro r r' a log hwf h hguard hstep
    cases hstep with
    | forget kept hkept =>
      refine ⟨h.valid.mono (fun hactive => hactive) fun _ hmem => hkept hmem, fun scope => ?_⟩
      exact ⟨(h.agrees scope).tracked, (h.agrees scope).honest⟩
    | touch epoch hactive => exact h.touch hactive epoch
    | enroll deadline epoch _ hactive hprocessed => exact h.enroll hactive hprocessed deadline epoch
    | expire hactive hstate hfree => exact h.drop (h.detached hactive hstate hfree)
    | abandon hfree => exact h.drop hfree
    | fail scope => exact h.fail hwf scope
    | reject key =>
      obtain hquiet | hguard := hguard
      · cases hquiet
      exact h.drop hguard
    | refuse => exact h.refuse _
    | ready deadline _ hactive hinsert =>
      obtain hquiet | hguard := hguard
      · cases hquiet
      exact h.ready hwf hguard hactive hinsert deadline
    | buffer _ hactive hinsert =>
      obtain hquiet | hguard := hguard
      · cases hquiet
      exact h.buffer hguard hactive hinsert
    | @finish key record kept hactive hstate hidle hkept =>
      -- the channel has nothing in flight, so the message is known to its record only
      have hin : record.state = .inFlight := by
        cases hs : record.state with
        | inFlight => rfl
        | orderedBuffered => exact absurd hs hstate
      refine h.finish (h.detached hactive hin ?_) hkept
      rintro ⟨ch, hch, hflight⟩
      rw [hidle ch hch] at hflight
      cases hflight
    | advance _ hch hflight hnext hkept => exact h.advance hch hflight hnext hkept
    | promote deadline _ hch hflight hnext hrecord _ hne hkept =>
      exact h.promote hch hflight ((hwf _ _ hch).scope_eq hnext) hnext hrecord hne hkept deadline
    -- in a consistent store the message in flight is marked as such
    | stall hactive hch hflight _ _ hstate => exact absurd hstate (h.not_stall hch hflight hactive)
    | close peerId => exact h.close peerId

theorem consistent_new (seqOf : DedupKey → ℕ) : DeliveryStore.new.receive.Consistent seqOf where
  valid := ⟨fun h => (by cases h), fun h => (by cases h)⟩
  agrees := fun _ => Receive.agrees_of_empty OrderedChannelState.not_holds_default rfl
    fun _ => rfl

/-! ## The asserted invariant -/

section Asserted

variable {store : DeliveryStore}

section

variable (hwf : store.receive.WellFormed config)

include hwf

theorem invariants_of_assert (h : AssertDeliveryInvariants store) : store.receive.Invariants := by
  have hrecord : ∀ {key record}, store.receive.active key = some record →
      ActiveRecordInvariant store key record := fun hactive => h.1 _ (Table.mem_toList.mpr hactive)
  have hchannel : ∀ {scope ch}, store.receive.channel scope = some ch →
      OrderedChannelInvariant store scope ch := fun hch => h.2 _ (Table.mem_toList.mpr hch)
  refine ⟨⟨?_, ?_⟩, fun scope => ⟨?_, ?_⟩⟩
  · intro key record hactive hmem
    exact Bool.eq_false_iff.mp (hrecord hactive).1 hmem
  · intro key record hactive
    obtain ⟨-, hin, hbuffered⟩ := hrecord hactive
    refine ⟨fun hsome => ?_, hin⟩
    cases hs : record.state with
    | inFlight => rfl
    | orderedBuffered =>
      have hnone := (hbuffered hs).1
      rw [Option.isNone_iff_eq_none] at hnone
      rw [hnone] at hsome
      cases hsome
  · intro messageId
    constructor
    · rintro ⟨record, hactive, hstate⟩
      -- the assertion looks for the record's message in the buffer of its channel
      obtain ⟨-, ch, hch, ⟨seq, m⟩, hentry, hm⟩ := (hrecord hactive).2.2 hstate
      have hview : store.receive.view scope = ch := by
        exact congrArg (·.getD .default) hch
      exact hview ▸ ⟨seq, m, Table.mem_toList.mp hentry, hm⟩
    · intro hholds
      obtain ⟨ch, seq, m, hch, hget, hm⟩ :=
        (Receive.waiting_iff _ (scope.key messageId)).mpr hholds
      have hkey : m.key = scope.key messageId :=
        Scope.key_inj.mpr ⟨(hwf _ ch hch).scope_eq hget, hm⟩
      obtain ⟨record, hactive, hstate⟩ := (hchannel hch).2 _ (Table.mem_toList.mpr hget)
      rw [hkey] at hactive
      exact ⟨record, hactive, hstate⟩
  · intro messageId hflight
    obtain ⟨ch, hch, hin⟩ := (Receive.inFlight_iff _ (scope.key messageId)).mpr hflight
    exact (hchannel hch).1 messageId hin

theorem assert_of_invariants (h : store.receive.Invariants) : AssertDeliveryInvariants store := by
  refine ⟨?_, ?_⟩
  · rintro ⟨key, record⟩ hmem
    have hactive : store.receive.active key = some record := Table.mem_toList.mp hmem
    refine ⟨?_, (h.valid.deadline hactive).mpr, fun hstate => ⟨?_, ?_⟩⟩
    · have hnot := h.valid.disjoint hactive
      exact Bool.eq_false_iff.mpr hnot
    · rw [Option.isNone_iff_eq_none, Option.eq_none_iff_forall_ne_some]
      intro deadline hsome
      have hin := (h.valid.deadline hactive).mp (Option.isSome_iff_exists.mpr ⟨deadline, hsome⟩)
      cases hin.symm.trans hstate
    · have hholds := (h.tracked key.scope).buffered_iff.mp ⟨record, hactive, hstate⟩
      obtain ⟨ch, seq, m, hch, hget, hm⟩ := (Receive.waiting_iff _ key).mpr hholds
      exact ⟨ch, hch, (seq, m), Table.mem_toList.mpr hget, hm⟩
  · rintro ⟨scope, ch⟩ hmem
    have hch : store.receive.channel scope = some ch := Table.mem_toList.mp hmem
    have htracked := h.tracked scope
    rw [Receive.view_of_channel hch] at htracked
    refine ⟨fun messageId hflight => htracked.inFlight hflight, ?_⟩
    rintro ⟨seq, m⟩ hentry
    have hget := Table.mem_toList.mp hentry
    have hkey : m.key = scope.key m.messageId :=
      Scope.key_inj.mpr ⟨(hwf _ ch hch).scope_eq hget, rfl⟩
    obtain ⟨record, hrecord, hstate⟩ := htracked.buffered_iff.mpr ⟨seq, m, hget, rfl⟩
    exact ⟨record, hkey ▸ hrecord, hstate⟩

/-- **The asserted invariant** of a store is the agreement of its records and channels. -/
theorem assertDeliveryInvariants_iff :
    AssertDeliveryInvariants store ↔ store.receive.Invariants :=
  ⟨invariants_of_assert hwf, assert_of_invariants hwf⟩

end

end Asserted

/-- A removal that keeps the invariant is one of a detached message. -/
theorem Receive.Invariants.detached_of_drop {r : Receive} {key : DedupKey}
    (h : (r.drop key).Invariants) : r.Detached key := by
  have htracked := h.tracked key.scope
  have hnone : (r.drop key).records key.scope key.messageId = none := by
    rw [Receive.records_drop_self, Function.update_self]
  constructor
  · intro hflight
    rw [Receive.inFlight_iff] at hflight
    obtain ⟨record, hrecord, -⟩ := htracked.inFlight hflight
    cases hnone.symm.trans hrecord
  · intro hwaiting
    rw [Receive.waiting_iff] at hwaiting
    obtain ⟨record, hrecord, -⟩ := htracked.buffered_iff.mpr hwaiting
    cases hnone.symm.trans hrecord

/-! ## Every run -/

/-- **Refinement**: a run of the receive side is a path of abstract steps, and the application sees
the events of that path. -/
theorem receive_run_refines (config : DeliveryConfig) (ops : List ReceiveOp) :
    ∃ actions,
      Trace (Receive.Step config) DeliveryStore.new.receive actions
        ((receiveMachine config).run ops).receive ∧
      actions.flatMap ReceiveAction.log =
        ((receiveMachine config).transcript ops).flatMap receiveLog := by
  -- the path so far is the invariant, and every step goes on with it
  have hinv : ReceiveInvariant config (fun _ _ => True) fun r log =>
      ∃ actions, Trace (Receive.Step config) DeliveryStore.new.receive actions r ∧
        actions.flatMap ReceiveAction.log = log := by
    refine ⟨fun {r r' a log} _ hpath _ hstep => ?_⟩
    obtain ⟨actions, htrace, rfl⟩ := hpath
    exact ⟨actions ++ [a], htrace.append (.single hstep), by simp⟩
  exact (hinv.receive_run ⟨[], .nil _, rfl⟩
    (Machine.alongFrom_of_forall _ _ fun _ _ _ _ => .inr trivial)).2

/-- The message of an event. -/
def ReceiveEvent.key : ReceiveEvent → DedupKey
  | .released message => message.key
  | .admitted key | .completed key => key

namespace Receive

variable {r r' : Receive} {a : ReceiveAction}

/-- Every step keeps active messages apart from processed ones, whatever is rejected. -/
theorem RecordsValid.step (h : r.RecordsValid) (hstep : Step config r a r') : r'.RecordsValid := by
  cases hstep with
  | forget kept hkept => exact ⟨fun hactive hmem => h.disjoint hactive (hkept hmem), h.deadline⟩
  | touch epoch hactive =>
    have hdeadline := h.deadline hactive
    exact h.put (h.disjoint hactive) hdeadline
  | enroll deadline epoch _ _ hprocessed => exact h.put hprocessed (by simp)
  | expire | abandon | reject => exact h.drop _
  | fail scope | close peerId =>
    refine h.mono ?_ ?_
    · grind [Receive.fail, Receive.close]
    · grind [Receive.fail, Receive.close]
  | refuse => exact h.setChannel _ _
  | ready deadline _ hactive | buffer _ hactive =>
    exact (h.setChannel _ _).put (h.disjoint hactive) (by simp)
  | finish _ _ _ hkept => exact h.complete hkept
  | advance _ _ _ _ hkept => exact (h.setChannel _ _).complete hkept
  | promote deadline _ _ _ _ hrecord _ hne hkept =>
    refine ((h.setChannel _ _).complete hkept).put (fun hmem => ?_) (by simp)
    exact (hkept hmem).elim hne (h.disjoint hrecord)
  | stall => exact (h.setChannel _ _).drop _

/-- The application sees only messages that are not processed: the new ones, and those that have an
active record. -/
theorem RecordsValid.not_processed_of_log (h : r.RecordsValid) (hstep : Step config r a r')
    {event : ReceiveEvent} (hevent : event ∈ a.log) : event.key ∉ r.processed := by
  cases hstep with
  | enroll _ _ _ _ hprocessed =>
    obtain rfl := List.mem_singleton.mp hevent
    exact hprocessed
  | ready _ _ hactive | finish hactive | advance hactive =>
    obtain rfl := List.mem_singleton.mp hevent
    exact h.disjoint hactive
  | promote _ hactive _ _ _ hrecord =>
    rcases List.mem_pair.mp hevent with rfl | rfl
    · exact h.disjoint hactive
    · exact h.disjoint hrecord
  | _ => cases hevent

end Receive

theorem recordsValid_run (config : DeliveryConfig) (ops : List ReceiveOp) :
    ((receiveMachine config).run ops).receive.RecordsValid := by
  have hinv : ReceiveInvariant config (fun _ _ => True) fun r _ => r.RecordsValid :=
    ⟨fun _ h _ hstep => h.step hstep⟩
  exact (hinv.receive_run ⟨nofun, nofun⟩
    (Machine.alongFrom_of_forall _ _ fun _ _ _ _ => .inr trivial)).2

/-! ## Processed messages -/

section Remembered

variable {store : DeliveryStore} {key : DedupKey} {epoch now : ℕ} {event : ReceiveEvent}

theorem admitted_mem_receiveLog {op : ReceiveOp} {result : ReceiveResult}
    (h : .admitted key ∈ receiveLog (op, result)) :
    ∃ epoch now, op = .begin key epoch now ∧ result = .decision .new := by
  unfold receiveLog at h
  split at h
  · next heq =>
    cases heq
    cases List.mem_singleton.mp h
    exact ⟨_, _, rfl, rfl⟩
  · cases List.mem_singleton.mp h
  · rcases List.mem_cons.mp h with heq | hmem
    · cases heq
    · obtain ⟨m, -, heq⟩ := List.mem_map.mp hmem
      cases heq
  · cases h

theorem processedDedup_expireIncomingLocked (store : DeliveryStore) (now : ℕ)
    (peerId : Option String) :
    (expireIncomingLocked store now peerId).1.processedDedup = store.processedDedup := by
  have hfails : ∀ (scopes : List Scope) (acc : Expiry),
      (scopes.foldl Expiry.fail acc).store.processedDedup = acc.store.processedDedup := by
    intro scopes
    induction scopes with
    | nil => exact fun _ => rfl
    | cons scope scopes ih => exact fun acc => ih (acc.fail scope)
  have hvisits : ∀ (entries : List (DedupKey × ActiveIncomingRecord)) (acc : Expiry),
      (entries.foldl Expiry.visit acc).store.processedDedup = acc.store.processedDedup := by
    intro entries
    induction entries with
    | nil => exact fun _ => rfl
    | cons entry entries ih =>
      intro acc
      refine (ih (acc.visit entry)).trans ?_
      obtain heq | ⟨-, -, heq⟩ := Expiry.visit_cases acc entry <;> rw [heq]
  exact (hfails _ _).trans (hvisits _ _)

/-- **An admission as new** meets no record of the message, or one that has expired. -/
theorem expired_of_new (h : (beginIncoming config store key epoch now).2 = .new)
    {record : ProcessedDedupRecord} (hrecord : store.processedDedup.get? key = some record) :
    record.expiresAt ≤ now := by
  by_contra hlive
  have hadmitted := admitted_admitIncoming config
    (pruneProcessedDedup (expireIncomingLocked store now (some key.peerId)).1 now) key epoch now
  have hkept : key ∈ (pruneProcessedDedup
      (expireIncomingLocked store now (some key.peerId)).1 now).receive.processed := by
    refine Table.contains_eq_true.mpr ⟨record, ?_⟩
    rw [pruneProcessedDedup, processedDedup_expireIncomingLocked, Table.get?_retain, hrecord]
    simpa using hlive
  rw [beginIncoming] at h
  rw [h] at hadmitted
  exact hadmitted.not_processed hkept

end Remembered

/-- **A remembered message**: its record is in the history. An admission first drops the records
that have expired by then. -/
def Remembered (store : DeliveryStore) (op : ReceiveOp) (key : DedupKey) : Prop :=
  ∃ record, store.processedDedup.get? key = some record ∧
    ∀ begun epoch now, op = .begin begun epoch now → now < record.expiresAt

/-- **At most once**: in every run, no operation admits, releases or completes a message that is
remembered as processed. -/
theorem processed_not_repeated (config : DeliveryConfig) (ops : List ReceiveOp) (op : ReceiveOp) :
    ¬ ∃ event ∈ receiveLog (op, (receiveStep config ((receiveMachine config).run ops) op).2),
      Remembered ((receiveMachine config).run ops) op event.key := by
  rintro ⟨event, hevent, record, hrecord, hlive⟩
  obtain ⟨a, -, hlog, hstep⟩ | hpath := receiveStep_refines config _ op
  · rw [← hlog] at hevent
    refine (recordsValid_run config ops).not_processed_of_log hstep hevent ?_
    exact Table.contains_eq_true.mpr ⟨record, hrecord⟩
  · obtain ⟨key, rfl⟩ := hpath.admitted hevent
    obtain ⟨epoch, now, rfl, hnew⟩ := admitted_mem_receiveLog hevent
    have hexpired := expired_of_new (ReceiveResult.decision.inj hnew) hrecord
    have hfresh := hlive key epoch now rfl
    omega

end SshMobile.Delivery
