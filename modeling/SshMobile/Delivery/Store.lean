import SshMobile.Library.Bytes
import SshMobile.Library.Table
import SshMobile.Library.Word

/-!
# The delivery store

The application-layer delivery state of one device: what it still has to send, and what it has
received and not yet finished. A message keeps its identity, its peer and its `MessageId`, over
every connection that carries it; no session or route is part of any key.

Instants and durations are natural numbers of nanoseconds. The byte counters `pendingBytes` and
`reorderBytes` count payloads that are in memory at the same time, so their additions stay within
the machine word and are additions of natural numbers; sequence numbers, attempts and retry bytes
are not bounded that way and saturate as in the source.

## Main definitions

* `MessageId`, `DeliveryIdentity`, `DedupKey`: the identities of a message, as its sender and as
  its receiver keep them
* `DeliveryConfig`, `RetryPolicy`: the limits of the store and of one message
* `PendingMessage`, `OrderedMessage`: a message of the sender, and a message of the receiver
* `OrderedChannelState`: the receive state of one ordered channel
* `DeliveryStore`: the whole state
* `AssertDeliveryInvariants`: the predicate the debug build asserts after each receive operation
-/

namespace SshMobile.Delivery

open Library

/-- A peer and one of its channels. -/
abbrev Scope := String × String

def maxScopeIdBytes : ℕ := 128

def messageIdBytes : ℕ := 16

def maxTerminalOutcomes : ℕ := 4096

def maxActiveIncomingRecords : ℕ := 4096

def isValidScopeId (value : String) : Bool :=
  !value.isEmpty && decide (value.utf8ByteSize ≤ maxScopeIdBytes)

def isValidPeerId (peerId : String) : Bool := isValidScopeId peerId

/-- The stable identifier of an application message; a retransmission on another connection
keeps it. -/
structure MessageId where
  bytes : Vector UInt8 messageIdBytes
deriving DecidableEq

/-- The identifier whose bytes are all `n`. -/
def MessageId.fill (n : UInt8) : MessageId := ⟨Vector.replicate 16 n⟩

/-- The key of an acknowledgement on the sending side. -/
structure DeliveryIdentity where
  peerId : String
  messageId : MessageId
deriving DecidableEq

/-- What the application asks of the delivery of a message. -/
inductive DeliveryPolicy
  | bestEffort
  | latestState
  | acked
  | ackedDeduplicated
  | sessionBoundOrdered
  | resumableTransfer
deriving DecidableEq

inductive DeliveryState
  | queued
  | sending
  | sentUnacked
  | acked
  | expired
  | cancelled
  | failed
deriving DecidableEq

/-- The retry budget of one message. -/
structure RetryPolicy where
  maxAttempts : ℕ
  initialBackoff : ℕ
  maxBackoff : ℕ
  ttl : Option ℕ
  maxTotalRetryBytes : Option ℕ
deriving DecidableEq

def RetryPolicy.default : RetryPolicy where
  maxAttempts := 5
  initialBackoff := 250 * 10 ^ 6
  maxBackoff := 5 * 10 ^ 9
  ttl := some (10 * 60 * 10 ^ 9)
  maxTotalRetryBytes := some (64 * 1024 * 1024)

def RetryPolicy.isValid (p : RetryPolicy) : Bool :=
  decide (0 < p.maxAttempts) && decide (p.initialBackoff ≤ p.maxBackoff)

/-- The backoff doubles with each attempt, at most 31 times, up to `maxBackoff`. -/
def RetryPolicy.delayForAttempt (p : RetryPolicy) (attempt : ℕ) : ℕ :=
  min (p.initialBackoff * 2 ^ min (attempt - 1) 31) p.maxBackoff

/-- A message waiting for its acknowledgement. -/
structure PendingMessage where
  messageId : MessageId
  peerId : String
  channelId : String
  sequence : ℕ
  payload : Bytes
  policy : DeliveryPolicy
  state : DeliveryState
  attempts : ℕ
  createdAt : ℕ
  expiresAt : Option ℕ
  recoveryEpoch : ℕ
  retryPolicy : RetryPolicy
  nextRetryAt : ℕ
  retryBytes : ℕ
deriving DecidableEq

inductive DedupDecision
  | new
  | duplicateInFlight
  | duplicateProcessed
  | capacityExceeded
  | channelFailed
deriving DecidableEq

inductive DeliveryError
  | invalidScope
  | payloadTooLarge
  | invalidRetryPolicy
  | queueFull
  | notFound
  | expired
  | retryExhausted
deriving DecidableEq

inductive DeliveryTerminalOutcome
  | acknowledged
  | expired
  | cancelled
  | failed
deriving DecidableEq

/-- The limits of the queue and of the receive windows. -/
structure DeliveryConfig where
  maxPendingMessages : ℕ
  maxPendingBytes : ℕ
  maxPayloadBytes : ℕ
  dedupMaxEntries : ℕ
  dedupTtl : ℕ
  applicationAckTimeout : ℕ
  maxReorderMessages : ℕ
  maxReorderBytes : ℕ
  maxSequenceGap : ℕ

def DeliveryConfig.default : DeliveryConfig where
  maxPendingMessages := 1024
  maxPendingBytes := 16 * 1024 * 1024
  maxPayloadBytes := 1024 * 1024
  dedupMaxEntries := 4096
  dedupTtl := 10 * 60 * 10 ^ 9
  applicationAckTimeout := 5 * 60 * 10 ^ 9
  maxReorderMessages := 64
  maxReorderBytes := 4 * 1024 * 1024
  maxSequenceGap := 1024

/-- A received message waiting for its channel to release it. -/
structure OrderedMessage where
  peerId : String
  sessionId : String
  channelId : String
  messageId : MessageId
  sequence : ℕ
  policy : DeliveryPolicy
  payload : Bytes
deriving DecidableEq

def OrderedMessage.scope (m : OrderedMessage) : Scope := (m.peerId, m.channelId)

inductive OrderedInsertResult
  | ready
  | buffered
  | duplicate
  | rejected
deriving DecidableEq

structure IncomingCompletion where
  recoveryEpoch : ℕ
  nextOrdered : Option OrderedMessage
deriving DecidableEq

structure IncomingTimeout where
  peerId : String
  channelId : String
  messageId : MessageId
  orderedChannelFailed : Bool
deriving DecidableEq

/-- The key of a received message. -/
structure DedupKey where
  peerId : String
  channelId : String
  messageId : MessageId
deriving DecidableEq

def DedupKey.scope (key : DedupKey) : Scope := (key.peerId, key.channelId)

def OrderedMessage.key (m : OrderedMessage) : DedupKey := ⟨m.peerId, m.channelId, m.messageId⟩

/-- The key of the message `messageId` of a scope. -/
def Scope.key (scope : Scope) (messageId : MessageId) : DedupKey := ⟨scope.1, scope.2, messageId⟩

@[simp] theorem DedupKey.scope_key (key : DedupKey) : Scope.key key.scope key.messageId = key := rfl

theorem OrderedMessage.key_eq (m : OrderedMessage) : m.key = Scope.key m.scope m.messageId := rfl

theorem Scope.key_inj {scope scope' : Scope} {a b : MessageId} :
    Scope.key scope a = Scope.key scope' b ↔ scope = scope' ∧ a = b := by
  constructor
  · intro h
    exact ⟨congrArg DedupKey.scope h, congrArg DedupKey.messageId h⟩
  · rintro ⟨rfl, rfl⟩
    rfl

inductive ActiveIncomingState
  | inFlight
  | orderedBuffered
deriving DecidableEq

/-- A received message the application has not finished: released to it with a deadline, or
buffered by its channel without one. -/
structure ActiveIncomingRecord where
  ackDeadline : Option ℕ
  recoveryEpoch : ℕ
  state : ActiveIncomingState
deriving DecidableEq

/-- A finished message, remembered to recognise its duplicates. -/
structure ProcessedDedupRecord where
  expiresAt : ℕ
  lastSeenAt : ℕ
  recoveryEpoch : ℕ
deriving DecidableEq

/-- The receive state of one ordered channel: the next sequence to release, the released message
the application has not acknowledged, and the messages that came early. -/
structure OrderedChannelState where
  expectedSequence : ℕ
  inFlight : Option MessageId
  reorderBuffer : Table ℕ OrderedMessage
  reorderBytes : ℕ
deriving DecidableEq

def OrderedChannelState.default : OrderedChannelState := ⟨0, none, ∅, 0⟩

structure DeliveryStore where
  pending : Table DeliveryIdentity PendingMessage
  pendingBytes : ℕ
  terminalOutcomes : Table DeliveryIdentity DeliveryTerminalOutcome
  nextSequences : Table Scope ℕ
  recoveryEpochs : Table String ℕ
  incomingActive : Table DedupKey ActiveIncomingRecord
  processedDedup : Table DedupKey ProcessedDedupRecord
  ordered : Table Scope OrderedChannelState
  failedOrdered : Finset Scope
deriving DecidableEq

def DeliveryStore.new : DeliveryStore := ⟨∅, 0, ∅, ∅, ∅, ∅, ∅, ∅, ∅⟩

/-- What the debug build asserts of one active record. -/
def ActiveRecordInvariant (store : DeliveryStore) (key : DedupKey)
    (record : ActiveIncomingRecord) : Prop :=
  store.processedDedup.contains key = false ∧
    (record.state = .inFlight → record.ackDeadline.isSome) ∧
    (record.state = .orderedBuffered → record.ackDeadline.isNone ∧
      ∃ ordered ∈ store.ordered.get? key.scope,
        ∃ entry ∈ ordered.reorderBuffer.toList, entry.2.messageId = key.messageId)

/-- What the debug build asserts of one ordered channel. -/
def OrderedChannelInvariant (store : DeliveryStore) (scope : Scope)
    (ordered : OrderedChannelState) : Prop :=
  (∀ messageId ∈ ordered.inFlight, ∃ record ∈ store.incomingActive.get? (scope.key messageId),
      record.state = .inFlight) ∧
    ∀ entry ∈ ordered.reorderBuffer.toList,
      ∃ record ∈ store.incomingActive.get? entry.2.key, record.state = .orderedBuffered

/-- **The asserted invariant** of the receive side. -/
def AssertDeliveryInvariants (store : DeliveryStore) : Prop :=
  (∀ entry ∈ store.incomingActive.toList, ActiveRecordInvariant store entry.1 entry.2) ∧
    ∀ entry ∈ store.ordered.toList, OrderedChannelInvariant store entry.1 entry.2

instance (store : DeliveryStore) (key : DedupKey) (record : ActiveIncomingRecord) :
    Decidable (ActiveRecordInvariant store key record) := by
  unfold ActiveRecordInvariant
  infer_instance

instance (store : DeliveryStore) (scope : Scope) (ordered : OrderedChannelState) :
    Decidable (OrderedChannelInvariant store scope ordered) := by
  unfold OrderedChannelInvariant
  infer_instance

instance (store : DeliveryStore) : Decidable (AssertDeliveryInvariants store) := by
  unfold AssertDeliveryInvariants
  infer_instance

end SshMobile.Delivery
