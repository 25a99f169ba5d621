import SshMobile.Delivery.Store
import SshMobile.Library.Machine

/-!
# The send operations

The operations of the sending side, each one critical section on the store. A message is enqueued
with the next sequence of its channel and a fresh random identifier, sent in attempts that each
hold a lease, and leaves the queue with one terminal outcome: an acknowledgement, a cancellation,
its expiry or an exhausted retry budget.

The random source is the list of candidates that one `enqueue` draws; a call whose candidates are
all taken still holds the lock and has no effect yet. Where the source walks a hash map, the walk is
a parameter `HashOrder`; the history of outcomes is walked again after each change, so its order
may depend on its contents.

## Main definitions

* `removePending`, `recordTerminal`, `settle`: how a message leaves the queue
* `resolvePendingIdentity`, `nextMessageId`, `isExpired`: the lookups
* `enqueueAt`, `beginSendInner`, `markSentInner`, `markSendFailedInner`, `acknowledge`, `cancel`,
  `recoverPeerAt`, `retryableMessages`: the operations
* `SendOp`, `sendStep`, `sendMachine`: one operation with its arguments, and the runs
-/

namespace SshMobile.Delivery

open Library

/-- The orders in which one call walks the hash maps of the sending side. -/
structure HashOrder where
  pending : DeliveryIdentity → ℕ
  terminal : Table DeliveryIdentity DeliveryTerminalOutcome → DeliveryIdentity → ℕ

/-- The walk in the order in which the maps are stored. -/
def HashOrder.zero : HashOrder := ⟨fun _ => 0, fun _ _ => 0⟩

def PendingMessage.identity (m : PendingMessage) : DeliveryIdentity := ⟨m.peerId, m.messageId⟩

/-! ## Leaving the queue -/

def removePending (store : DeliveryStore) (identity : DeliveryIdentity) :
    DeliveryStore × Option PendingMessage :=
  match store.pending.get? identity with
  | none => (store, none)
  | some message =>
    ({ store with
        pending := store.pending.erase identity
        pendingBytes := store.pendingBytes - message.payload.length }, some message)

/-- The history with room for one more outcome: a full one loses the first key of its walk. -/
def evictTerminal (order : HashOrder) (outcomes : Table DeliveryIdentity DeliveryTerminalOutcome)
    (identity : DeliveryIdentity) : Table DeliveryIdentity DeliveryTerminalOutcome :=
  if !outcomes.contains identity && decide (maxTerminalOutcomes ≤ outcomes.size) then
    match (outcomes.iter (order.terminal outcomes)).head? with
    | some oldest => outcomes.erase oldest.1
    | none => outcomes
  else outcomes

def recordTerminal (order : HashOrder) (store : DeliveryStore) (identity : DeliveryIdentity)
    (outcome : DeliveryTerminalOutcome) : DeliveryStore :=
  let outcomes := evictTerminal order store.terminalOutcomes identity
  { store with
    terminalOutcomes :=
      if outcomes.contains identity then outcomes else outcomes.insert identity outcome }

/-- A pending message leaves the queue with its outcome. -/
def settle (order : HashOrder) (store : DeliveryStore) (identity : DeliveryIdentity)
    (outcome : DeliveryTerminalOutcome) : DeliveryStore :=
  recordTerminal order (removePending store identity).1 identity outcome

/-- The pending messages of the list leave the queue, in its order. -/
def settleAll (order : HashOrder) (outcome : DeliveryTerminalOutcome) (store : DeliveryStore)
    (identities : List DeliveryIdentity) : DeliveryStore :=
  identities.foldl (fun store identity =>
    if store.pending.contains identity then settle order store identity outcome else store) store

/-! ## Lookups -/

def isExpired (message : PendingMessage) (now : ℕ) : Bool :=
  message.expiresAt.any fun expiresAt => decide (expiresAt ≤ now)

def resolvePendingIdentity (store : DeliveryStore) (expectedPeerId : Option String)
    (messageId : MessageId) : Option DeliveryIdentity :=
  match expectedPeerId with
  | some peerId =>
    if store.pending.contains ⟨peerId, messageId⟩ then some ⟨peerId, messageId⟩ else none
  | none =>
    match (store.pending.toList.map Prod.fst).filter fun identity =>
        decide (identity.messageId = messageId) with
    | [identity] => some identity
    | _ => none

/-- The first candidate that no pending message and no recorded outcome of the peer uses. -/
def nextMessageId (candidates : List MessageId) (store : DeliveryStore) (peerId : String) :
    Option MessageId :=
  candidates.find? fun candidate =>
    !store.pending.contains ⟨peerId, candidate⟩ &&
      !store.terminalOutcomes.contains ⟨peerId, candidate⟩

/-! ## The operations -/

/-- The latest-state messages that a new one of the same channel replaces. -/
def obsoleteIdentities (order : HashOrder) (store : DeliveryStore) (peerId channelId : String) :
    List DeliveryIdentity :=
  ((store.pending.iter order.pending).filter fun entry =>
    decide (entry.2.peerId = peerId ∧ entry.2.channelId = channelId ∧
      entry.2.policy = .latestState)).map Prod.fst

/-- The store after a latest-state message has replaced the older ones of its channel. -/
def replaceLatestState (order : HashOrder) (store : DeliveryStore) (peerId channelId : String)
    (policy : DeliveryPolicy) : DeliveryStore :=
  if policy = .latestState then
    settleAll order .cancelled store (obsoleteIdentities order store peerId channelId)
  else store

def queueFull (config : DeliveryConfig) (store : DeliveryStore) (payload : Bytes)
    (policy : DeliveryPolicy) : Bool :=
  decide (policy ≠ .bestEffort) &&
    (decide (config.maxPendingMessages ≤ store.pending.size) ||
      decide (config.maxPendingBytes < store.pendingBytes + payload.length))

/-- The sequence of the next message of a channel. -/
def nextSequence (store : DeliveryStore) (scope : Scope) : ℕ :=
  (store.nextSequences.get? scope).getD 0

def newMessage (store : DeliveryStore) (peerId channelId : String) (payload : Bytes)
    (policy : DeliveryPolicy) (retryPolicy : RetryPolicy) (now : ℕ) (messageId : MessageId) :
    PendingMessage where
  messageId := messageId
  peerId := peerId
  channelId := channelId
  sequence := nextSequence store (peerId, channelId)
  payload := payload
  policy := policy
  state := .queued
  attempts := 0
  createdAt := now
  expiresAt := retryPolicy.ttl.map fun ttl => now + ttl
  recoveryEpoch := (store.recoveryEpochs.get? peerId).getD 0
  retryPolicy := retryPolicy
  nextRetryAt := now
  retryBytes := 0

/-- The store with the sequence of the message used up. -/
def allocateSequence (store : DeliveryStore) (scope : Scope) : DeliveryStore :=
  { store with
    nextSequences := store.nextSequences.insert scope
      (saturatingAdd u64Max (nextSequence store scope) 1) }

/-- The store with the message in the queue; a best-effort message is not kept. -/
def storePending (store : DeliveryStore) (message : PendingMessage) : DeliveryStore :=
  if message.policy = .bestEffort then store
  else
    { store with
      pendingBytes := store.pendingBytes + message.payload.length
      pending := store.pending.insert message.identity message }

/-- `none` when every candidate is taken: the call goes on drawing. -/
def enqueueAt (config : DeliveryConfig) (order : HashOrder) (candidates : List MessageId)
    (store : DeliveryStore) (peerId channelId : String) (payload : Bytes) (policy : DeliveryPolicy)
    (retryPolicy : RetryPolicy) (now : ℕ) :
    Option (DeliveryStore × Except DeliveryError PendingMessage) :=
  if !isValidScopeId peerId || !isValidScopeId channelId then
    some (store, .error .invalidScope)
  else if config.maxPayloadBytes < payload.length then
    some (store, .error .payloadTooLarge)
  else if !retryPolicy.isValid then
    some (store, .error .invalidRetryPolicy)
  else
    let replaced := replaceLatestState order store peerId channelId policy
    if queueFull config replaced payload policy then some (replaced, .error .queueFull)
    else
      match nextMessageId candidates replaced peerId with
      | none => none
      | some messageId =>
        let message := newMessage replaced peerId channelId payload policy retryPolicy now messageId
        some (storePending (allocateSequence replaced (peerId, channelId)) message, .ok message)

theorem isValidScopeId_iff {value : String} :
    isValidScopeId value = true ↔
      1 ≤ value.utf8ByteSize ∧ value.utf8ByteSize ≤ maxScopeIdBytes := by
  simp only [isValidScopeId, String.isEmpty, Bool.and_eq_true, Bool.not_eq_true',
    beq_eq_false_iff_ne, decide_eq_true_eq, Nat.one_le_iff_ne_zero]

/-- **An accepted message**: its scope and its payload are valid, and it was built from them. -/
theorem enqueueAt_message {config : DeliveryConfig} {order : HashOrder}
    {candidates : List MessageId} {s s' : DeliveryStore} {peerId channelId : String}
    {payload : Bytes} {policy : DeliveryPolicy} {retryPolicy : RetryPolicy} {now : ℕ}
    {m : PendingMessage}
    (h : enqueueAt config order candidates s peerId channelId payload policy retryPolicy now =
      some (s', .ok m)) :
    isValidScopeId channelId = true ∧ m.channelId = channelId ∧ m.payload = payload ∧
      m.policy = policy := by
  unfold enqueueAt at h
  dsimp only at h
  by_cases hvalid : (!isValidScopeId peerId || !isValidScopeId channelId) = true
  · rw [if_pos hvalid] at h
    cases h
  · rw [if_neg hvalid] at h
    split_ifs at h
    all_goals try cases h
    split at h
    · cases h
    · cases h
      simp only [Bool.or_eq_true, Bool.not_eq_true', not_or, Bool.not_eq_false] at hvalid
      exact ⟨hvalid.2, rfl, rfl, rfl⟩

/-- The message with one more attempt under way. -/
def PendingMessage.begin (m : PendingMessage) : PendingMessage :=
  { m with
    attempts := saturatingAdd u32Max m.attempts 1
    retryBytes := saturatingAdd u64Max m.retryBytes
      (if 1 < saturatingAdd u32Max m.attempts 1 then m.payload.length else 0)
    state := .sending }

/-- The retry budget does not allow the counters of `m`. -/
def PendingMessage.overBudget (m : PendingMessage) : Bool :=
  decide (m.retryPolicy.maxAttempts < m.attempts) ||
    m.retryPolicy.maxTotalRetryBytes.any fun limit => decide (limit < m.retryBytes)

/-- The message waits: it is being sent, it is settled, or its retry time has not come. -/
def PendingMessage.notDue (m : PendingMessage) (now : ℕ) : Bool :=
  decide (m.state ≠ .queued ∧ m.state ≠ .sentUnacked) || decide (now < m.nextRetryAt)

def beginSendInner (order : HashOrder) (store : DeliveryStore) (expectedPeerId : Option String)
    (messageId : MessageId) (now : ℕ) :
    DeliveryStore × Except DeliveryError (Option PendingMessage) :=
  if expectedPeerId.any (fun peerId => !store.pending.contains ⟨peerId, messageId⟩) &&
      store.pending.toList.any fun entry => decide (entry.1.messageId = messageId) then
    (store, .error .invalidScope)
  else
    match resolvePendingIdentity store expectedPeerId messageId with
    | none => (store, .error .notFound)
    | some identity =>
      match store.pending.get? identity with
      | none => (store, .error .notFound)
      | some message =>
        if isExpired message now then (settle order store identity .expired, .error .expired)
        else if message.notDue now then (store, .ok none)
        else if message.begin.overBudget then
          (settle order store identity .failed, .error .retryExhausted)
        else
          ({ store with pending := store.pending.insert identity message.begin },
            .ok (some message.begin))

/-- The lease of one transport send attempt. -/
structure DeliverySendAttempt where
  peerId : String
  messageId : MessageId
  attempt : ℕ
  message : PendingMessage
deriving DecidableEq

def beginSendForPeer (order : HashOrder) (store : DeliveryStore) (peerId : String)
    (messageId : MessageId) (now : ℕ) :
    DeliveryStore × Except DeliveryError (Option DeliverySendAttempt) :=
  if !isValidPeerId peerId then (store, .error .invalidScope)
  else
    let result := beginSendInner order store (some peerId) messageId now
    (result.1, result.2.map fun message => message.map fun message =>
      ⟨peerId, messageId, message.attempts, message⟩)

def markSentInner (store : DeliveryStore) (expectedPeerId : Option String)
    (expectedAttempt : Option ℕ) (messageId : MessageId) (now : ℕ) : DeliveryStore × Bool :=
  match resolvePendingIdentity store expectedPeerId messageId with
  | none => (store, false)
  | some identity =>
    match store.pending.get? identity with
    | none => (store, false)
    | some message =>
      if message.state ≠ .sending ∨
          expectedAttempt.any fun attempt => decide (message.attempts ≠ attempt) then
        (store, false)
      else
        ({ store with
            pending := store.pending.insert identity { message with
              state := .sentUnacked
              nextRetryAt := now + message.retryPolicy.delayForAttempt message.attempts } }, true)

inductive RetryDecision
  | retryAt (instant : ℕ)
  | failed
  | expired
  | notFound
deriving DecidableEq

/-- The retry budget does not allow a further attempt. -/
def PendingMessage.exhausted (m : PendingMessage) : Bool :=
  decide (m.retryPolicy.maxAttempts ≤ m.attempts) ||
    m.retryPolicy.maxTotalRetryBytes.any fun limit =>
      decide (limit < saturatingAdd u64Max m.retryBytes m.payload.length)

def markSendFailedInner (order : HashOrder) (store : DeliveryStore)
    (expectedPeerId : Option String) (expectedAttempt : Option ℕ) (messageId : MessageId)
    (now : ℕ) : DeliveryStore × RetryDecision :=
  match resolvePendingIdentity store expectedPeerId messageId with
  | none => (store, .notFound)
  | some identity =>
    match store.pending.get? identity with
    | none => (store, .notFound)
    | some message =>
      if isExpired message now then (settle order store identity .expired, .expired)
      else if expectedAttempt.any fun attempt =>
          decide (message.state ≠ .sending ∨ message.attempts ≠ attempt) then
        (store, .notFound)
      else if message.exhausted then (settle order store identity .failed, .failed)
      else
        let retryAt := now + message.retryPolicy.delayForAttempt message.attempts
        ({ store with
            pending := store.pending.insert identity
              { message with state := .queued, nextRetryAt := retryAt } }, .retryAt retryAt)

def markSentForAttempt (store : DeliveryStore) (attempt : DeliverySendAttempt) (now : ℕ) :
    DeliveryStore × Bool :=
  markSentInner store (some attempt.peerId) (some attempt.attempt) attempt.messageId now

def markSendFailedForAttempt (order : HashOrder) (store : DeliveryStore)
    (attempt : DeliverySendAttempt) (now : ℕ) : DeliveryStore × RetryDecision :=
  markSendFailedInner order store (some attempt.peerId) (some attempt.attempt) attempt.messageId now

inductive AckResult
  | acknowledged
  | unknown
deriving DecidableEq

def acknowledge (order : HashOrder) (store : DeliveryStore) (peerId : String)
    (messageId : MessageId) : DeliveryStore × AckResult :=
  if !isValidPeerId peerId then (store, .unknown)
  else if !store.pending.contains ⟨peerId, messageId⟩ then (store, .unknown)
  else (settle order store ⟨peerId, messageId⟩ .acknowledged, .acknowledged)

def cancel (order : HashOrder) (store : DeliveryStore) (messageId : MessageId) :
    DeliveryStore × Bool :=
  match resolvePendingIdentity store none messageId with
  | none => (store, false)
  | some identity => (settle order store identity .cancelled, true)

/-- The pending messages of a peer, in the order of the walk. -/
def peerMessages (order : HashOrder) (store : DeliveryStore) (peerId : String) :
    List (DeliveryIdentity × PendingMessage) :=
  (store.pending.iter order.pending).filter fun entry => decide (entry.2.peerId = peerId)

def expiredIdentities (messages : List (DeliveryIdentity × PendingMessage)) (now : ℕ) :
    List DeliveryIdentity :=
  (messages.filter fun entry => isExpired entry.2 now).map Prod.fst

/-- The live messages of the list after `update`, written back to the store. -/
def updateLive (update : PendingMessage → PendingMessage) (now : ℕ) (store : DeliveryStore)
    (messages : List (DeliveryIdentity × PendingMessage)) : DeliveryStore :=
  messages.foldl (fun store entry =>
    if isExpired entry.2 now then store
    else { store with pending := store.pending.insert entry.1 (update entry.2) }) store

def bySequence (messages : List PendingMessage) : List PendingMessage :=
  messages.insertionSort fun a b => a.sequence ≤ b.sequence

structure RecoverySnapshot where
  recoveryEpoch : ℕ
  messages : List PendingMessage
deriving DecidableEq

def nextRecoveryEpoch (store : DeliveryStore) (peerId : String) : ℕ :=
  match store.recoveryEpochs.get? peerId with
  | some epoch => saturatingAdd u64Max epoch 1
  | none => 1

/-- Recovery puts every live message of the peer back in the queue. -/
def PendingMessage.requeue (epoch now : ℕ) (m : PendingMessage) : PendingMessage :=
  { m with state := .queued, nextRetryAt := now, recoveryEpoch := epoch }

def recoverPeerAt (order : HashOrder) (store : DeliveryStore) (peerId : String) (now : ℕ) :
    DeliveryStore × RecoverySnapshot :=
  let epoch := nextRecoveryEpoch store peerId
  let messages := peerMessages order store peerId
  let updated := updateLive (PendingMessage.requeue epoch now) now
    { store with recoveryEpochs := store.recoveryEpochs.insert peerId epoch } messages
  (settleAll order .expired updated (expiredIdentities messages now),
    ⟨epoch, bySequence ((messages.filter fun entry => !isExpired entry.2 now).map fun entry =>
      entry.2.requeue epoch now)⟩)

/-- An unacknowledged message whose retry time has come goes back in the queue. -/
def PendingMessage.retry (now : ℕ) (m : PendingMessage) : PendingMessage :=
  if m.state = .sentUnacked ∧ m.nextRetryAt ≤ now then
    { m with state := .queued, nextRetryAt := now }
  else m

def PendingMessage.retryable (m : PendingMessage) (now : ℕ) : Bool :=
  decide ((m.state = .sentUnacked ∨ m.state = .queued) ∧ m.nextRetryAt ≤ now)

def retryableMessages (order : HashOrder) (store : DeliveryStore) (peerId : String) (now : ℕ) :
    DeliveryStore × List PendingMessage :=
  let messages := peerMessages order store peerId
  let updated := updateLive (PendingMessage.retry now) now store messages
  (settleAll order .expired updated (expiredIdentities messages now),
    bySequence ((messages.filter fun entry =>
      !isExpired entry.2 now && entry.2.retryable now).map fun entry => entry.2.retry now))

/-! ## Runs -/

/-- One send operation with its arguments. `none` stands for the forms that take no peer or no
attempt. -/
inductive SendOp
  | enqueue (peerId channelId : String) (payload : Bytes) (policy : DeliveryPolicy)
    (retryPolicy : RetryPolicy) (now : ℕ) (candidates : List MessageId)
  | beginSend (messageId : MessageId) (now : ℕ)
  | beginSendForPeer (peerId : String) (messageId : MessageId) (now : ℕ)
  | markSent (messageId : MessageId) (now : ℕ)
  | markSentForAttempt (attempt : DeliverySendAttempt) (now : ℕ)
  | markSendFailed (messageId : MessageId) (now : ℕ)
  | markSendFailedForAttempt (attempt : DeliverySendAttempt) (now : ℕ)
  | acknowledge (peerId : String) (messageId : MessageId)
  | cancel (messageId : MessageId)
  | recoverPeer (peerId : String) (now : ℕ)
  | retryableMessages (peerId : String) (now : ℕ)

inductive SendResult
  | drawing
  | enqueued (result : Except DeliveryError PendingMessage)
  | began (result : Except DeliveryError (Option PendingMessage))
  | leased (result : Except DeliveryError (Option DeliverySendAttempt))
  | sent (result : Bool)
  | sendFailed (decision : RetryDecision)
  | ack (result : AckResult)
  | cancelled (result : Bool)
  | recovered (snapshot : RecoverySnapshot)
  | retryable (messages : List PendingMessage)

def sendStep (config : DeliveryConfig) (store : DeliveryStore) :
    SendOp × HashOrder → DeliveryStore × SendResult
  | (.enqueue peerId channelId payload policy retryPolicy now candidates, order) =>
    match enqueueAt config order candidates store peerId channelId payload policy retryPolicy
      now with
    | some result => (result.1, .enqueued result.2)
    | none => (store, .drawing)
  | (.beginSend messageId now, order) =>
    (beginSendInner order store none messageId now).map id .began
  | (.beginSendForPeer peerId messageId now, order) =>
    (beginSendForPeer order store peerId messageId now).map id .leased
  | (.markSent messageId now, _) => (markSentInner store none none messageId now).map id .sent
  | (.markSentForAttempt attempt now, _) => (markSentForAttempt store attempt now).map id .sent
  | (.markSendFailed messageId now, order) =>
    (markSendFailedInner order store none none messageId now).map id .sendFailed
  | (.markSendFailedForAttempt attempt now, order) =>
    (markSendFailedForAttempt order store attempt now).map id .sendFailed
  | (.acknowledge peerId messageId, order) =>
    (acknowledge order store peerId messageId).map id .ack
  | (.cancel messageId, order) => (cancel order store messageId).map id .cancelled
  | (.recoverPeer peerId now, order) => (recoverPeerAt order store peerId now).map id .recovered
  | (.retryableMessages peerId now, order) =>
    (retryableMessages order store peerId now).map id .retryable

/-- The runs of the sending side: every list of operations from the empty store. -/
def sendMachine (config : DeliveryConfig) :
    Machine DeliveryStore (SendOp × HashOrder) SendResult where
  start := .new
  step := sendStep config

end SshMobile.Delivery
