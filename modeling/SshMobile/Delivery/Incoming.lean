import SshMobile.Delivery.Ordered
import SshMobile.Library.Machine

/-!
# The receive operations

The operations of the receive side, each one critical section on the store. `beginIncoming`
registers a message before its handler runs, `acceptOrderedAt` inserts a registered message in its
ordered channel, `completeIncomingAt` is the acknowledgement of the application, and
`rejectIncoming`, `abandonIncoming`, `expireIncoming` and `closePeer` are the ways out.

A completion may evict the least recently seen entry of the processed history; among entries last
seen at the same time it takes the first in the iteration order of the map, the parameter `order`.

## Main definitions

* `failOrderedChannel`, `expireIncomingLocked`, `pruneProcessedDedup`, `rememberProcessed`: the
  parts the operations share
* `beginIncoming`, `acceptOrderedAt`, `completeIncomingAt`, `abandonIncoming`, `rejectIncoming`,
  `expireIncoming`, `closePeer`: the operations
* `ReceiveOp`, `receiveStep`: one operation with its arguments, and its effect
* `receiveMachine`: the runs of the receive side

## Main results

* `get?_of_evictProcessed`: the eviction only removes entries
-/

namespace SshMobile.Delivery

open Library

/-! ## The processed history -/

def pruneProcessedDedup (store : DeliveryStore) (now : ℕ) : DeliveryStore :=
  { store with
    processedDedup := store.processedDedup.retain fun _ record =>
      decide (now < record.expiresAt) }

/-- The entry seen longest ago, the first one in the iteration order among equals. -/
def oldestProcessed (order : DedupKey → ℕ) (history : Table DedupKey ProcessedDedupRecord) :
    Option DedupKey :=
  ((history.iter order).argmin fun entry => entry.2.lastSeenAt).map Prod.fst

/-- The eviction loop: the oldest entry goes while the history holds `maxEntries` or more. The
fuel bounds the rounds; the size of the history is enough. -/
def evictProcessed (order : DedupKey → ℕ) (maxEntries : ℕ) :
    ℕ → Table DedupKey ProcessedDedupRecord → Table DedupKey ProcessedDedupRecord
  | 0, history => history
  | fuel + 1, history =>
    if history.size < maxEntries then history
    else
      match oldestProcessed order history with
      | none => history
      | some oldest => evictProcessed order maxEntries fuel (history.erase oldest)

def rememberProcessed (order : DedupKey → ℕ) (store : DeliveryStore) (key : DedupKey)
    (record : ProcessedDedupRecord) (maxEntries : ℕ) : DeliveryStore :=
  if maxEntries = 0 then store
  else
    let live := store.processedDedup.retain fun _ existing =>
      decide (record.lastSeenAt < existing.expiresAt)
    { store with
      processedDedup := (evictProcessed order maxEntries live.size live).insert key record }

/-! ## Failure of an ordered channel -/

/-- The keys a failing channel takes with it: its in-flight message, its buffered messages and
every active record of its scope. -/
def affectedKeys (store : DeliveryStore) (scope : Scope) : List DedupKey :=
  (match store.ordered.get? scope with
    | some ordered =>
      (ordered.inFlight.toList.map scope.key) ++
        (ordered.reorderBuffer.toList.map fun entry => entry.2.key)
    | none => []) ++
    (store.incomingActive.toList.map Prod.fst).filter fun key => decide (key.scope = scope)

def failOrderedChannel (store : DeliveryStore) (scope : Scope) :
    DeliveryStore × List DedupKey :=
  let affected := (affectedKeys store scope).dedup
  ({ store with
      ordered := store.ordered.erase scope
      incomingActive := store.incomingActive.retain fun key _ => decide (key ∉ affected)
      failedOrdered := insert scope store.failedOrdered }, affected)

/-! ## Application timeouts -/

/-- The in-flight record has passed its deadline. -/
def ActiveIncomingRecord.timedOut (record : ActiveIncomingRecord) (now : ℕ) : Bool :=
  match record.state with
  | .inFlight => record.ackDeadline.any fun deadline => decide (deadline ≤ now)
  | .orderedBuffered => false

/-- The record of `key` is the in-flight message of its ordered channel. -/
def isOrderedInFlight (store : DeliveryStore) (key : DedupKey) : Bool :=
  match store.ordered.get? key.scope with
  | some ordered => decide (ordered.inFlight = some key.messageId)
  | none => false

/-- The state of the expiry loops: the store, the scopes to fail and the timeouts so far. -/
structure Expiry where
  store : DeliveryStore
  orderedScopes : List Scope
  expired : List IncomingTimeout

/-- One timed-out record: its scope is marked when the record is ordered, else the record goes. -/
def Expiry.visit (acc : Expiry) (entry : DedupKey × ActiveIncomingRecord) : Expiry :=
  if entry.2.state = .orderedBuffered ∨ isOrderedInFlight acc.store entry.1 then
    { acc with orderedScopes := acc.orderedScopes.insert entry.1.scope }
  else if acc.store.incomingActive.contains entry.1 then
    { acc with
      store := { acc.store with incomingActive := acc.store.incomingActive.erase entry.1 }
      expired := acc.expired ++
        [⟨entry.1.peerId, entry.1.channelId, entry.1.messageId, false⟩] }
  else acc

/-- One marked scope fails, with every record it holds. -/
def Expiry.fail (acc : Expiry) (scope : Scope) : Expiry :=
  { acc with
    store := (failOrderedChannel acc.store scope).1
    expired := acc.expired ++ (failOrderedChannel acc.store scope).2.map fun key =>
      ⟨key.peerId, key.channelId, key.messageId, true⟩ }

def timedOutRecords (store : DeliveryStore) (now : ℕ) (peerId : Option String) :
    List (DedupKey × ActiveIncomingRecord) :=
  store.incomingActive.toList.filter fun entry =>
    peerId.all (fun peer => decide (entry.1.peerId = peer)) && entry.2.timedOut now

def expireIncomingLocked (store : DeliveryStore) (now : ℕ) (peerId : Option String) :
    DeliveryStore × List IncomingTimeout :=
  let visited := (timedOutRecords store now peerId).foldl Expiry.visit ⟨store, [], []⟩
  let failed := visited.orderedScopes.foldl Expiry.fail visited
  (failed.store, failed.expired)

/-! ## The operations -/

/-- The decision on a message once expired and pruned records are gone. -/
def admitIncoming (config : DeliveryConfig) (store : DeliveryStore) (key : DedupKey)
    (recoveryEpoch now : ℕ) : DeliveryStore × DedupDecision :=
  if key.scope ∈ store.failedOrdered then (store, .channelFailed)
  else
    match store.incomingActive.get? key with
    | some record =>
      ({ store with
          incomingActive := store.incomingActive.insert key { record with recoveryEpoch } },
        .duplicateInFlight)
    | none =>
      match store.processedDedup.get? key with
      | some _ =>
        ({ store with
            processedDedup := store.processedDedup.insert key
              { recoveryEpoch, lastSeenAt := now, expiresAt := now + config.dedupTtl } },
          .duplicateProcessed)
      | none =>
        if maxActiveIncomingRecords ≤ store.incomingActive.size then (store, .capacityExceeded)
        else
          ({ store with
              incomingActive := store.incomingActive.insert key
                { ackDeadline := some (now + config.applicationAckTimeout)
                  recoveryEpoch
                  state := .inFlight } },
            .new)

def beginIncoming (config : DeliveryConfig) (store : DeliveryStore) (key : DedupKey)
    (recoveryEpoch now : ℕ) : DeliveryStore × DedupDecision :=
  admitIncoming config
    (pruneProcessedDedup (expireIncomingLocked store now (some key.peerId)).1 now)
    key recoveryEpoch now

def beginIncomingChecked (config : DeliveryConfig) (store : DeliveryStore) (key : DedupKey)
    (recoveryEpoch now : ℕ) : DeliveryStore × Except DeliveryError DedupDecision :=
  if !isValidPeerId key.peerId || !isValidScopeId key.channelId then
    (store, .error .invalidScope)
  else
    let result := beginIncoming config store key recoveryEpoch now
    (result.1, .ok result.2)

def acceptOrderedAt (config : DeliveryConfig) (store : DeliveryStore) (message : OrderedMessage)
    (now : ℕ) : DeliveryStore × OrderedInsertResult :=
  if !isValidPeerId message.peerId || !isValidScopeId message.channelId then
    (store, .rejected)
  else if message.scope ∈ store.failedOrdered then
    (store, .rejected)
  else
    match store.incomingActive.get? message.key with
    | none => (store, .rejected)
    | some record =>
      let inserted := ((store.ordered.get? message.scope).getD .default).insert message
        config.maxReorderMessages config.maxReorderBytes config.maxSequenceGap
      let store := { store with ordered := store.ordered.insert message.scope inserted.1 }
      match inserted.2 with
      | .ready =>
        ({ store with
            incomingActive := store.incomingActive.insert message.key
              { record with
                state := .inFlight
                ackDeadline := some (now + config.applicationAckTimeout) } }, .ready)
      | .buffered =>
        ({ store with
            incomingActive := store.incomingActive.insert message.key
              { record with state := .orderedBuffered, ackDeadline := none } }, .buffered)
      | result => (store, result)

/-- A completion passes when its message is in flight on its ordered channel, or when the channel
waits for no message and the record is not a buffered one. -/
def completionGate (store : DeliveryStore) (key : DedupKey) (active : ActiveIncomingRecord) :
    Bool :=
  match (store.ordered.get? key.scope).bind OrderedChannelState.inFlight with
  | some current => decide (current = key.messageId)
  | none => decide (active.state ≠ .orderedBuffered)

/-- The buffered message that the completion of `key` would release. -/
def nextOrdered (store : DeliveryStore) (key : DedupKey) : Option OrderedMessage :=
  match store.ordered.get? key.scope with
  | some ordered =>
    if ordered.inFlight = some key.messageId then
      ordered.reorderBuffer.get? ordered.nextSequence
    else none
  | none => none

/-- The message the completion would release has a buffered record. -/
def nextOrderedReady (store : DeliveryStore) (key : DedupKey) : Bool :=
  match nextOrdered store key with
  | some next =>
    (store.incomingActive.get? next.key).any fun record => decide (record.state = .orderedBuffered)
  | none => true

/-- The store with the in-flight message of the channel acknowledged, and the message this takes
out of the reorder buffer. -/
def acknowledgeOrdered (store : DeliveryStore) (key : DedupKey) :
    DeliveryStore × Option OrderedMessage :=
  match store.ordered.get? key.scope with
  | some ordered =>
    if ordered.inFlight = some key.messageId then
      ({ store with
          ordered := store.ordered.insert key.scope (ordered.acknowledge key.messageId).1 },
        (ordered.acknowledge key.messageId).2)
    else (store, none)
  | none => (store, none)

def completeIncomingAt (config : DeliveryConfig) (order : DedupKey → ℕ) (store : DeliveryStore)
    (key : DedupKey) (now : ℕ) : DeliveryStore × Option IncomingCompletion :=
  match store.incomingActive.get? key with
  | none => (store, none)
  | some active =>
    if !completionGate store key active || !nextOrderedReady store key then (store, none)
    else
      let acknowledged := acknowledgeOrdered store key
      let removed := { acknowledged.1 with
        incomingActive := acknowledged.1.incomingActive.erase key }
      let processed : ProcessedDedupRecord :=
        { expiresAt := now + config.dedupTtl
          lastSeenAt := now
          recoveryEpoch := active.recoveryEpoch }
      match acknowledged.2 with
      | none =>
        (rememberProcessed order removed key processed config.dedupMaxEntries,
          some ⟨active.recoveryEpoch, none⟩)
      | some next =>
        match removed.incomingActive.get? next.key with
        | none => (removed, none)
        | some record =>
          let promoted := { removed with
            incomingActive := removed.incomingActive.insert next.key
              { record with
                state := .inFlight
                ackDeadline := some (now + config.applicationAckTimeout) } }
          (rememberProcessed order promoted key processed config.dedupMaxEntries,
            some ⟨active.recoveryEpoch, some next⟩)

def completeIncomingChecked (config : DeliveryConfig) (order : DedupKey → ℕ)
    (store : DeliveryStore) (key : DedupKey) (now : ℕ) :
    DeliveryStore × Except DeliveryError (Option IncomingCompletion) :=
  if !isValidPeerId key.peerId || !isValidScopeId key.channelId then
    (store, .error .invalidScope)
  else
    let result := completeIncomingAt config order store key now
    (result.1, .ok result.2)

/-- The message is in flight on its ordered channel or waits in its buffer. -/
def isOrdered (store : DeliveryStore) (key : DedupKey) : Bool :=
  match store.ordered.get? key.scope with
  | some ordered =>
    decide (ordered.inFlight = some key.messageId) ||
      ordered.reorderBuffer.toList.any fun entry => decide (entry.2.messageId = key.messageId)
  | none => false

def abandonIncoming (store : DeliveryStore) (key : DedupKey) : DeliveryStore × Bool :=
  if !store.incomingActive.contains key then (store, false)
  else if isOrdered store key then ((failOrderedChannel store key.scope).1, true)
  else ({ store with incomingActive := store.incomingActive.erase key }, true)

def rejectIncoming (store : DeliveryStore) (key : DedupKey) : DeliveryStore × Bool :=
  ({ store with incomingActive := store.incomingActive.erase key },
    store.incomingActive.contains key)

def expireIncoming (store : DeliveryStore) (peerId : String) (now : ℕ) :
    DeliveryStore × List IncomingTimeout :=
  expireIncomingLocked store now (some peerId)

def closePeer (store : DeliveryStore) (peerId : String) : DeliveryStore :=
  { store with
    incomingActive := store.incomingActive.retain fun key _ => decide (key.peerId ≠ peerId)
    processedDedup := store.processedDedup.retain fun key _ => decide (key.peerId ≠ peerId)
    ordered := store.ordered.mapValues fun scope ordered =>
      if scope.1 = peerId then ordered.clear else ordered
    failedOrdered := store.failedOrdered.filter fun scope => scope.1 ≠ peerId }

/-! ## Runs of the receive side -/

/-- One receive operation with its arguments. -/
inductive ReceiveOp
  | begin (key : DedupKey) (recoveryEpoch now : ℕ)
  | accept (message : OrderedMessage) (now : ℕ)
  | complete (key : DedupKey) (now : ℕ) (order : DedupKey → ℕ)
  | reject (key : DedupKey)
  | abandon (key : DedupKey)
  | expire (peerId : String) (now : ℕ)
  | close (peerId : String)

/-- The result of a receive operation. -/
inductive ReceiveResult
  | decision (decision : DedupDecision)
  | inserted (result : OrderedInsertResult)
  | completion (result : Option IncomingCompletion)
  | removed (result : Bool)
  | expired (timeouts : List IncomingTimeout)
  | closed
deriving DecidableEq

def receiveStep (config : DeliveryConfig) (store : DeliveryStore) :
    ReceiveOp → DeliveryStore × ReceiveResult
  | .begin key epoch now => (beginIncoming config store key epoch now).map id .decision
  | .accept message now => (acceptOrderedAt config store message now).map id .inserted
  | .complete key now order =>
    (completeIncomingAt config order store key now).map id .completion
  | .reject key => (rejectIncoming store key).map id .removed
  | .abandon key => (abandonIncoming store key).map id .removed
  | .expire peerId now => (expireIncoming store peerId now).map id .expired
  | .close peerId => (closePeer store peerId, .closed)

/-- The runs of the receive side: every list of operations from the empty store. -/
def receiveMachine (config : DeliveryConfig) : Machine DeliveryStore ReceiveOp ReceiveResult where
  start := .new
  step := receiveStep config

/-! ## The eviction loop -/

variable {maxEntries : ℕ}

/-- The loop only removes entries. -/
theorem get?_of_evictProcessed {order : DedupKey → ℕ} {key : DedupKey}
    {record : ProcessedDedupRecord} :
    ∀ {fuel : ℕ} {history : Table DedupKey ProcessedDedupRecord},
      (evictProcessed order maxEntries fuel history).get? key = some record →
      history.get? key = some record := by
  intro fuel
  induction fuel with
  | zero => exact fun h => h
  | succ fuel ih =>
    intro history h
    unfold evictProcessed at h
    split_ifs at h
    · exact h
    · cases ho : oldestProcessed order history with
      | none =>
        rw [ho] at h
        exact h
      | some oldest =>
        rw [ho] at h
        have hget := ih h
        rw [Table.get?_erase] at hget
        split_ifs at hget
        exact hget

end SshMobile.Delivery
