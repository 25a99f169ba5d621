import SshMobile.Delivery.Consistency
import SshMobile.Delivery.Breakpoint

/-!
# Inbound handlers

`handle_data_message` admits a received message in up to three critical sections: it registers the
message, an ordered one is then inserted in its channel, and a message the channel refuses is taken
back. Any number of handlers run at the same time, between each other's sections run
acknowledgements of the application, timeouts and closes. The machine of this module takes one
section at a time, so its runs are the interleavings. A handler starts here with a message that was
decoded, validated and decrypted.

A handler that was interrupted by a close of its peer goes on with a message that is not registered
any more. If a second handler registers and inserts the same message meanwhile, the first one sees
a duplicate and takes back the record of the second.

## Main definitions

* `HandlerTask`: the section a suspended handler runs next
* `Inbound`, `InboundInput`, `inboundStep`: the store with its handlers, and one critical section
* `inboundMachine`: the runs
* `HonestInput`, `DetachedReject`: the arrivals of honest senders, and a rejection that takes back
  a message no channel holds

## Main results

* `inbound_delivery_invariants`: the asserted invariant holds in every run with detached
  rejections, and each further section keeps it exactly when it is none that rejects a held message
* `interrupted_handler_breaks_invariants`: the interrupted handler
-/

namespace SshMobile.Channel

open Library Delivery

/-! ## The handler -/

inductive InboundError
  | delivery (error : DeliveryError)
  | handlerCapacity
  | channelFailed
  | reorderLimits
  | lostDedupRecord
  | notAwaitingAck
deriving DecidableEq

/-- The next critical section of a handler: the insertion of a registered ordered message, the
removal of a refused one, or the lookup of the epoch that a repeated acknowledgement echoes. -/
inductive HandlerTask
  | accepting (message : OrderedMessage)
  | rejecting (message : OrderedMessage) (result : OrderedInsertResult)
  | acking (message : OrderedMessage)
deriving DecidableEq

/-- What one critical section gives back. -/
inductive InboundOutput
  | suspended
  | finished
  | emitted (message : OrderedMessage)
  | acknowledged (message : OrderedMessage) (recoveryEpoch : ℕ)
  | completed (key : DedupKey) (completion : IncomingCompletion)
  | failed (error : InboundError)
  | removed (found : Bool)
  | expired (timeouts : List IncomingTimeout)
  | closed
deriving DecidableEq

/-- The store and the suspended handlers. -/
structure Inbound where
  store : DeliveryStore
  tasks : List HandlerTask

inductive InboundInput
  | arrive (message : OrderedMessage) (recoveryEpoch now : ℕ)
  | resume (index now : ℕ)
  | acknowledge (key : DedupKey) (now : ℕ) (order : DedupKey → ℕ)
  | abandon (key : DedupKey)
  | expire (peerId : String) (now : ℕ)
  | close (peerId : String)

def incomingRecoveryEpoch (store : DeliveryStore) (key : DedupKey) : Option ℕ :=
  ((store.incomingActive.get? key).map ActiveIncomingRecord.recoveryEpoch).or
    ((store.processedDedup.get? key).map ProcessedDedupRecord.recoveryEpoch)

/-- What the handler does with the decision on its message. -/
def afterBegin (message : OrderedMessage) :
    Except DeliveryError DedupDecision → Option HandlerTask × InboundOutput
  | .error error => (none, .failed (.delivery error))
  | .ok .duplicateInFlight => (none, .finished)
  | .ok .duplicateProcessed => (some (.acking message), .suspended)
  | .ok .capacityExceeded => (none, .failed .handlerCapacity)
  | .ok .channelFailed => (none, .failed .channelFailed)
  | .ok .new =>
    if message.policy = .sessionBoundOrdered then (some (.accepting message), .suspended)
    else (none, .emitted message)

/-- What the handler does with the result of the insertion. -/
def afterAccept (message : OrderedMessage) :
    OrderedInsertResult → Option HandlerTask × InboundOutput
  | .ready => (none, .emitted message)
  | .buffered => (none, .finished)
  | .duplicate => (some (.rejecting message .duplicate), .suspended)
  | .rejected => (some (.rejecting message .rejected), .suspended)

def afterReject : OrderedInsertResult → InboundOutput
  | .rejected => .failed .reorderLimits
  | _ => .finished

/-- The next critical section of the handler `task`, with the section that remains after it. -/
def HandlerTask.run (config : DeliveryConfig) (store : DeliveryStore) (now : ℕ) :
    HandlerTask → DeliveryStore × Option HandlerTask × InboundOutput
  | .accepting message =>
    let accepted := acceptOrderedAt config store message now
    (accepted.1, afterAccept message accepted.2)
  | .rejecting message result => ((rejectIncoming store message.key).1, none, afterReject result)
  | .acking message =>
    match incomingRecoveryEpoch store message.key with
    | some epoch => (store, none, .acknowledged message epoch)
    | none => (store, none, .failed .lostDedupRecord)

/-- The first critical section of `handle_data_message`. A best-effort message is published without
any record. -/
def handleDataMessage (config : DeliveryConfig) (store : DeliveryStore) (message : OrderedMessage)
    (recoveryEpoch now : ℕ) : DeliveryStore × Option HandlerTask × InboundOutput :=
  if message.policy = .bestEffort then (store, none, .emitted message)
  else
    let begun := beginIncomingChecked config store message.key recoveryEpoch now
    (begun.1, afterBegin message begun.2)

/-- The application acknowledges a message; the completion carries the next one to publish. -/
def acknowledgeMessage (config : DeliveryConfig) (order : DedupKey → ℕ) (store : DeliveryStore)
    (key : DedupKey) (now : ℕ) : DeliveryStore × InboundOutput :=
  let result := completeIncomingChecked config order store key now
  (result.1,
    match result.2 with
    | .ok (some completion) => .completed key completion
    | .ok none => .failed .notAwaitingAck
    | .error error => .failed (.delivery error))

def inboundStep (config : DeliveryConfig) (s : Inbound) :
    InboundInput → Inbound × InboundOutput
  | .arrive message recoveryEpoch now =>
    let handled := handleDataMessage config s.store message recoveryEpoch now
    (⟨handled.1, s.tasks ++ handled.2.1.toList⟩, handled.2.2)
  | .resume index now =>
    match s.tasks[index]? with
    | none => (s, .finished)
    | some task =>
      let ran := task.run config s.store now
      (⟨ran.1, s.tasks.eraseIdx index ++ ran.2.1.toList⟩, ran.2.2)
  | .acknowledge key now order =>
    let result := acknowledgeMessage config order s.store key now
    ({ s with store := result.1 }, result.2)
  | .abandon key =>
    let result := abandonIncoming s.store key
    ({ s with store := result.1 }, .removed result.2)
  | .expire peerId now =>
    let result := expireIncoming s.store peerId now
    ({ s with store := result.1 }, .expired result.2)
  | .close peerId => ({ s with store := closePeer s.store peerId }, .closed)

/-- The interleavings of the inbound handlers and of the other callers. -/
def inboundMachine (config : DeliveryConfig) : Machine Inbound InboundInput InboundOutput where
  start := ⟨.new, []⟩
  step := inboundStep config

/-! ## Each section is a receive operation -/

/-- The receive operation of a section, if it has one. -/
def inboundOp (s : Inbound) : InboundInput → Option ReceiveOp
  | .arrive message recoveryEpoch now =>
    if message.policy = .bestEffort then none
    else if !isValidPeerId message.key.peerId || !isValidScopeId message.key.channelId then none
    else some (.begin message.key recoveryEpoch now)
  | .resume index now =>
    match s.tasks[index]? with
    | some (.accepting message) => some (.accept message now)
    | some (.rejecting message _) => some (.reject message.key)
    | _ => none
  | .acknowledge key now order =>
    if !isValidPeerId key.peerId || !isValidScopeId key.channelId then none
    else some (.complete key now order)
  | .abandon key => some (.abandon key)
  | .expire peerId now => some (.expire peerId now)
  | .close peerId => some (.close peerId)

/-- The store after a receive operation that may be absent. -/
def afterOp (config : DeliveryConfig) (store : DeliveryStore) : Option ReceiveOp → DeliveryStore
  | some op => (receiveStep config store op).1
  | none => store

theorem inboundStep_store (config : DeliveryConfig) (s : Inbound) (x : InboundInput) :
    (inboundStep config s x).1.store = afterOp config s.store (inboundOp s x) := by
  cases x with
  | arrive message epoch now =>
    by_cases hpolicy : message.policy = .bestEffort
    · simp only [inboundStep, handleDataMessage, inboundOp, if_pos hpolicy]
      rfl
    · simp only [inboundStep, handleDataMessage, inboundOp, if_neg hpolicy, beginIncomingChecked]
      split_ifs <;> rfl
  | resume index now =>
    simp only [inboundStep, inboundOp]
    cases s.tasks[index]? with
    | none => rfl
    | some task =>
      cases task with
      | accepting message | rejecting message result => rfl
      | acking message =>
        simp only [HandlerTask.run]
        split <;> rfl
  | acknowledge key now order =>
    simp only [inboundStep, acknowledgeMessage, inboundOp, completeIncomingChecked]
    split_ifs <;> rfl
  | abandon | expire | close => rfl

/-! ## The invariant over interleavings -/

/-- The sender is honest: the sequence of a message is that of its key. -/
def HonestInput (seqOf : DedupKey → ℕ) : InboundInput → Prop
  | .arrive message _ _ => message.sequence = seqOf message.key
  | _ => True

instance (seqOf : DedupKey → ℕ) : DecidablePred (HonestInput seqOf) := fun x => by
  cases x <;> unfold HonestInput <;> infer_instance

/-- A handler that takes a message back takes back one that no channel holds. -/
def HandlerTask.Detached (store : DeliveryStore) : HandlerTask → Prop
  | .rejecting message _ => isOrdered store message.key = false
  | _ => True

instance (store : DeliveryStore) : DecidablePred (HandlerTask.Detached store) := fun task => by
  cases task <;> unfold HandlerTask.Detached <;> infer_instance

/-- The section rejects no message that its channel holds. -/
def DetachedReject (s : Inbound) : InboundInput → Prop
  | .resume index _ => ∀ task ∈ s.tasks[index]?, task.Detached s.store
  | _ => True

instance (s : Inbound) : DecidablePred (DetachedReject s) := fun x => by
  cases x <;> unfold DetachedReject <;> infer_instance

/-- A suspended insertion carries an honest message. -/
def HandlerTask.Honest (seqOf : DedupKey → ℕ) : HandlerTask → Prop
  | .accepting message => message.sequence = seqOf message.key
  | _ => True

/-- The invariant of the interleavings. -/
structure InboundConsistent (config : DeliveryConfig) (seqOf : DedupKey → ℕ) (s : Inbound) :
    Prop where
  wellFormed : s.store.receive.WellFormed config
  consistent : s.store.receive.Consistent seqOf
  tasks : ∀ task ∈ s.tasks, task.Honest seqOf

section Steps

variable {config : DeliveryConfig} {seqOf : DedupKey → ℕ} {s : Inbound} {x : InboundInput}

theorem detached_iff (store : DeliveryStore) (key : DedupKey) :
    isOrdered store key = false ↔ store.receive.Detached key := by
  rw [Bool.eq_false_iff, ne_eq, isOrdered_iff, not_or]
  rfl

theorem afterBegin_honest {message : OrderedMessage} (h : message.sequence = seqOf message.key)
    (decision : Except DeliveryError DedupDecision) :
    ∀ task ∈ (afterBegin message decision).1, task.Honest seqOf := by
  intro task htask
  unfold afterBegin at htask
  split at htask
  case h_6 =>
    split_ifs at htask
    · cases htask
      exact h
    · cases htask
  all_goals cases htask
  trivial

theorem run_honest (task : HandlerTask) (now : ℕ) :
    ∀ next ∈ (task.run config s.store now).2.1, next.Honest seqOf := by
  intro next hnext
  cases task with
  | accepting message =>
    simp only [HandlerTask.run] at hnext
    unfold afterAccept at hnext
    split at hnext <;> cases hnext <;> trivial
  | rejecting message result => cases hnext
  | acking message =>
    simp only [HandlerTask.run] at hnext
    split at hnext <;> cases hnext

theorem inboundStep_tasks (htasks : ∀ task ∈ s.tasks, task.Honest seqOf)
    (hx : HonestInput seqOf x) :
    ∀ task ∈ (inboundStep config s x).1.tasks, task.Honest seqOf := by
  cases x with
  | arrive message epoch now =>
    intro task htask
    obtain hold | hnew := List.mem_append.mp htask
    · exact htasks task hold
    · rw [Option.mem_toList] at hnew
      by_cases hpolicy : message.policy = .bestEffort
      · rw [handleDataMessage, if_pos hpolicy] at hnew
        cases hnew
      · rw [handleDataMessage, if_neg hpolicy] at hnew
        exact afterBegin_honest hx _ task hnew
  | resume index now =>
    simp only [inboundStep]
    cases htask : s.tasks[index]? with
    | none => exact htasks
    | some ran =>
      intro task hmem
      obtain hold | hnew := List.mem_append.mp hmem
      · exact htasks task (List.mem_of_mem_eraseIdx hold)
      · exact run_honest ran now task (Option.mem_toList.mp hnew)
  | acknowledge | abandon | expire | close => exact htasks

theorem inboundOp_reject {key : DedupKey} (h : inboundOp s x = some (.reject key)) :
    ∃ index now message result, x = .resume index now ∧
      s.tasks[index]? = some (.rejecting message result) ∧ message.key = key := by
  cases x with
  | resume index now =>
    simp only [inboundOp] at h
    split at h
    · cases h
    · next message result htask =>
      cases h
      exact ⟨index, now, message, result, rfl, htask, rfl⟩
    · cases h
  | arrive | acknowledge =>
    simp only [inboundOp] at h
    split_ifs at h
    cases h
  | abandon | expire | close => cases h

theorem inboundOp_accept {message : OrderedMessage} {now : ℕ}
    (h : inboundOp s x = some (.accept message now)) :
    ∃ index : ℕ, s.tasks[index]? = some (.accepting message) := by
  cases x with
  | resume index now =>
    simp only [inboundOp] at h
    split at h
    · next task htask =>
      cases h
      exact ⟨index, htask⟩
    · cases h
    · cases h
  | arrive | acknowledge =>
    simp only [inboundOp] at h
    split_ifs at h
    cases h
  | abandon | expire | close => cases h

/-- The operation of an honest section meets the guard when its rejection is detached. -/
theorem inboundOp_guarded (htasks : ∀ task ∈ s.tasks, task.Honest seqOf)
    (hreject : DetachedReject s x) {op : ReceiveOp} (hop : inboundOp s x = some op) :
    Guarded (ConsistencyGuard seqOf) s.store op := by
  intro a ha
  cases a with
  | internal | enroll | fail => exact Or.inl trivial
  | finish | stall | close => exact Or.inr trivial
  | reject key =>
    cases ha
    obtain ⟨index, now, message, result, rfl, htask, rfl⟩ := inboundOp_reject hop
    exact Or.inr ((detached_iff _ _).mp (hreject _ htask))
  | ready message | buffer message =>
    obtain ⟨now, rfl⟩ := ha
    obtain ⟨index, htask⟩ := inboundOp_accept hop
    exact Or.inr (htasks _ (List.mem_of_getElem? htask))

/-- One section keeps the invariant when it rejects no held message. -/
theorem InboundConsistent.step (h : InboundConsistent config seqOf s) (hx : HonestInput seqOf x)
    (hreject : DetachedReject s x) : InboundConsistent config seqOf (inboundStep config s x).1 := by
  have hstore : (inboundStep config s x).1.store.receive.WellFormed config ∧
      (inboundStep config s x).1.store.receive.Consistent seqOf := by
    rw [inboundStep_store]
    cases hop : inboundOp s x with
    | none => exact ⟨h.wellFormed, h.consistent⟩
    | some op =>
      exact (consistentInvariant config seqOf).receiveStep [] ⟨h.wellFormed, h.consistent⟩
        (inboundOp_guarded h.tasks hreject hop)
  exact ⟨hstore.1, hstore.2, inboundStep_tasks h.tasks hx⟩

/-- A section that keeps the invariant rejects no held message. -/
theorem detachedReject_of_invariants
    (hinv : (inboundStep config s x).1.store.receive.Invariants) : DetachedReject s x := by
  cases x with
  | resume index now =>
    intro task htask
    cases task with
    | rejecting message result =>
      have hop : inboundOp s (.resume index now) = some (.reject message.key) := by
        simp only [inboundOp, Option.mem_def.mp htask]
      rw [inboundStep_store, hop] at hinv
      change (DeliveryStore.receive { s.store with
        incomingActive := s.store.incomingActive.erase message.key }).Invariants at hinv
      rw [receive_eraseActive] at hinv
      exact (detached_iff _ _).mpr hinv.detached_of_drop
    | accepting | acking => trivial
  | arrive | acknowledge | abandon | expire | close => trivial

theorem wellFormed_inboundStep (h : s.store.receive.WellFormed config) (x : InboundInput) :
    (inboundStep config s x).1.store.receive.WellFormed config := by
  rw [inboundStep_store]
  cases inboundOp s x with
  | none => exact h
  | some op => exact wellFormed_receiveStep h op

theorem inboundConsistent_run {inputs : List InboundInput}
    (hhonest : ∀ x ∈ inputs, HonestInput seqOf x)
    (hreject : (inboundMachine config).Along DetachedReject inputs) :
    InboundConsistent config seqOf ((inboundMachine config).run inputs) := by
  have hguards := (inboundMachine config).alongFrom_and
    ((inboundMachine config).alongFrom_of_forall _ hhonest) hreject
  refine (inboundMachine config).run_invariant ?_ (fun s x h hx => h.step hx.1 hx.2) hguards
  exact ⟨.new config, consistent_new seqOf, fun _ h => by cases h⟩

end Steps

/-- **The receive invariant under interleaving**: with honest senders and detached rejections, the
asserted invariant holds after every interleaving of handlers, acknowledgements, timeouts and
closes; and there a further section keeps it exactly when it does not reject a held message. -/
theorem inbound_delivery_invariants (config : DeliveryConfig) (seqOf : DedupKey → ℕ)
    (inputs : List InboundInput) (hhonest : ∀ x ∈ inputs, HonestInput seqOf x)
    (hreject : (inboundMachine config).Along DetachedReject inputs) :
    AssertDeliveryInvariants ((inboundMachine config).run inputs).store ∧
      ∀ x, HonestInput seqOf x →
        (AssertDeliveryInvariants
            ((inboundMachine config).step ((inboundMachine config).run inputs) x).1.store ↔
          DetachedReject ((inboundMachine config).run inputs) x) := by
  have hinv := inboundConsistent_run hhonest hreject
  refine ⟨assert_of_invariants hinv.wellFormed hinv.consistent.invariants, fun x hx => ⟨?_, ?_⟩⟩
  · intro hassert
    have hwf := wellFormed_inboundStep hinv.wellFormed x
    exact detachedReject_of_invariants (invariants_of_assert hwf hassert)
  · intro hdetached
    have hnext := hinv.step hx hdetached
    exact assert_of_invariants hnext.wellFormed hnext.consistent.invariants

/-- Two handlers of one sequence: the channel takes the first message and refuses the second, which
is taken back. -/
def refusedRun : List InboundInput :=
  [.arrive (chatMessage 0 0) 0 0, .arrive (chatMessage 1 0) 0 0, .resume 0 0, .resume 0 0,
    .resume 0 0]

theorem inbound_delivery_invariants_refusedRun :
    InFlightAt ((inboundMachine .default).run refusedRun).store (chatMessage 0 0).key 0 ∧
      AssertDeliveryInvariants ((inboundMachine .default).run refusedRun).store :=
  ⟨by decide, (inbound_delivery_invariants .default (fun _ => 0) refusedRun (by decide)
    (by decide)).1⟩

/-- A handler is interrupted by a close; a second one admits the same message; the first one sees a
duplicate and takes the message back. -/
def interruptedRun : List InboundInput :=
  [.arrive (chatMessage 0 0) 0 0, .close "peer", .arrive (chatMessage 0 0) 1 1, .resume 1 1,
    .resume 0 1, .resume 0 1]

/-- **A lost record**: the sender is honest, and the in-flight message has no record. -/
theorem interrupted_handler_breaks_invariants :
    (∀ x ∈ interruptedRun, HonestInput (fun _ => 0) x) ∧
      ¬ AssertDeliveryInvariants ((inboundMachine .default).run interruptedRun).store := by
  decide

end SshMobile.Channel
