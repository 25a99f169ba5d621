import SshMobile.Delivery.Queue

/-!
# The sequences of a channel

All messages of one channel, whatever their policy, draw their sequences from one counter of the
sender. The messages that a list of `enqueue` calls accepts are numbered `0, 1, 2, …`.

## Main definitions

* `EnqueueCall`, `acceptedMessages`: calls on one channel, and the messages they accept

## Main results

* `acceptedMessages_numbered`, `sequence_getElem`: the accepted messages are numbered in order
-/

namespace SshMobile.Delivery

open Library

/-- The arguments of one `enqueue` on a given channel. -/
structure EnqueueCall where
  payload : Bytes
  policy : DeliveryPolicy
  retryPolicy : RetryPolicy
  now : ℕ
  candidates : List MessageId
  order : HashOrder

def EnqueueCall.op (scope : Scope) (call : EnqueueCall) : SendOp × HashOrder :=
  (.enqueue scope.1 scope.2 call.payload call.policy call.retryPolicy call.now call.candidates,
    call.order)

def SendResult.accepted : SendResult → Option PendingMessage
  | .enqueued (.ok message) => some message
  | _ => none

/-- The messages that the calls accept, in order. -/
def acceptedMessages (config : DeliveryConfig) (scope : Scope) (calls : List EnqueueCall) :
    List PendingMessage :=
  ((sendMachine config).transcript (calls.map (EnqueueCall.op scope))).filterMap fun entry =>
    entry.2.accepted

section Enqueue

variable {config : DeliveryConfig} {order : HashOrder} {store : DeliveryStore}

theorem nextSequences_settle (outcome : DeliveryTerminalOutcome) (identity : DeliveryIdentity) :
    (settle order store identity outcome).nextSequences = store.nextSequences := by
  unfold settle recordTerminal removePending
  cases store.pending.get? identity <;> rfl

theorem nextSequences_settleAll (outcome : DeliveryTerminalOutcome)
    (identities : List DeliveryIdentity) :
    (settleAll order outcome store identities).nextSequences = store.nextSequences := by
  unfold settleAll
  induction identities generalizing store with
  | nil => rfl
  | cons identity identities ih =>
    rw [List.foldl_cons, ih]
    split_ifs
    · exact nextSequences_settle outcome identity
    · rfl

theorem nextSequences_replaceLatestState (peerId channelId : String) (policy : DeliveryPolicy) :
    (replaceLatestState order store peerId channelId policy).nextSequences =
      store.nextSequences := by
  unfold replaceLatestState
  split_ifs
  · exact nextSequences_settleAll _ _
  · rfl

theorem nextSequences_storePending (message : PendingMessage) :
    (storePending store message).nextSequences = store.nextSequences := by
  unfold storePending
  split_ifs <;> rfl

/-- A call uses the next sequence of the channel when it accepts its message, and none else. -/
theorem sendStep_sequence (config : DeliveryConfig) (store : DeliveryStore) (scope : Scope)
    (call : EnqueueCall) :
    match (sendStep config store (call.op scope)).2.accepted with
    | some m => m.sequence = nextSequence store scope ∧ m.channelId = scope.2 ∧
        nextSequence (sendStep config store (call.op scope)).1 scope =
          saturatingAdd u64Max (nextSequence store scope) 1
    | none => nextSequence (sendStep config store (call.op scope)).1 scope =
        nextSequence store scope := by
  simp only [EnqueueCall.op, sendStep, enqueueAt]
  have hreplaced : nextSequence (replaceLatestState call.order store scope.1 scope.2 call.policy)
      scope = nextSequence store scope := by
    unfold nextSequence
    rw [nextSequences_replaceLatestState]
  split_ifs
  · rfl
  · rfl
  · rfl
  · exact hreplaced
  · cases nextMessageId call.candidates
        (replaceLatestState call.order store scope.1 scope.2 call.policy) scope.1 with
    | none => rfl
    | some messageId =>
      refine ⟨hreplaced, rfl, ?_⟩
      simp only [nextSequence, nextSequences_storePending, allocateSequence,
        nextSequences_replaceLatestState, Table.get?_insert_self, Option.getD_some]

end Enqueue

/-- The counter of the channel and the messages accepted so far. -/
structure Numbered (scope : Scope) (store : DeliveryStore) (accepted : List PendingMessage) :
    Prop where
  next : nextSequence store scope = min u64Max accepted.length
  sequences : accepted.map PendingMessage.sequence =
    (List.range accepted.length).map (min u64Max)
  channel : ∀ m ∈ accepted, m.channelId = scope.2

variable {accepted : List PendingMessage} {store : DeliveryStore}

theorem Numbered.sendStep {config : DeliveryConfig} {scope : Scope}
    (h : Numbered scope store accepted) (call : EnqueueCall) :
    Numbered scope (sendStep config store (call.op scope)).1
      (accepted ++ (Delivery.sendStep config store (call.op scope)).2.accepted.toList) := by
  have hstep := sendStep_sequence config store scope call
  cases hresult : (Delivery.sendStep config store (call.op scope)).2.accepted with
  | none =>
    rw [hresult] at hstep
    rw [Option.toList_none, List.append_nil]
    exact ⟨hstep.trans h.next, h.sequences, h.channel⟩
  | some m =>
    rw [hresult] at hstep
    obtain ⟨hsequence, hchannel, hnext⟩ := hstep
    rw [Option.toList_some]
    constructor
    · rw [hnext, h.next, List.length_append, List.length_singleton, saturatingAdd]
      omega
    · rw [List.map_append, h.sequences, List.length_append, List.length_singleton,
        List.range_succ, List.map_append, List.map_singleton, List.map_singleton, hsequence, h.next]
    · intro m' hm'
      obtain hold | hnew := List.mem_append.mp hm'
      · exact h.channel m' hold
      · rw [List.mem_singleton.mp hnew]
        exact hchannel

/-- **The sequences of a channel**: the accepted messages are numbered in order, up to the last
value of the counter. -/
theorem acceptedMessages_numbered (config : DeliveryConfig) (scope : Scope)
    (calls : List EnqueueCall) :
    Numbered scope ((sendMachine config).run (calls.map (EnqueueCall.op scope)))
      (acceptedMessages config scope calls) := by
  refine (sendMachine config).transcript_invariant
    (P := fun _ x => ∃ call, x = EnqueueCall.op scope call)
    (I := fun store log => Numbered scope store (log.filterMap fun entry => entry.2.accepted))
    ⟨rfl, rfl, fun _ h => by cases h⟩ ?_ ?_
  · rintro store log _ h ⟨call, rfl⟩
    have hlog : ∀ entry : (SendOp × HashOrder) × SendResult,
        (log ++ [entry]).filterMap (fun entry => entry.2.accepted) =
          log.filterMap (fun entry => entry.2.accepted) ++ entry.2.accepted.toList := by
      intro entry
      cases haccepted : entry.2.accepted <;> simp [haccepted]
    rw [hlog]
    exact h.sendStep call
  · refine (sendMachine config).alongFrom_of_forall _ fun x hx => ?_
    obtain ⟨call, -, rfl⟩ := List.mem_map.mp hx
    exact ⟨call, rfl⟩

/-- Below the last value of the counter the sequence of a message is its place. -/
theorem sequence_getElem {scope : Scope}
    (h : Numbered scope store accepted) (hcount : accepted.length ≤ u64Max) {i : ℕ}
    (hi : i < accepted.length) : accepted[i].sequence = i := by
  have hmap := congrArg (fun l => l[i]?) h.sequences
  simp only [List.getElem?_map, List.getElem?_eq_getElem hi, Option.map_some,
    List.getElem?_range hi] at hmap
  rw [Option.some.inj hmap]
  omega

end SshMobile.Delivery
