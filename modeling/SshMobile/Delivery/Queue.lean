import SshMobile.Delivery.Send

/-!
# The steps of the send queue

Every send operation is a path of few kinds of steps: a message is added, one attempt is issued, a
message goes back to wait, a message leaves with its outcome, or only counters move. The step
relation says what each needs and does, so the invariants of the queue are proved once per step.

## Main definitions

* `SendAction`, `SendStep`: the steps of the queue
* `sendIssued`, `sendAdded`: the attempts that an operation reports, and the new message

## Main results

* `sendStep_refines`: every operation but `enqueue` is a path of steps and reports exactly the
  attempts it issues
* `sendStep_path`: every operation is a path of steps and at most one addition at its end
-/

namespace SshMobile.Delivery

open Library

/-- The steps of the queue. -/
inductive SendAction
  | quiet
  | issue (message : PendingMessage)
  | settle (identity : DeliveryIdentity) (outcome : DeliveryTerminalOutcome)
  | add (message : PendingMessage)

/-- The attempt that a step issues. -/
def SendAction.issued : SendAction → Option PendingMessage
  | .issue message => some message
  | _ => none

/-- **One step of the queue.** -/
inductive SendStep (config : DeliveryConfig) (s : DeliveryStore) :
    SendAction → DeliveryStore → Prop
  | counters (nextSequences : Table Scope ℕ) (recoveryEpochs : Table String ℕ) :
    SendStep config s .quiet { s with nextSequences, recoveryEpochs }
  | wait {identity : DeliveryIdentity} {m : PendingMessage} (state : DeliveryState)
    (nextRetryAt recoveryEpoch : ℕ) (hm : s.pending.get? identity = some m)
    (hstate : state = .sending → m.state = .sending ∧ nextRetryAt = m.nextRetryAt) :
    SendStep config s .quiet
      { s with pending := s.pending.insert identity { m with state, nextRetryAt, recoveryEpoch } }
  | issue {identity : DeliveryIdentity} {m : PendingMessage}
    (hm : s.pending.get? identity = some m) (hstate : m.state ≠ .sending)
    (hbudget : m.begin.overBudget = false) :
    SendStep config s (.issue m.begin)
      { s with pending := s.pending.insert identity m.begin }
  | settle {identity : DeliveryIdentity} {m : PendingMessage} (order : HashOrder)
    (outcome : DeliveryTerminalOutcome) (hm : s.pending.get? identity = some m) :
    SendStep config s (.settle identity outcome) (settle order s identity outcome)
  | add {m : PendingMessage} (hpending : s.pending.get? m.identity = none)
    (hterminal : s.terminalOutcomes.get? m.identity = none)
    (hsize : s.pending.size < config.maxPendingMessages)
    (hbytes : s.pendingBytes + m.payload.length ≤ config.maxPendingBytes) :
    SendStep config s (.add m) { s with
      pendingBytes := s.pendingBytes + m.payload.length
      pending := s.pending.insert m.identity m }

/-- The message goes back to wait; a message that is being sent stays as it is. -/
def PendingMessage.Waits (m m' : PendingMessage) : Prop :=
  ∃ state nextRetryAt recoveryEpoch, m' = { m with state, nextRetryAt, recoveryEpoch } ∧
    (state = .sending → m.state = .sending ∧ nextRetryAt = m.nextRetryAt)

/-! ## Small lemmas about the parts -/

section Parts

variable {store : DeliveryStore} {identity : DeliveryIdentity} {message : PendingMessage}

theorem removePending_some (h : store.pending.get? identity = some message) :
    removePending store identity =
      ({ store with
          pending := store.pending.erase identity
          pendingBytes := store.pendingBytes - message.payload.length }, some message) := by
  rw [removePending, h]

theorem resolvePendingIdentity_some {peerId : Option String} {messageId : MessageId}
    (h : resolvePendingIdentity store peerId messageId = some identity) :
    ∃ m, store.pending.get? identity = some m := by
  cases peerId with
  | some peerId =>
    simp only [resolvePendingIdentity] at h
    split_ifs at h with hmem
    cases h
    exact Table.contains_eq_true.mp hmem
  | none =>
    simp only [resolvePendingIdentity] at h
    split at h
    · next found hfilter =>
      cases h
      have hmem : identity ∈ (store.pending.toList.map Prod.fst).filter
          fun identity => decide (identity.messageId = messageId) := by
        rw [hfilter]
        exact List.mem_singleton_self _
      obtain ⟨⟨key, m⟩, hentry, rfl⟩ := List.mem_map.mp (List.mem_filter.mp hmem).1
      exact ⟨m, Table.mem_toList.mp hentry⟩
    · cases h

end Parts

/-! ## Paths -/

/-- A path of steps that adds no message and issues the attempts `issued`. -/
def SendPath (config : DeliveryConfig) (issued : List PendingMessage) (s s' : DeliveryStore) :
    Prop :=
  ∃ actions, Trace (SendStep config) s actions s' ∧
    actions.filterMap SendAction.issued = issued ∧ ∀ m, .add m ∉ actions

namespace SendPath

variable {config : DeliveryConfig} {issued issued' : List PendingMessage}
  {s s' s'' : DeliveryStore}

theorem refl (s : DeliveryStore) : SendPath config [] s s :=
  ⟨[], .nil s, rfl, fun _ h => by cases h⟩

theorem trans (h₁ : SendPath config issued s s') (h₂ : SendPath config issued' s' s'') :
    SendPath config (issued ++ issued') s s'' := by
  obtain ⟨as, has, rfl, hadds⟩ := h₁
  obtain ⟨bs, hbs, rfl, hadds'⟩ := h₂
  refine ⟨as ++ bs, has.append hbs, List.filterMap_append, fun m hm => ?_⟩
  exact (List.mem_append.mp hm).elim (hadds m) (hadds' m)

theorem quiet (h : SendStep config s .quiet s') : SendPath config [] s s' :=
  ⟨[.quiet], .single h, rfl, fun _ h => by simp at h⟩

variable {m : PendingMessage}

theorem issue (h : SendStep config s (.issue m) s') : SendPath config [m] s s' :=
  ⟨[.issue m], .single h, rfl, fun _ h => by simp at h⟩

theorem settle {identity : DeliveryIdentity} (order : HashOrder) (outcome : DeliveryTerminalOutcome)
    (hm : s.pending.get? identity = some m) :
    SendPath config [] s (settle order s identity outcome) :=
  ⟨[.settle identity outcome], .single (.settle order outcome hm), rfl, fun _ h => by simp at h⟩

theorem settleAll (order : HashOrder) (outcome : DeliveryTerminalOutcome) (s : DeliveryStore)
    (identities : List DeliveryIdentity) :
    SendPath config [] s (settleAll order outcome s identities) := by
  induction identities generalizing s with
  | nil => exact .refl s
  | cons identity identities ih =>
    have hfirst : SendPath config [] s (if s.pending.contains identity then
        Delivery.settle order s identity outcome else s) := by
      split_ifs with hmem
      · obtain ⟨m, hm⟩ := Table.contains_eq_true.mp hmem
        exact .settle order outcome hm
      · exact .refl s
    exact hfirst.trans (ih _)

/-- The live messages of a list of pending messages go back to wait. -/
theorem updateLive {update : PendingMessage → PendingMessage}
    (hupdate : ∀ m : PendingMessage, m.Waits (update m)) (now : ℕ) (s : DeliveryStore)
    (entries : List (DeliveryIdentity × PendingMessage)) (hnodup : (entries.map Prod.fst).Nodup)
    (hget : ∀ entry ∈ entries, s.pending.get? entry.1 = some entry.2) :
    SendPath config [] s (updateLive update now s entries) := by
  induction entries generalizing s with
  | nil => exact .refl s
  | cons entry entries ih =>
    obtain ⟨hnot, hnodup⟩ := List.nodup_cons.mp hnodup
    have hrest : ∀ other ∈ entries, other.1 ≠ entry.1 := fun other hother heq =>
      hnot (heq ▸ List.mem_map_of_mem hother)
    have hfirst : SendPath config [] s (if isExpired entry.2 now then s else
        { s with pending := s.pending.insert entry.1 (update entry.2) }) := by
      split_ifs
      · exact .refl s
      · obtain ⟨state, nextRetryAt, epoch, heq, hstate⟩ := hupdate entry.2
        rw [heq]
        exact .quiet (.wait state nextRetryAt epoch (hget entry List.mem_cons_self) hstate)
    refine hfirst.trans (ih _ hnodup fun other hother => ?_)
    have hold := hget other (List.mem_cons_of_mem _ hother)
    split_ifs
    · exact hold
    · rwa [Table.get?_insert, if_neg (hrest other hother)]

end SendPath

/-! ## The operations refine the steps -/

/-- The attempts an operation reports. -/
def sendIssued : SendResult → List PendingMessage
  | .began (.ok (some message)) => [message]
  | .leased (.ok (some attempt)) => [attempt.message]
  | _ => []

/-- The identity of the message that an operation reports as accepted. -/
def sendAdded : SendResult → Option DeliveryIdentity
  | .enqueued (.ok message) => some message.identity
  | _ => none

section Operations

variable (config : DeliveryConfig) (order : HashOrder) (store : DeliveryStore)

theorem requeue_waits (epoch now : ℕ) (m : PendingMessage) : m.Waits (m.requeue epoch now) :=
  ⟨.queued, now, epoch, rfl, fun h => by cases h⟩

theorem retry_waits (now : ℕ) (m : PendingMessage) : m.Waits (m.retry now) := by
  unfold PendingMessage.retry
  split_ifs
  · exact ⟨.queued, now, m.recoveryEpoch, rfl, fun h => by cases h⟩
  · exact ⟨m.state, m.nextRetryAt, m.recoveryEpoch, rfl, fun h => ⟨h, rfl⟩⟩

theorem peerMessages_nodup (peerId : String) :
    ((peerMessages order store peerId).map Prod.fst).Nodup :=
  ((Table.nodup_keys_iter order.pending store.pending).sublist
    (List.filter_sublist.map Prod.fst))

variable {peerId : String} {candidates : List MessageId}

theorem get?_of_peerMessages {entry : DeliveryIdentity × PendingMessage}
    (h : entry ∈ peerMessages order store peerId) : store.pending.get? entry.1 = some entry.2 :=
  Table.exists_get?_of_iter (List.mem_filter.mp h).1

theorem recoverPeerAt_refines (peerId : String) (now : ℕ) :
    SendPath config [] store (recoverPeerAt order store peerId now).1 := by
  have hcounters : SendPath config [] store { store with
      recoveryEpochs := store.recoveryEpochs.insert peerId (nextRecoveryEpoch store peerId) } :=
    .quiet (.counters _ _)
  have hlive := hcounters.trans (.updateLive (requeue_waits (nextRecoveryEpoch store peerId) now)
    now _ (peerMessages order store peerId) (peerMessages_nodup order store peerId)
    fun _ hentry => get?_of_peerMessages order store hentry)
  exact hlive.trans (.settleAll order .expired _ _)

theorem retryableMessages_refines (peerId : String) (now : ℕ) :
    SendPath config [] store (retryableMessages order store peerId now).1 :=
  SendPath.trans (.updateLive (retry_waits now) now store (peerMessages order store peerId)
    (peerMessages_nodup order store peerId)
    fun _ hentry => get?_of_peerMessages order store hentry)
    (.settleAll order .expired _ _)

theorem beginSendInner_refines (peerId : Option String) (messageId : MessageId) (now : ℕ) :
    SendPath config (sendIssued (.began (beginSendInner order store peerId messageId now).2))
      store (beginSendInner order store peerId messageId now).1 := by
  unfold beginSendInner
  split_ifs
  · exact .refl store
  · cases hresolve : resolvePendingIdentity store peerId messageId with
    | none => exact .refl store
    | some identity =>
      obtain ⟨m, hm⟩ := resolvePendingIdentity_some hresolve
      simp only [hm]
      split_ifs with hexpired hdue hbudget
      · exact .settle order .expired hm
      · exact .refl store
      · exact .settle order .failed hm
      · refine .issue (.issue hm ?_ (Bool.not_eq_true _ ▸ hbudget))
        intro hstate
        simp [PendingMessage.notDue, hstate] at hdue

theorem beginSendForPeer_refines (peerId : String) (messageId : MessageId) (now : ℕ) :
    SendPath config
      (sendIssued (.leased (beginSendForPeer order store peerId messageId now).2))
      store (beginSendForPeer order store peerId messageId now).1 := by
  unfold beginSendForPeer
  split_ifs
  · exact .refl store
  · have hinner := beginSendInner_refines config order store (some peerId) messageId now
    cases hresult : (beginSendInner order store (some peerId) messageId now).2 with
    | error e =>
      rw [hresult] at hinner
      simp only [hresult]
      exact hinner
    | ok m =>
      rw [hresult] at hinner
      simp only [hresult]
      cases m with
      | none | some m => exact hinner

theorem markSentInner_refines (peerId : Option String) (attempt : Option ℕ)
    (messageId : MessageId) (now : ℕ) :
    SendPath config [] store (markSentInner store peerId attempt messageId now).1 := by
  unfold markSentInner
  cases hresolve : resolvePendingIdentity store peerId messageId with
  | none => exact .refl store
  | some identity =>
    obtain ⟨m, hm⟩ := resolvePendingIdentity_some hresolve
    simp only [hm]
    split_ifs
    · exact .refl store
    · exact .quiet (.wait _ _ m.recoveryEpoch hm fun h => by cases h)

theorem markSendFailedInner_refines (peerId : Option String) (attempt : Option ℕ)
    (messageId : MessageId) (now : ℕ) :
    SendPath config [] store
      (markSendFailedInner order store peerId attempt messageId now).1 := by
  unfold markSendFailedInner
  cases hresolve : resolvePendingIdentity store peerId messageId with
  | none => exact .refl store
  | some identity =>
    obtain ⟨m, hm⟩ := resolvePendingIdentity_some hresolve
    simp only [hm]
    split_ifs
    · exact .settle order .expired hm
    · exact .refl store
    · exact .settle order .failed hm
    · exact .quiet (.wait _ _ m.recoveryEpoch hm fun h => by cases h)

theorem acknowledge_refines (peerId : String) (messageId : MessageId) :
    SendPath config [] store (acknowledge order store peerId messageId).1 := by
  unfold acknowledge
  split_ifs with hvalid hmem
  · exact .refl store
  · exact .refl store
  · rw [Bool.not_eq_true', Bool.not_eq_false] at hmem
    obtain ⟨m, hm⟩ := Table.contains_eq_true.mp hmem
    exact .settle order .acknowledged hm

theorem cancel_refines (messageId : MessageId) :
    SendPath config [] store (cancel order store messageId).1 := by
  unfold cancel
  cases hresolve : resolvePendingIdentity store none messageId with
  | none => exact .refl store
  | some identity =>
    obtain ⟨m, hm⟩ := resolvePendingIdentity_some hresolve
    exact .settle order .cancelled hm

theorem replaceLatestState_refines (peerId channelId : String) (policy : DeliveryPolicy) :
    SendPath config [] store (replaceLatestState order store peerId channelId policy) := by
  unfold replaceLatestState
  split_ifs
  · exact .settleAll order .cancelled store _
  · exact .refl store

theorem nextMessageId_fresh {messageId : MessageId}
    (h : nextMessageId candidates store peerId = some messageId) :
    store.pending.get? ⟨peerId, messageId⟩ = none ∧
      store.terminalOutcomes.get? ⟨peerId, messageId⟩ = none := by
  have hfound := List.find?_some h
  simp only [Bool.and_eq_true, Bool.not_eq_true'] at hfound
  exact ⟨Table.contains_eq_false.mp hfound.1, Table.contains_eq_false.mp hfound.2⟩

/-- A path of steps, then at most one addition. The identity `added` is new before the addition,
and the message that comes in has it. -/
def AddsLast (config : DeliveryConfig) (issued : List PendingMessage)
    (added : Option DeliveryIdentity) (s s' : DeliveryStore) : Prop :=
  ∃ t, SendPath config issued s t ∧
    (∀ k ∈ added, t.pending.get? k = none ∧ t.terminalOutcomes.get? k = none) ∧
    (s' = t ∨ ∃ m, SendStep config t (.add m) s' ∧ added = some m.identity)

theorem SendPath.addsLast {config : DeliveryConfig} {issued : List PendingMessage}
    {s s' : DeliveryStore} (h : SendPath config issued s s') : AddsLast config issued none s s' :=
  ⟨s', h, by simp, Or.inl rfl⟩

theorem storePending_refines (m : PendingMessage) (scope : Scope)
    (hpending : store.pending.get? m.identity = none)
    (hterminal : store.terminalOutcomes.get? m.identity = none)
    (hfull : queueFull config store m.payload m.policy = false) :
    AddsLast config [] (some m.identity) store
      (storePending (allocateSequence store scope) m) := by
  refine ⟨allocateSequence store scope, .quiet (.counters _ _), ?_, ?_⟩
  · rintro k ⟨⟩
    exact ⟨hpending, hterminal⟩
  · unfold storePending
    split_ifs with hpolicy
    · exact Or.inl rfl
    · simp only [queueFull, hpolicy, ne_eq, not_false_eq_true, decide_true, Bool.true_and,
        Bool.or_eq_false_iff, decide_eq_false_iff_not, not_le, not_lt] at hfull
      exact Or.inr ⟨m, .add hpending hterminal hfull.1 hfull.2, rfl⟩

theorem enqueueAt_refines {channelId : String} {payload : Bytes} {policy : DeliveryPolicy}
    {retryPolicy : RetryPolicy} {now : ℕ}
    {result : DeliveryStore × Except DeliveryError PendingMessage}
    (h : enqueueAt config order candidates store peerId channelId payload policy retryPolicy now =
      some result) : AddsLast config [] (sendAdded (.enqueued result.2)) store result.1 := by
  unfold enqueueAt at h
  dsimp only at h
  split_ifs at h with hscope hpayload hretry hfull
  · cases h
    exact (SendPath.refl store).addsLast
  · cases h
    exact (SendPath.refl store).addsLast
  · cases h
    exact (SendPath.refl store).addsLast
  · cases h
    exact (replaceLatestState_refines config order store peerId channelId policy).addsLast
  · have hreplaced := replaceLatestState_refines config order store peerId channelId policy
    split at h
    · cases h
    · next messageId hid =>
      cases h
      obtain ⟨hpending, hterminal⟩ := nextMessageId_fresh _ hid
      rw [Bool.not_eq_true] at hfull
      obtain ⟨t, ht, hlast⟩ := storePending_refines config _ (newMessage _ peerId channelId payload
        policy retryPolicy now messageId) (peerId, channelId) hpending hterminal hfull
      exact ⟨t, hreplaced.trans ht, hlast⟩

/-- The operations other than `enqueue`. -/
def SendOp.AddsNothing : SendOp → Prop
  | .enqueue .. => False
  | _ => True

/-- **Refinement**: every send operation but `enqueue` is a path of steps that issues exactly the
attempts it reports. -/
theorem sendStep_refines (op : SendOp) (hop : op.AddsNothing) :
    SendPath config (sendIssued (sendStep config store (op, order)).2) store
      (sendStep config store (op, order)).1 := by
  cases op with
  | enqueue => cases hop
  | beginSend messageId now => exact beginSendInner_refines config order store none messageId now
  | beginSendForPeer peerId messageId now =>
    exact beginSendForPeer_refines config order store peerId messageId now
  | markSent messageId now => exact markSentInner_refines config store none none messageId now
  | markSentForAttempt attempt now => exact markSentInner_refines config store _ _ _ now
  | markSendFailed messageId now =>
    exact markSendFailedInner_refines config order store none none messageId now
  | markSendFailedForAttempt attempt now =>
    exact markSendFailedInner_refines config order store _ _ _ now
  | acknowledge peerId messageId => exact acknowledge_refines config order store peerId messageId
  | cancel messageId => exact cancel_refines config order store messageId
  | recoverPeer peerId now => exact recoverPeerAt_refines config order store peerId now
  | retryableMessages peerId now => exact retryableMessages_refines config order store peerId now

theorem sendAdded_of_addsNothing (op : SendOp) (hop : op.AddsNothing) :
    sendAdded (sendStep config store (op, order)).2 = none := by
  cases op <;> first | rfl | cases hop

/-- Every operation is a path of steps and at most one addition; it reports the attempts it issues
and the message it adds. -/
theorem sendStep_path (x : SendOp × HashOrder) :
    AddsLast config (sendIssued (sendStep config store x).2) (sendAdded (sendStep config store x).2)
      store (sendStep config store x).1 := by
  obtain ⟨op, order⟩ := x
  by_cases hop : op.AddsNothing
  · rw [sendAdded_of_addsNothing config order store op hop]
    exact (sendStep_refines config order store op hop).addsLast
  · cases op with
    | enqueue peerId channelId payload policy retryPolicy now candidates =>
      simp only [sendStep]
      split
      · next result hresult => exact enqueueAt_refines config order store hresult
      · exact (SendPath.refl store).addsLast
    | _ => exact absurd trivial hop

end Operations

end SshMobile.Delivery
