import SshMobile.Delivery.Bookkeeping

/-!
# The leases of the send attempts

Every attempt to send a message has a number, and its holder settles the message with that number.
The attempts issued for one message are numbered 1, 2, 3 and so on, so only the last one can still
settle it, and only while the message is being sent; a late result changes nothing. The counters of
the retry budget are functions of the number of attempts issued, so the budget bounds that number
and the bytes sent again.

## Main definitions

* `issuedAttempts identity log`: the numbers of the attempts issued for one message
* `CanSettle attempt store`: the attempt is the current one and under way
* `LeaseState`: what the attempts issued so far say about the message

## Main results

* `LeaseState.step`: every step of the queue keeps the state of the leases
* `markSentForAttempt_stale`, `markSendFailedForAttempt_stale`: late results change nothing
* `send_attempt_leases`: the leases of every run
* `saturated_budget_overrun`: a budget of the largest 64-bit value bounds no bytes
-/

namespace SshMobile.Delivery

open Library

/-- The attempts among `messages` that are for one message, by their numbers. -/
def attemptNumbers (identity : DeliveryIdentity) (messages : List PendingMessage) : List ℕ :=
  (messages.filter fun m => decide (m.identity = identity)).map PendingMessage.attempts

@[simp] theorem attemptNumbers_nil (identity : DeliveryIdentity) :
    attemptNumbers identity [] = [] := rfl

theorem attemptNumbers_append (identity : DeliveryIdentity) (xs ys : List PendingMessage) :
    attemptNumbers identity (xs ++ ys) =
      attemptNumbers identity xs ++ attemptNumbers identity ys := by
  simp [attemptNumbers]

/-- The numbers of the attempts issued for one message, in order. -/
def issuedAttempts (identity : DeliveryIdentity) (log : List ((SendOp × HashOrder) × SendResult)) :
    List ℕ :=
  log.flatMap fun entry => attemptNumbers identity (sendIssued entry.2)

theorem issuedAttempts_snoc (identity : DeliveryIdentity)
    (log : List ((SendOp × HashOrder) × SendResult)) (entry : (SendOp × HashOrder) × SendResult) :
    issuedAttempts identity (log ++ [entry]) =
      issuedAttempts identity log ++ attemptNumbers identity (sendIssued entry.2) := by
  simp [issuedAttempts]

/-! ## Settling -/

def DeliverySendAttempt.identity (attempt : DeliverySendAttempt) : DeliveryIdentity :=
  ⟨attempt.peerId, attempt.messageId⟩

/-- The attempt is the current one of its message, and the message is being sent. -/
def CanSettle (attempt : DeliverySendAttempt) (store : DeliveryStore) : Prop :=
  ∃ m, store.pending.get? attempt.identity = some m ∧ m.state = .sending ∧
    m.attempts = attempt.attempt

section Settling

variable {attempt : DeliverySendAttempt} {store : DeliveryStore}

theorem resolvePendingIdentity_peer (store : DeliveryStore) (peerId : String)
    (messageId : MessageId) :
    resolvePendingIdentity store (some peerId) messageId =
      (store.pending.get? ⟨peerId, messageId⟩).map fun _ => ⟨peerId, messageId⟩ := by
  grind [resolvePendingIdentity]

/-- A due message within its budget is issued. -/
theorem beginSendForPeer_issue {peerId : String} {messageId : MessageId} {m : PendingMessage}
    (hpeer : isValidPeerId peerId = true) (hm : store.pending.get? ⟨peerId, messageId⟩ = some m)
    (now : ℕ) (hexpired : isExpired m now = false) (hdue : m.notDue now = false)
    (hbudget : m.begin.overBudget = false) (order : HashOrder) :
    (beginSendForPeer order store peerId messageId now).1 =
      { store with pending := store.pending.insert ⟨peerId, messageId⟩ m.begin } := by
  grind [beginSendForPeer, beginSendInner, resolvePendingIdentity]

/-- The current attempt puts its message back in the queue, within the budget. -/
theorem markSendFailedForAttempt_retry (attempt : DeliverySendAttempt) {m : PendingMessage}
    (hm : store.pending.get? attempt.identity = some m) (hstate : m.state = .sending)
    (hattempt : m.attempts = attempt.attempt) (now : ℕ) (hexpired : isExpired m now = false)
    (hbudget : m.exhausted = false) (order : HashOrder) :
    (markSendFailedForAttempt order store attempt now).1 =
      { store with
        pending := store.pending.insert attempt.identity { m with
          state := .queued
          nextRetryAt := now + m.retryPolicy.delayForAttempt m.attempts } } := by
  grind [markSendFailedForAttempt, markSendFailedInner, resolvePendingIdentity_peer,
    DeliverySendAttempt.identity]

/-- **A late success changes nothing.** -/
theorem markSentForAttempt_stale (h : ¬ CanSettle attempt store) (now : ℕ) :
    markSentForAttempt store attempt now = (store, false) := by
  unfold markSentForAttempt markSentInner
  rw [resolvePendingIdentity_peer]
  cases hm : store.pending.get? (⟨attempt.peerId, attempt.messageId⟩ : DeliveryIdentity) with
  | none => rfl
  | some m =>
    have hstale : m.state ≠ .sending ∨
        ((some attempt.attempt).any fun attempt => decide (m.attempts ≠ attempt)) = true := by
      by_contra hcurrent
      simp only [Option.any_some, decide_eq_true_eq, not_or, not_not] at hcurrent
      exact h ⟨m, hm, hcurrent⟩
    simp_all

/-- **A late failure changes nothing**, unless it finds the message expired. -/
theorem markSendFailedForAttempt_stale (h : ¬ CanSettle attempt store) (order : HashOrder)
    (now : ℕ) :
    markSendFailedForAttempt order store attempt now = (store, .notFound) ∨
      ∃ m, store.pending.get? attempt.identity = some m ∧ isExpired m now = true ∧
        markSendFailedForAttempt order store attempt now =
          (settle order store attempt.identity .expired, .expired) := by
  unfold markSendFailedForAttempt markSendFailedInner DeliverySendAttempt.identity
  rw [resolvePendingIdentity_peer]
  cases hm : store.pending.get? (⟨attempt.peerId, attempt.messageId⟩ : DeliveryIdentity) with
  | none => exact Or.inl rfl
  | some m =>
    simp only [Option.map_some, hm]
    by_cases hexpired : isExpired m now = true
    · simp_all
    · have hstale : ((some attempt.attempt).any fun attempt =>
          decide (m.state ≠ .sending ∨ m.attempts ≠ attempt)) = true := by
        by_contra hcurrent
        simp only [Option.any_some, decide_eq_true_eq, not_or, not_not] at hcurrent
        exact h ⟨m, hm, hcurrent⟩
      simp_all

end Settling

/-! ## The state of the leases -/

/-- **The leases of the message `m₀`** after the attempts `issued`: they are numbered from 1 on,
within the budget, and the pending message counts them and the bytes sent again. -/
structure LeaseState (m₀ : PendingMessage) (s : DeliveryStore) (issued : List ℕ) : Prop where
  numbers : issued = (List.range' 1 issued.length).map (min u32Max)
  attempts_le : min u32Max issued.length ≤ m₀.retryPolicy.maxAttempts
  bytes_le : ∀ limit ∈ m₀.retryPolicy.maxTotalRetryBytes,
    min u64Max ((issued.length - 1) * m₀.payload.length) ≤ limit
  policy_eq : ∀ {m}, s.pending.get? m₀.identity = some m → m.retryPolicy = m₀.retryPolicy
  payload_eq : ∀ {m}, s.pending.get? m₀.identity = some m → m.payload = m₀.payload
  attempts_eq : ∀ {m}, s.pending.get? m₀.identity = some m →
    m.attempts = min u32Max issued.length
  bytes_eq : ∀ {m}, s.pending.get? m₀.identity = some m →
    m.retryBytes = min u64Max ((issued.length - 1) * m₀.payload.length)

/-- The message of one identity stays, up to its state and its times, or is gone. -/
def KeepsCounters (identity : DeliveryIdentity) (s s' : DeliveryStore) : Prop :=
  ∀ m', s'.pending.get? identity = some m' →
    ∃ m, s.pending.get? identity = some m ∧ m'.retryPolicy = m.retryPolicy ∧
      m'.payload = m.payload ∧ m'.attempts = m.attempts ∧ m'.retryBytes = m.retryBytes

open PendingMessage

variable {config : DeliveryConfig} {s s' : DeliveryStore} {m₀ : PendingMessage} {issued : List ℕ}

section Steps

variable {m : PendingMessage} {a : SendAction}

theorem LeaseState.keep (h : LeaseState m₀ s issued) (hkeeps : KeepsCounters m₀.identity s s') :
    LeaseState m₀ s' issued where
  numbers := h.numbers
  attempts_le := h.attempts_le
  bytes_le := h.bytes_le
  policy_eq := fun hm' => by
    obtain ⟨m, hm, heq, -⟩ := hkeeps _ hm'
    exact heq.trans (h.policy_eq hm)
  payload_eq := fun hm' => by
    obtain ⟨m, hm, -, heq, -⟩ := hkeeps _ hm'
    exact heq.trans (h.payload_eq hm)
  attempts_eq := fun hm' => by
    obtain ⟨m, hm, -, -, heq, -⟩ := hkeeps _ hm'
    exact heq.trans (h.attempts_eq hm)
  bytes_eq := fun hm' => by
    obtain ⟨m, hm, -, -, -, heq⟩ := hkeeps _ hm'
    exact heq.trans (h.bytes_eq hm)

section

variable (h : LeaseState m₀ s issued) (hm : s.pending.get? m₀.identity = some m)

include h hm

theorem begin_attempts : m.begin.attempts = min u32Max (issued.length + 1) := by
  have hattempts := h.attempts_eq hm
  simp only [begin, saturatingAdd, hattempts]
  omega

theorem begin_retryBytes : m.begin.retryBytes = min u64Max (issued.length * m₀.payload.length) := by
  have hattempts := begin_attempts h hm
  have hbytes := h.bytes_eq hm
  have hpayload := h.payload_eq hm
  have hunfold : m.begin.retryBytes = min (m.retryBytes +
      if 1 < m.begin.attempts then m.payload.length else 0) u64Max := rfl
  rw [hunfold, hattempts, hbytes, hpayload]
  cases issued.length with
  | zero => simp [u32Max]
  | succ n =>
    grind [u32Max]

/-- Issuing an attempt extends the numbers by one and stays within the budget. -/
theorem LeaseState.issue (hbudget : m.begin.overBudget = false) :
    LeaseState m₀ { s with pending := s.pending.insert m₀.identity m.begin }
      (issued ++ [m.begin.attempts]) := by
  have hattempts := begin_attempts h hm
  have hbytes := begin_retryBytes h hm
  have hpolicy : m.begin.retryPolicy = m₀.retryPolicy := (h.policy_eq hm :)
  have hpayload : m.begin.payload = m₀.payload := (h.payload_eq hm :)
  simp only [overBudget, Bool.or_eq_false_iff, decide_eq_false_iff_not, not_lt,
    hpolicy] at hbudget
  -- the message counts its attempts and its bytes, and the budget was checked on these counts
  have hlength : (issued ++ [m.begin.attempts]).length = issued.length + 1 := by simp
  have hnew : ∀ {m'}, (s.pending.insert m₀.identity m.begin).get? m₀.identity = some m' →
      m' = m.begin := by
    simp
  constructor
  · grind [List.range'_concat, numbers]
  · omega
  · grind [Option.mem_def]
  · exact fun hm' => hnew hm' ▸ hpolicy
  · exact fun hm' => hnew hm' ▸ hpayload
  · grind
  · grind

end

theorem keepsCounters_of_eq {k : DeliveryIdentity}
    (h : s'.pending.get? k = s.pending.get? k) : KeepsCounters k s s' :=
  fun m hm => ⟨m, h ▸ hm, rfl, rfl, rfl, rfl⟩

/-- **One step of the queue** extends the attempts of the message by those it issues. -/
theorem LeaseState.step (hinv : SendInvariant config s) (h : LeaseState m₀ s issued)
    (hstep : SendStep config s a s') (hadd : ∀ m, a = .add m → m.identity ≠ m₀.identity) :
    LeaseState m₀ s' (issued ++ attemptNumbers m₀.identity a.issued.toList) := by
  cases hstep with
  | counters =>
    simp only [SendAction.issued, Option.toList_none, attemptNumbers_nil, List.append_nil]
    exact h.keep (keepsCounters_of_eq rfl)
  -- a message that waits keeps its counters, whatever its state
  | @wait identity m state nextRetryAt epoch hm =>
    simp only [SendAction.issued, Option.toList_none, attemptNumbers_nil, List.append_nil]
    refine h.keep fun m' hm' => ?_
    grind
  | @issue identity m hm hstate hbudget =>
    have hidentity : identity = m.begin.identity := (hinv.identity_eq hm :)
    -- an attempt of another message leaves this one alone
    by_cases hk : identity = m₀.identity
    · subst hk
      have hnumbers : attemptNumbers m₀.identity [m.begin] = [m.begin.attempts] := by
        simp [attemptNumbers, ← hidentity]
      simp only [SendAction.issued, Option.toList_some, hnumbers]
      exact h.issue hm hbudget
    · have hnumbers : attemptNumbers m₀.identity [m.begin] = [] := by
        simp [attemptNumbers, ← hidentity, hk]
      simp only [SendAction.issued, Option.toList_some, hnumbers, List.append_nil]
      refine h.keep (keepsCounters_of_eq ?_)
      grind
  | settle order outcome hm =>
    simp only [SendAction.issued, Option.toList_none, attemptNumbers_nil, List.append_nil]
    refine h.keep fun m' hm' => ?_
    grind [settle_parts]
  | @add m =>
    simp only [SendAction.issued, Option.toList_none, attemptNumbers_nil, List.append_nil]
    refine h.keep (keepsCounters_of_eq ?_)
    grind

end Steps

/-! ## Runs -/

section Runs

variable {messages : List PendingMessage} {added : Option DeliveryIdentity}

theorem LeaseState.path (hinv : SendInvariant config s) (h : LeaseState m₀ s issued)
    (hpath : SendPath config messages s s') :
    LeaseState m₀ s' (issued ++ attemptNumbers m₀.identity messages) := by
  obtain ⟨actions, htrace, rfl, hadds⟩ := hpath
  refine And.right <| htrace.history_invariant (P := fun a => ∀ m, a ≠ .add m) (l := [])
    (I := fun t log => SendInvariant config t ∧
      LeaseState m₀ t (issued ++ attemptNumbers m₀.identity (log.filterMap SendAction.issued)))
    ?_ ⟨hinv, by simpa using h⟩ fun a ha m heq => hadds m (heq ▸ ha)
  rintro t a u log ⟨ht, hlease⟩ ha hstep
  refine ⟨ht.step hstep, ?_⟩
  have hlog : (log ++ [a]).filterMap SendAction.issued =
      log.filterMap SendAction.issued ++ a.issued.toList := by
    grind
  rw [hlog, attemptNumbers_append, ← List.append_assoc]
  exact hlease.step ht hstep fun m heq => absurd heq (ha m)

theorem LeaseState.addsLast (hinv : SendInvariant config s) (h : LeaseState m₀ s issued)
    (hadds : AddsLast config messages added s s') (hadded : added ≠ some m₀.identity) :
    LeaseState m₀ s' (issued ++ attemptNumbers m₀.identity messages) := by
  obtain ⟨t, hpath, -, rfl | ⟨m, hadd, rfl⟩⟩ := hadds
  · exact h.path hinv hpath
  · have hlast := (h.path hinv hpath).step (hinv.path hpath) hadd
    grind [SendAction.issued, attemptNumbers_nil]

/-- A message that was just accepted has no attempts behind it, and no other has its identity. -/
theorem enqueueAt_ok {order : HashOrder} {candidates : List MessageId} {peerId channelId : String}
    {payload : Bytes} {policy : DeliveryPolicy} {retryPolicy : RetryPolicy} {now : ℕ}
    (h : enqueueAt config order candidates s peerId channelId payload policy retryPolicy now =
      some (s', .ok m₀)) :
    m₀.attempts = 0 ∧ m₀.retryBytes = 0 ∧
      ∀ m, s'.pending.get? m₀.identity = some m → m = m₀ := by
  unfold enqueueAt at h
  dsimp only at h
  split_ifs at h
  all_goals try cases h
  split at h
  · cases h
  · next messageId hid =>
    cases h
    refine ⟨rfl, rfl, fun m hm => ?_⟩
    unfold storePending at hm
    split_ifs at hm
    · cases (nextMessageId_fresh _ hid).1.symm.trans hm
    · simp_all

theorem LeaseState.enqueued {x : SendOp × HashOrder}
    (h : (sendStep config s x).2 = .enqueued (.ok m₀)) :
    LeaseState m₀ (sendStep config s x).1 [] := by
  obtain ⟨op, order⟩ := x
  cases op with
  | enqueue peerId channelId payload policy retryPolicy now candidates =>
    simp only [sendStep] at h ⊢
    split at h
    · next result hresult =>
      obtain ⟨s', outcome⟩ := result
      cases h
      obtain ⟨hattempts, hbytes, honly⟩ := enqueueAt_ok hresult
      constructor
      · rfl
      · simp
      · simp
      · exact fun hm => honly _ hm ▸ rfl
      · exact fun hm => honly _ hm ▸ rfl
      · simp_all
      · simp_all
    · cases h
  | _ => cases h

/-- The attempts of a run, from the acceptance of the message on. -/
theorem leaseState_run (config : DeliveryConfig) (before : List (SendOp × HashOrder))
    (x : SendOp × HashOrder) (m₀ : PendingMessage)
    (hx : (sendStep config ((sendMachine config).run before) x).2 = .enqueued (.ok m₀))
    (ops : List (SendOp × HashOrder))
    (hops : (sendMachine config).AlongFrom
      (fun s x => sendAdded (sendStep config s x).2 ≠ some m₀.identity)
      ((sendMachine config).run (before ++ [x])) ops) :
    LeaseState m₀ ((sendMachine config).run (before ++ [x] ++ ops))
      (issuedAttempts m₀.identity
        ((sendMachine config).transcriptFrom ((sendMachine config).run (before ++ [x])) ops)) := by
  rw [Machine.run_append]
  refine And.right <| (sendMachine config).transcriptFrom_invariant (I := fun s log =>
    SendInvariant config s ∧ LeaseState m₀ s (issuedAttempts m₀.identity log)) ⟨?_, ?_⟩ ?_ hops
  · exact sendInvariant_run config (before ++ [x])
  · rw [Machine.run_snoc]
    exact .enqueued hx
  · rintro s log y ⟨hinv, hlease⟩ hy
    refine ⟨hinv.addsLast (sendStep_path config s y), ?_⟩
    rw [issuedAttempts_snoc]
    exact hlease.addsLast hinv (sendStep_path config s y) hy

/-- **The leases of a message.** In every run, from the acceptance of the message on and for as
long as its identity is not drawn again, with fewer than `2 ^ 32` attempts: the attempts are
numbered 1, 2, 3 and so on, at most one of them can still settle the message, and they and the
bytes sent again stay within the retry budget, a budget of `2 ^ 64 - 1` bytes apart. An attempt
that is not the current one, or whose message is not being sent, leaves the store as it is, except
that a failure may find the message expired. -/
theorem send_attempt_leases (config : DeliveryConfig) (before : List (SendOp × HashOrder))
    (x : SendOp × HashOrder) (m₀ : PendingMessage)
    (hx : (sendStep config ((sendMachine config).run before) x).2 = .enqueued (.ok m₀))
    (ops : List (SendOp × HashOrder))
    (hops : (sendMachine config).AlongFrom
      (fun s x => sendAdded (sendStep config s x).2 ≠ some m₀.identity)
      ((sendMachine config).run (before ++ [x])) ops)
    (s : DeliveryStore) (hs : s = (sendMachine config).run (before ++ [x] ++ ops))
    (issued : List ℕ) (hissued : issued = issuedAttempts m₀.identity
      ((sendMachine config).transcriptFrom ((sendMachine config).run (before ++ [x])) ops))
    (hcount : issued.length ≤ u32Max) :
    issued = List.range' 1 issued.length ∧
    (∀ a b : DeliverySendAttempt, a.identity = m₀.identity → b.identity = m₀.identity →
      CanSettle a s → CanSettle b s → a.attempt = b.attempt) ∧
    (∀ a : DeliverySendAttempt, ¬ CanSettle a s → ∀ order now,
      markSentForAttempt s a now = (s, false) ∧
      (markSendFailedForAttempt order s a now = (s, .notFound) ∨
        ∃ m, s.pending.get? a.identity = some m ∧ isExpired m now = true ∧
          markSendFailedForAttempt order s a now =
            (settle order s a.identity .expired, .expired))) ∧
    issued.length ≤ m₀.retryPolicy.maxAttempts ∧
    ∀ limit ∈ m₀.retryPolicy.maxTotalRetryBytes, limit < u64Max →
      (issued.length - 1) * m₀.payload.length ≤ limit := by
  have hlease := leaseState_run config before x m₀ hx ops hops
  rw [← hs, ← hissued] at hlease
  refine ⟨?_, ?_, ?_, ?_, ?_⟩
  · refine hlease.numbers.trans ((List.map_congr_left fun n hn => ?_).trans (List.map_id _))
    grind
  · rintro a b ha hb ⟨m, hm, -, hattempts⟩ ⟨m', hm', -, hattempts'⟩
    simp_all
  · grind [markSentForAttempt_stale, markSendFailedForAttempt_stale]
  · exact (Nat.min_eq_right hcount).symm.le.trans hlease.attempts_le
  · intro limit hlimit hmax
    have hbytes := hlease.bytes_le limit hlimit
    omega

end Runs

/-- The acceptance of a message of the channel `("peer", "chat")`. -/
def enqueueChat (n : UInt8) (payload : Bytes) (policy : DeliveryPolicy)
    (retryPolicy : RetryPolicy) : SendOp × HashOrder :=
  (.enqueue "peer" "chat" payload policy retryPolicy 0 [.fill n], .zero)

/-- The message that `enqueueChat` puts in an empty queue, after some attempts. -/
def chatPending (n : UInt8) (payload : Bytes) (policy : DeliveryPolicy)
    (retryPolicy : RetryPolicy) (attempts retryBytes : ℕ) (state : DeliveryState) :
    PendingMessage :=
  ⟨.fill n, "peer", "chat", 0, payload, policy, state, attempts, 0,
    retryPolicy.ttl.map fun ttl => 0 + ttl, 0, retryPolicy, 0, retryBytes⟩

/-- The lease of one attempt of that message. -/
def chatAttempt (m : PendingMessage) : DeliverySendAttempt := ⟨"peer", m.messageId, m.attempts, m⟩

/-- A message whose first attempt is overtaken by a reconnect. -/
def overtakenMessage (attempts retryBytes : ℕ) (state : DeliveryState) : PendingMessage :=
  chatPending 1 [1, 2, 3] .acked .default attempts retryBytes state

/-- The first attempt reports its success after the second one has begun. -/
def overtakenRun : List (SendOp × HashOrder) :=
  [(.beginSendForPeer "peer" (.fill 1) 0, .zero),
    (.recoverPeer "peer" 0, .zero),
    (.beginSendForPeer "peer" (.fill 1) 0, .zero),
    (.markSentForAttempt (chatAttempt (overtakenMessage 1 0 .sending)) 0, .zero)]

theorem send_attempt_leases_overtakenRun :
    issuedAttempts ⟨"peer", .fill 1⟩ ((sendMachine .default).transcriptFrom
      ((sendMachine .default).run [enqueueChat 1 [1, 2, 3] .acked .default]) overtakenRun) =
        [1, 2] ∧
    markSentForAttempt ((sendMachine .default).run
      (enqueueChat 1 [1, 2, 3] .acked .default :: overtakenRun))
      (chatAttempt (overtakenMessage 1 0 .sending)) 0 =
        ((sendMachine .default).run (enqueueChat 1 [1, 2, 3] .acked .default :: overtakenRun),
          false) := by
  obtain ⟨hissued, -, hstale, -⟩ := send_attempt_leases .default []
    (enqueueChat 1 [1, 2, 3] .acked .default) (overtakenMessage 0 0 .queued) rfl overtakenRun
    (by decide) _ rfl _ rfl (by decide)
  refine ⟨hissued, (hstale _ ?_ .zero 0).1⟩
  rintro ⟨m, hm, -, hfirst⟩
  have hsecond : (some m).map attempts = some 2 :=
    (congrArg (Option.map attempts) hm).symm.trans (by decide)
  cases hfirst.symm.trans (Option.some.inj hsecond)

/-! ## A budget that bounds nothing -/

section Overrun

variable {payload : Bytes} {attempts n : ℕ}

/-- Attempts without pauses, and the largest budget of bytes. -/
def overrunPolicy : RetryPolicy where
  maxAttempts := 2 ^ 32 - 2
  initialBackoff := 0
  maxBackoff := 0
  ttl := none
  maxTotalRetryBytes := some u64Max

/-- Room for one message of `2 ^ 32 + 4` bytes. -/
def overrunConfig : DeliveryConfig :=
  { DeliveryConfig.default with maxPendingBytes := 2 ^ 32 + 4, maxPayloadBytes := 2 ^ 32 + 4 }

def overrunMessage (payload : Bytes) (attempts retryBytes : ℕ) (state : DeliveryState) :
    PendingMessage :=
  chatPending 1 payload .acked overrunPolicy attempts retryBytes state

/-- The message is pending after `attempts` attempts. -/
def Overrun (payload : Bytes) (attempts : ℕ) (state : DeliveryState) (s : DeliveryStore) : Prop :=
  ∃ retryBytes, s.pending.get? ⟨"peer", .fill 1⟩ =
    some (overrunMessage payload attempts retryBytes state)

def overrunBegin : SendOp × HashOrder := (.beginSendForPeer "peer" (.fill 1) 0, .zero)

def overrunFail (payload : Bytes) (attempts : ℕ) : SendOp × HashOrder :=
  (.markSendFailedForAttempt (chatAttempt (overrunMessage payload attempts 0 .sending)) 0, .zero)

theorem enqueueAt_overrun (h : payload.length = 2 ^ 32 + 4) :
    enqueueAt overrunConfig .zero [.fill 1] .new "peer" "chat" payload .acked overrunPolicy 0 =
      some (storePending (allocateSequence .new ("peer", "chat"))
        (chatPending 1 payload .acked overrunPolicy 0 0 .queued),
        .ok (chatPending 1 payload .acked overrunPolicy 0 0 .queued)) := by
  have hroom : ¬ overrunConfig.maxPayloadBytes < payload.length := by simp [overrunConfig, h]
  have hqueue : ¬ queueFull overrunConfig .new payload .acked = true := by
    have hpending : ¬ overrunConfig.maxPendingMessages ≤ DeliveryStore.new.pending.size := by decide
    grind [overrunConfig, DeliveryStore.new, queueFull]
  unfold enqueueAt
  rw [if_neg (by decide), if_neg hroom, if_neg (by decide)]
  exact (if_neg hqueue).trans rfl

theorem overrun_enqueue (h : payload.length = 2 ^ 32 + 4) :
    (sendStep overrunConfig .new (enqueueChat 1 payload .acked overrunPolicy)).2 =
      .enqueued (.ok (overrunMessage payload 0 0 .queued)) ∧
    Overrun payload 0 .queued
      (sendStep overrunConfig .new (enqueueChat 1 payload .acked overrunPolicy)).1 := by
  simp only [enqueueChat, sendStep, enqueueAt_overrun h]
  exact ⟨rfl, 0, Table.get?_insert_self _ _ _⟩

theorem overrunMessage_begin {retryBytes : ℕ} (hattempts : attempts < 2 ^ 32 - 2) :
    (overrunMessage payload attempts retryBytes .queued).begin =
      overrunMessage payload (attempts + 1)
        (overrunMessage payload attempts retryBytes .queued).begin.retryBytes .sending := by
  grind [u32Max, saturatingAdd_of_le, overrunMessage, chatPending, begin]

/-- A further attempt is issued, whatever the bytes: no counter exceeds the largest value. -/
theorem overrun_begin (h : Overrun payload attempts .queued s) (hattempts : attempts < 2 ^ 32 - 2) :
    Overrun payload (attempts + 1) .sending (sendStep overrunConfig s overrunBegin).1 := by
  obtain ⟨retryBytes, hm⟩ := h
  have hbudget : (overrunMessage payload attempts retryBytes .queued).begin.overBudget = false := by
    have hbytes := saturatingAdd_le_bound u64Max
    rw [overrunMessage_begin hattempts]
    simp [overBudget, begin, overrunMessage, chatPending,
      overrunPolicy, hbytes]
    omega
  have hnext := beginSendForPeer_issue (by decide) hm 0 rfl rfl hbudget .zero
  refine ⟨(overrunMessage payload attempts retryBytes .queued).begin.retryBytes, ?_⟩
  rw [← overrunMessage_begin hattempts]
  exact (congrArg (fun s : DeliveryStore => s.pending.get? ⟨"peer", .fill 1⟩) hnext).trans
    (Table.get?_insert_self _ _ _)

theorem overrun_fail (h : Overrun payload attempts .sending s) (hattempts : attempts < 2 ^ 32 - 2) :
    Overrun payload attempts .queued
      (sendStep overrunConfig s (overrunFail payload attempts)).1 := by
  obtain ⟨retryBytes, hm⟩ := h
  have hbudget : (overrunMessage payload attempts retryBytes .sending).exhausted = false := by
    grind [saturatingAdd_le_bound, exhausted, overrunMessage, chatPending,
      overrunPolicy]
  have hnext := markSendFailedForAttempt_retry
    (chatAttempt (overrunMessage payload attempts 0 .sending)) hm rfl rfl 0 rfl hbudget .zero
  refine ⟨retryBytes, ?_⟩
  refine (congrArg (fun s : DeliveryStore => s.pending.get? ⟨"peer", .fill 1⟩) hnext).trans ?_
  refine (Table.get?_insert_self _ _ _).trans ?_
  simp [overrunMessage, chatPending, overrunPolicy, RetryPolicy.delayForAttempt]

/-- Attempts that all fail. -/
def overrunCycles (payload : Bytes) : ℕ → List (SendOp × HashOrder)
  | 0 => []
  | n + 1 => overrunCycles payload n ++ [overrunBegin] ++ [overrunFail payload (n + 1)]

theorem addsNothing_overrunCycles (payload : Bytes) (n : ℕ) :
    ∀ x ∈ overrunCycles payload n, x.1.AddsNothing := by
  induction n with
  | zero => exact List.forall_mem_nil _
  | succ n ih =>
    intro x hx
    simp only [overrunCycles, List.append_assoc, List.mem_append, List.mem_singleton] at hx
    obtain hx | rfl | rfl := hx
    · exact ih x hx
    · trivial
    · trivial

theorem overrun_cycles (h : Overrun payload 0 .queued s) (hn : n < 2 ^ 32 - 2) :
    Overrun payload n .queued
      ((sendMachine overrunConfig).runFrom s (overrunCycles payload n)) := by
  induction n with
  | zero => exact h
  | succ n ih =>
    rw [overrunCycles, Machine.runFrom_snoc, Machine.runFrom_snoc]
    exact overrun_fail (overrun_begin (ih (by omega)) (by omega)) hn

/-- One attempt more than `n` of the message. -/
def overrunOps (payload : Bytes) (n : ℕ) : List (SendOp × HashOrder) :=
  overrunCycles payload n ++ [overrunBegin]

theorem along_overrunOps (payload : Bytes) (n : ℕ) (s : DeliveryStore)
    (identity : DeliveryIdentity) :
    (sendMachine overrunConfig).AlongFrom
      (fun s x => sendAdded (sendStep overrunConfig s x).2 ≠ some identity) s
      (overrunOps payload n) := by
  have hops : ∀ x ∈ overrunOps payload n, x.1.AddsNothing := by
    intro x hx
    obtain hx | hx := List.mem_append.mp hx
    · exact addsNothing_overrunCycles payload n x hx
    · cases List.mem_singleton.mp hx
      trivial
  refine (sendMachine overrunConfig).alongFrom_mono (fun s x hx => ?_)
    ((sendMachine overrunConfig).alongFrom_of_forall s hops)
  grind [sendAdded_of_addsNothing]

/-- The attempts that the run issues. -/
def overrunIssued (payload : Bytes) (n : ℕ) : List ℕ :=
  issuedAttempts ⟨"peer", .fill 1⟩ ((sendMachine overrunConfig).transcriptFrom
    ((sendMachine overrunConfig).run [enqueueChat 1 payload .acked overrunPolicy])
    (overrunOps payload n))

theorem overrun_last (h : payload.length = 2 ^ 32 + 4) (hn : n < 2 ^ 32 - 2) :
    Overrun payload (n + 1) .sending ((sendMachine overrunConfig).run
      ([] ++ [enqueueChat 1 payload .acked overrunPolicy] ++ overrunOps payload n)) := by
  have hstart : (sendMachine overrunConfig).run
      ([] ++ [enqueueChat 1 payload .acked overrunPolicy]) =
        (sendStep overrunConfig .new (enqueueChat 1 payload .acked overrunPolicy)).1 := rfl
  rw [Machine.run_append, hstart, overrunOps, Machine.runFrom_snoc]
  exact overrun_begin (overrun_cycles (overrun_enqueue h).2 hn) hn

theorem length_overrunIssued (h : payload.length = 2 ^ 32 + 4) (hn : n < 2 ^ 32 - 2) :
    (overrunIssued payload n).length = n + 1 := by
  have hlease := leaseState_run overrunConfig [] _ _ (overrun_enqueue h).1 (overrunOps payload n)
    (along_overrunOps payload n _ _)
  obtain ⟨retryBytes, hlast⟩ := overrun_last h hn
  have hcount : n + 1 = min u32Max (overrunIssued payload n).length := hlease.attempts_eq hlast
  unfold u32Max at hcount
  omega

/-- **A budget of `2 ^ 64 - 1` bytes is no bound**: the counter of the bytes stops at that value and
never exceeds it. A message of `2 ^ 32 + 4` bytes is sent `2 ^ 32 - 2` times. -/
theorem saturated_budget_overrun :
    ∃ (config : DeliveryConfig) (x : SendOp × HashOrder) (m₀ : PendingMessage)
      (ops : List (SendOp × HashOrder)) (issued : List ℕ) (limit : ℕ),
      (sendStep config .new x).2 = .enqueued (.ok m₀) ∧
      (sendMachine config).AlongFrom
        (fun s x => sendAdded (sendStep config s x).2 ≠ some m₀.identity)
        ((sendMachine config).run [x]) ops ∧
      issued = issuedAttempts m₀.identity
        ((sendMachine config).transcriptFrom ((sendMachine config).run [x]) ops) ∧
      issued.length ≤ u32Max ∧ limit ∈ m₀.retryPolicy.maxTotalRetryBytes ∧
      limit < (issued.length - 1) * m₀.payload.length := by
  obtain ⟨payload, hpayload⟩ : ∃ payload : Bytes, payload.length = 2 ^ 32 + 4 :=
    ⟨List.replicate (2 ^ 32 + 4) 0, List.length_replicate⟩
  obtain ⟨n, hn⟩ : ∃ n, n = 2 ^ 32 - 3 := ⟨_, rfl⟩
  have hlength := length_overrunIssued hpayload (n := n) (by omega)
  refine ⟨overrunConfig, _, _, overrunOps payload n, overrunIssued payload n, u64Max,
    (overrun_enqueue hpayload).1, along_overrunOps payload n _ _, rfl, ?_, rfl, ?_⟩
  · rw [hlength, hn]
    decide
  · rw [hlength, overrunMessage, chatPending, hpayload, hn]
    decide

end Overrun

end SshMobile.Delivery
