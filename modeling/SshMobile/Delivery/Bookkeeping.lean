import SshMobile.Delivery.Queue

/-!
# The bookkeeping of the send queue

The queue counts its bytes, respects its limits and knows every message by its identity, and no
message is pending and settled at once. A message leaves the queue once, with one outcome: the
statuses of an identity along a run are unknown, then pending, then one outcome, for as long as the
bounded history keeps that outcome; a lost outcome had been recorded, and was evicted from a full
history for the outcome of another message.

## Main definitions

* `SendInvariant`: what holds of every reachable store
* `MessageStatus`, `status`, `MessageStatus.Move`: the life of a message
* `LosesOutcome`: an operation after which the outcome of a message is gone
* `Evicted`: the outcome of a message is recorded, and another message takes its place

## Main results

* `SendInvariant.step`: every step keeps the invariant
* `sender_bookkeeping`: the bookkeeping of every run
-/

namespace SshMobile.Delivery

open Library

/-- The payload bytes of a table of pending messages. -/
def payloadBytes (pending : Table DeliveryIdentity PendingMessage) : ℕ :=
  pending.sumBy fun _ message => message.payload.length

/-- **The invariant of the queue.** -/
structure SendInvariant (config : DeliveryConfig) (store : DeliveryStore) : Prop where
  bytes_eq : store.pendingBytes = payloadBytes store.pending
  size_le : store.pending.size ≤ config.maxPendingMessages
  bytes_le : store.pendingBytes ≤ config.maxPendingBytes
  identity_eq : ∀ {identity message}, store.pending.get? identity = some message →
    identity = message.identity
  disjoint : ∀ {identity message}, store.pending.get? identity = some message →
    store.terminalOutcomes.get? identity = none
  history_le : store.terminalOutcomes.size ≤ maxTerminalOutcomes

theorem SendInvariant.new (config : DeliveryConfig) : SendInvariant config .new where
  bytes_eq := rfl
  size_le := Nat.zero_le _
  bytes_le := Nat.zero_le _
  identity_eq := fun h => by cases h
  disjoint := fun h => by cases h
  history_le := Nat.zero_le _

/-! ## The history of outcomes -/

variable {identity : DeliveryIdentity} {outcome : DeliveryTerminalOutcome}

section History

variable {outcomes : Table DeliveryIdentity DeliveryTerminalOutcome} {store : DeliveryStore}
  {other : DeliveryIdentity}

/-- Making room leaves the history as it is, or removes one outcome from a full one. -/
theorem evictTerminal_cases (order : HashOrder) (hnone : outcomes.get? identity = none)
    (hsize : outcomes.size ≤ maxTerminalOutcomes) :
    (outcomes.size < maxTerminalOutcomes ∧ evictTerminal order outcomes identity = outcomes) ∨
    ∃ oldest found, outcomes.size = maxTerminalOutcomes ∧ outcomes.get? oldest = some found ∧
      evictTerminal order outcomes identity = outcomes.erase oldest := by
  unfold evictTerminal
  rw [Table.contains_eq_false.mpr hnone]
  by_cases hfull : maxTerminalOutcomes ≤ outcomes.size
  · have heq : outcomes.size = maxTerminalOutcomes := le_antisymm hsize hfull
    rw [if_pos (by simpa using hfull)]
    cases hhead : (outcomes.iter (order.terminal outcomes)).head? with
    | none =>
      have hlen := (Table.iter_perm (order.terminal outcomes) outcomes).length_eq
      rw [List.head?_eq_none_iff.mp hhead, Table.length_toList, heq] at hlen
      cases hlen
    | some oldest =>
      refine Or.inr ⟨oldest.1, oldest.2, heq, ?_, rfl⟩
      exact Table.exists_get?_of_iter (List.mem_of_mem_head? hhead)
  · grind

theorem recordTerminal_outcomes (order : HashOrder) (outcome : DeliveryTerminalOutcome)
    (hnone : store.terminalOutcomes.get? identity = none) :
    (evictTerminal order store.terminalOutcomes identity).get? identity = none ∧
    (recordTerminal order store identity outcome).terminalOutcomes =
      (evictTerminal order store.terminalOutcomes identity).insert identity outcome := by
  grind [evictTerminal, recordTerminal]

/-- What a settled message does to the history: its outcome is there; another outcome is there as
before, or is gone from a history that was full; the history does not shrink and keeps its bound. -/
structure Recorded (identity : DeliveryIdentity) (outcome : DeliveryTerminalOutcome)
    (before after : Table DeliveryIdentity DeliveryTerminalOutcome) : Prop where
  own : after.get? identity = some outcome
  other : ∀ {k}, k ≠ identity → after.get? k = before.get? k ∨
    (after.get? k = none ∧ before.size = maxTerminalOutcomes)
  grows : before.size ≤ after.size
  bounded : after.size ≤ maxTerminalOutcomes

theorem recordTerminal_recorded (order : HashOrder) (outcome : DeliveryTerminalOutcome)
    (hnone : store.terminalOutcomes.get? identity = none)
    (hsize : store.terminalOutcomes.size ≤ maxTerminalOutcomes) :
    Recorded identity outcome store.terminalOutcomes
      (recordTerminal order store identity outcome).terminalOutcomes := by
  obtain ⟨hevicted, heq⟩ := recordTerminal_outcomes order outcome hnone
  rw [heq]
  have hinsert := Table.size_insert_of_none (v := outcome) hevicted
  obtain ⟨hlt, hsame⟩ | ⟨oldest, found, hfull, hfound, herase⟩ :=
    evictTerminal_cases order hnone hsize
  · rw [hsame] at hinsert ⊢
    refine ⟨Table.get?_insert_self _ _ _, fun hk => Or.inl ?_, by omega, by omega⟩
    rw [Table.get?_insert, if_neg hk]
  · rw [herase] at hinsert ⊢
    have hsmaller := Table.size_erase_of_some hfound
    refine ⟨Table.get?_insert_self _ _ _, ?_, by omega, by omega⟩
    grind

end History

/-! ## Every step keeps the invariant -/

variable {config : DeliveryConfig} {s s' : DeliveryStore} {a : SendAction}
  {message : PendingMessage}

section Steps

/-- The parts of a settled store. -/
theorem settle_parts (order : HashOrder) (outcome : DeliveryTerminalOutcome)
    (hm : s.pending.get? identity = some message) :
    (settle order s identity outcome).pending = s.pending.erase identity ∧
    (settle order s identity outcome).pendingBytes = s.pendingBytes - message.payload.length ∧
    (settle order s identity outcome).terminalOutcomes =
      (recordTerminal order s identity outcome).terminalOutcomes := by
  rw [settle, removePending_some hm]
  exact ⟨rfl, rfl, rfl⟩

section

variable (h : SendInvariant config s)

include h

theorem SendInvariant.settle (order : HashOrder) (outcome : DeliveryTerminalOutcome)
    (hm : s.pending.get? identity = some message) :
    SendInvariant config (settle order s identity outcome) := by
  obtain ⟨hpending, hbytes, houtcomes⟩ := settle_parts order outcome hm
  have hrecorded := recordTerminal_recorded order outcome (h.disjoint hm) h.history_le
  rw [← houtcomes] at hrecorded
  have hsum := Table.sumBy_erase (f := fun _ m => m.payload.length) hm
  have hsize := Table.size_erase_le identity s.pending
  have hold : ∀ {k m}, (s.pending.erase identity).get? k = some m →
      k ≠ identity ∧ s.pending.get? k = some m := by
    grind
  have hb := h.bytes_eq
  have hl := h.bytes_le
  have hs := h.size_le
  refine ⟨?_, ?_, ?_, ?_, ?_, hrecorded.bounded⟩
  · grind [payloadBytes]
  · rw [hpending]
    omega
  · rw [hbytes]
    omega
  · intro k m hget
    rw [hpending] at hget
    exact h.identity_eq (hold hget).2
  · intro k m hget
    rw [hpending] at hget
    obtain ⟨hne, hget⟩ := hold hget
    -- another identity keeps its outcome or was evicted, and is not pending with one either way
    obtain heq | ⟨hnone, -⟩ := hrecorded.other hne
    · rw [heq]
      exact h.disjoint hget
    · exact hnone

/-- A message is replaced by one with the same identity and payload. -/
theorem SendInvariant.replace {m' : PendingMessage} (hm : s.pending.get? identity = some message)
    (hidentity : m'.identity = message.identity) (hpayload : m'.payload = message.payload) :
    SendInvariant config { s with pending := s.pending.insert identity m' } := by
  have hsum := Table.sumBy_insert_of_some (f := fun _ m => m.payload.length) (w := m') hm
  refine ⟨?_, ?_, h.bytes_le, ?_, ?_, h.history_le⟩
  · grind [bytes_eq, payloadBytes]
  · rw [Table.size_insert_of_some hm]
    exact h.size_le
  · intro k m hget
    rw [Table.get?_insert] at hget
    split_ifs at hget with hk
    · cases hget
      rw [hk, hidentity]
      exact h.identity_eq hm
    · exact h.identity_eq hget
  · intro k m hget
    rw [Table.get?_insert] at hget
    split_ifs at hget with hk
    · rw [hk]
      exact h.disjoint hm
    · exact h.disjoint hget

/-- **Every step of the queue keeps the invariant.** -/
theorem SendInvariant.step (hstep : SendStep config s a s') :
    SendInvariant config s' := by
  cases hstep with
  | counters => exact ⟨h.bytes_eq, h.size_le, h.bytes_le, h.identity_eq, h.disjoint, h.history_le⟩
  | wait state nextRetryAt epoch hm | issue hm => exact h.replace hm rfl rfl
  | settle order outcome hm => exact h.settle order outcome hm
  | @add m hpending hterminal hsize hbytes =>
    have hsum := Table.sumBy_insert (f := fun _ m => m.payload.length) (v := m) hpending
    have hcount := Table.size_insert_of_none (v := m) hpending
    refine ⟨?_, ?_, hbytes, ?_, ?_, h.history_le⟩
    · grind [bytes_eq, payloadBytes]
    · simp only
      omega
    · intro k m' hget
      rw [Table.get?_insert] at hget
      split_ifs at hget with hk
      · cases hget
        exact hk
      · exact h.identity_eq hget
    · intro k m' hget
      rw [Table.get?_insert] at hget
      split_ifs at hget with hk
      · rw [hk]
        exact hterminal
      · exact h.disjoint hget

end

end Steps

/-! ## The life of a message -/

inductive MessageStatus
  | unknown
  | pending
  | settled (outcome : DeliveryTerminalOutcome)
deriving DecidableEq

def status (identity : DeliveryIdentity) (store : DeliveryStore) : MessageStatus :=
  if store.pending.contains identity then .pending
  else
    match store.terminalOutcomes.get? identity with
    | some outcome => .settled outcome
    | none => .unknown

/-- How a status may change: a message comes into the queue, and leaves it with one outcome. -/
inductive MessageStatus.Move : MessageStatus → MessageStatus → Prop
  | stay (st : MessageStatus) : Move st st
  | enter : Move .unknown .pending
  | leave (outcome : DeliveryTerminalOutcome) : Move .pending (.settled outcome)

/-- The outcome of the message is gone after the operation: it was recorded before, or the message
left the queue in the operation, which may even have drawn its identity again. -/
def LosesOutcome (config : DeliveryConfig) (identity : DeliveryIdentity) (s : DeliveryStore)
    (x : SendOp × HashOrder) : Prop :=
  (sendStep config s x).1.terminalOutcomes.get? identity = none ∧
    ((∃ outcome, status identity s = .settled outcome) ∨
      (status identity s = .pending ∧
        (status identity (sendStep config s x).1 ≠ .pending ∨
          sendAdded (sendStep config s x).2 = some identity)))

/-- **An eviction**: another message is settled while the history is full, and the outcome that was
recorded for this one is gone. -/
structure Evicts (config : DeliveryConfig) (identity : DeliveryIdentity) (s s' : DeliveryStore) :
    Prop where
  recorded : ∃ outcome, s.terminalOutcomes.get? identity = some outcome
  full : s.terminalOutcomes.size = maxTerminalOutcomes
  settles : ∃ other outcome, other ≠ identity ∧ SendStep config s (.settle other outcome) s'
  gone : s'.terminalOutcomes.get? identity = none

/-- One of the steps from `s` to `s'` evicts the outcome of the message. -/
def Evicted (config : DeliveryConfig) (identity : DeliveryIdentity) (s s' : DeliveryStore) : Prop :=
  ∃ before t u after, Trace (SendStep config) s before t ∧ Evicts config identity t u ∧
    Trace (SendStep config) u after s'

variable {issued : List PendingMessage}

namespace Evicted

variable {t : DeliveryStore} {before after : List SendAction}

theorem prepend (htrace : Trace (SendStep config) s before t) (h : Evicted config identity t s') :
    Evicted config identity s s' := by
  obtain ⟨between, u, v, after, hbetween, hevicts, hafter⟩ := h
  exact ⟨before ++ between, u, v, after, htrace.append hbetween, hevicts, hafter⟩

theorem append (h : Evicted config identity s t) (htrace : Trace (SendStep config) t after s') :
    Evicted config identity s s' := by
  obtain ⟨before, u, v, between, hbefore, hevicts, hbetween⟩ := h
  exact ⟨before, u, v, between ++ after, hbefore, hevicts, hbetween.append htrace⟩

end Evicted

section Life

theorem status_pending (h : s.pending.get? identity = some message) :
    status identity s = .pending :=
  if_pos (Table.contains_eq_true.mpr ⟨message, h⟩)

theorem status_of_not_pending (h : s.pending.get? identity = none) :
    status identity s = match s.terminalOutcomes.get? identity with
      | some outcome => .settled outcome
      | none => .unknown := by
  grind [status]

theorem status_congr (hpending : s'.pending.contains identity = s.pending.contains identity)
    (houtcome : s'.terminalOutcomes.get? identity = s.terminalOutcomes.get? identity) :
    status identity s' = status identity s := by
  rw [status, hpending, houtcome]
  rfl

theorem contains_replace {m : PendingMessage} (hm : s.pending.get? identity = some message)
    (k : DeliveryIdentity) :
    (s.pending.insert identity m).contains k = s.pending.contains k := by
  grind

/-- What one step may do to a status without adding a message. -/
def StatusChange (config : DeliveryConfig) (identity : DeliveryIdentity) (s s' : DeliveryStore) :
    Prop :=
  status identity s' = status identity s ∨
    (status identity s = .pending ∧ ∃ outcome, status identity s' = .settled outcome) ∨
    (status identity s ≠ .unknown ∧ status identity s' = .unknown ∧
      s'.terminalOutcomes.size = maxTerminalOutcomes ∧ Evicted config identity s s')

theorem statusChange_settle (h : SendInvariant config s) (order : HashOrder)
    (outcome : DeliveryTerminalOutcome) {k : DeliveryIdentity}
    (hm : s.pending.get? k = some message) (identity : DeliveryIdentity) :
    s.terminalOutcomes.size ≤ (settle order s k outcome).terminalOutcomes.size ∧
      StatusChange config identity s (settle order s k outcome) := by
  obtain ⟨hpending, -, houtcomes⟩ := settle_parts order outcome hm
  have hrecorded := recordTerminal_recorded order outcome (h.disjoint hm) h.history_le
  rw [← houtcomes] at hrecorded
  refine ⟨hrecorded.grows, ?_⟩
  by_cases hk : identity = k
  · subst hk
    refine Or.inr (Or.inl ⟨status_pending hm, outcome, ?_⟩)
    rw [status_of_not_pending (by rw [hpending, Table.get?_erase_self]), hrecorded.own]
  · have hget : (settle order s k outcome).pending.get? identity = s.pending.get? identity := by
      rw [hpending, Table.get?_erase, if_neg hk]
    have hcontains : (settle order s k outcome).pending.contains identity =
        s.pending.contains identity := congrArg Option.isSome hget
    -- the outcome of another identity is the same, or it was evicted from a full history
    obtain hsame | ⟨hnone, hfull⟩ := hrecorded.other hk
    · exact Or.inl (status_congr hcontains hsame)
    · cases hbefore : s.terminalOutcomes.get? identity with
      | none => exact Or.inl (status_congr hcontains (hnone.trans hbefore.symm))
      | some found =>
        have hevicts : Evicts config identity s (settle order s k outcome) :=
          ⟨⟨found, hbefore⟩, hfull, ⟨k, outcome, Ne.symm hk, .settle order outcome hm⟩, hnone⟩
        have hidle : s.pending.get? identity = none := by
          cases hpend : s.pending.get? identity with
          | none => rfl
          | some m => cases (h.disjoint hpend).symm.trans hbefore
        refine Or.inr (Or.inr ⟨?_, ?_, le_antisymm hrecorded.bounded (hfull ▸ hrecorded.grows),
          [], s, _, [], .nil s, hevicts, .nil _⟩)
        · rw [status_of_not_pending hidle, hbefore]
          exact fun heq => by cases heq
        · rw [status_of_not_pending (hget.trans hidle), hnone]

theorem statusChange_step (h : SendInvariant config s) (hstep : SendStep config s a s')
    (hadd : ∀ m, a ≠ .add m) (identity : DeliveryIdentity) :
    s.terminalOutcomes.size ≤ s'.terminalOutcomes.size ∧ StatusChange config identity s s' := by
  cases hstep with
  | counters => exact ⟨le_rfl, Or.inl rfl⟩
  | wait state nextRetryAt epoch hm | issue hm =>
    exact ⟨le_rfl, Or.inl (status_congr (contains_replace hm identity) rfl)⟩
  | settle order outcome hm => grind [statusChange_settle]
  | add => exact absurd rfl (hadd _)

section

variable (h : SendInvariant config s) (hpath : SendPath config issued s s')

include h hpath

theorem SendInvariant.path : SendInvariant config s' := by
  obtain ⟨actions, htrace, -⟩ := hpath
  exact htrace.invariant (P := fun _ => True) (fun ht _ hstep => ht.step hstep) h fun _ _ => trivial

/-- **Along a path that adds nothing**, a status changes as in one step: a message that has left
the queue does not come back. -/
theorem statusChange_path (identity : DeliveryIdentity) :
    s.terminalOutcomes.size ≤ s'.terminalOutcomes.size ∧ StatusChange config identity s s' := by
  obtain ⟨actions, htrace, -, hadds⟩ := hpath
  refine And.right <| htrace.history_invariant (l := []) (P := fun a => ∀ m, a ≠ .add m)
    (I := fun t taken => (SendInvariant config t ∧ Trace (SendStep config) s taken t) ∧
      s.terminalOutcomes.size ≤ t.terminalOutcomes.size ∧ StatusChange config identity s t) ?_
    ⟨⟨h, .nil s⟩, le_rfl, Or.inl rfl⟩ ?_
  · rintro t a u taken ⟨⟨ht, htaken⟩, hsize, hchange⟩ ha hstep
    obtain ⟨hgrows, hnext⟩ := statusChange_step ht hstep ha identity
    refine ⟨⟨ht.step hstep, htaken.append (.single hstep)⟩, hsize.trans hgrows, ?_⟩
    have hbound := (ht.step hstep).history_le
    obtain hsame | ⟨hpending, outcome, hsettled⟩ | ⟨hknown, hunknown, hfull, hevicted⟩ := hchange
    · rw [StatusChange, ← hsame]
      exact hnext.imp_right (Or.imp_right fun ⟨hknown, hunknown, hfull, hevicted⟩ =>
        ⟨hknown, hunknown, hfull, hevicted.prepend htaken⟩)
    · obtain hsame | ⟨hpending', -⟩ | ⟨-, hunknown, hfull, hevicted⟩ := hnext
      · exact Or.inr (Or.inl ⟨hpending, outcome, hsame.trans hsettled⟩)
      · cases hpending'.symm.trans hsettled
      · exact Or.inr (Or.inr ⟨by simp [hpending], hunknown, hfull, hevicted.prepend htaken⟩)
    · -- an unknown message stays unknown, and a full history stays full
      obtain hsame | ⟨hpending', -⟩ | ⟨hknown', -⟩ := hnext
      · exact Or.inr (Or.inr ⟨hknown, hsame.trans hunknown, by omega,
          hevicted.append (.single hstep)⟩)
      · cases hpending'.symm.trans hunknown
      · exact absurd hunknown hknown'
  · grind

end

end Life

/-! ## Runs -/

section Runs

variable {added : Option DeliveryIdentity}

theorem SendInvariant.addsLast (h : SendInvariant config s)
    (hadds : AddsLast config issued added s s') : SendInvariant config s' := by
  obtain ⟨t, hpath, -, rfl | ⟨m, hadd, -⟩⟩ := hadds
  · exact h.path hpath
  · exact (h.path hpath).step hadd

theorem status_unknown {k : DeliveryIdentity} (hpending : s.pending.get? k = none)
    (hterminal : s.terminalOutcomes.get? k = none) : status k s = .unknown := by
  rw [status_of_not_pending hpending, hterminal]

theorem outcome_of_status {k : DeliveryIdentity}
    (h : status k s = .settled outcome) : s.terminalOutcomes.get? k = some outcome := by
  grind [status]

section

variable (h : SendInvariant config s)

include h

/-- The addition at the end of an operation, for the identity it adds and for every other. -/
theorem addsLast_status (hadds : AddsLast config issued added s s') (identity : DeliveryIdentity) :
    (added ≠ some identity ∧ StatusChange config identity s s') ∨
      (added = some identity ∧ s'.terminalOutcomes.get? identity = none ∧
        (status identity s = .unknown ∨
          s'.terminalOutcomes.size = maxTerminalOutcomes ∧ Evicted config identity s s')) := by
  obtain ⟨t, hpath, hfresh, hlast⟩ := hadds
  obtain ⟨-, hchange⟩ := statusChange_path h hpath identity
  have hterminal : s'.terminalOutcomes = t.terminalOutcomes := by
    obtain rfl | ⟨m, hadd, -⟩ := hlast
    · rfl
    · cases hadd
      rfl
  have hevicted : Evicted config identity s t → Evicted config identity s s' := by
    obtain rfl | ⟨m, hadd, -⟩ := hlast
    · exact id
    · exact fun h => h.append (.single hadd)
  by_cases hadded : added = some identity
  · grind [status_unknown, StatusChange]
  · refine Or.inl ⟨hadded, ?_⟩
    have hsame : status identity s' = status identity t := by
      obtain rfl | ⟨m, hadd, hm⟩ := hlast
      · rfl
      · cases hadd
        refine status_congr ?_ rfl
        grind
    grind [StatusChange]

/-- **One operation**: the status of an identity moves as it may, or its outcome is lost. -/
theorem status_sendStep (x : SendOp × HashOrder) (identity : DeliveryIdentity)
    (hkept : ¬ LosesOutcome config identity s x) :
    MessageStatus.Move (status identity s) (status identity (sendStep config s x).1) := by
  obtain ⟨-, hsame | ⟨hpending, outcome, hsettled⟩ | ⟨hknown, hunknown, -⟩⟩ |
    ⟨hadded, hnone, -⟩ := addsLast_status h (sendStep_path config s x) identity
  · rw [hsame]
    exact .stay _
  · rw [hpending, hsettled]
    exact .leave outcome
  · grind [status, LosesOutcome]
  · cases hstatus : status identity s with
    | unknown =>
      cases hafter : status identity (sendStep config s x).1 with
      | unknown => exact .stay _
      | pending => exact .enter
      | settled outcome => cases hnone.symm.trans (outcome_of_status hafter)
    | pending | settled outcome => grind [LosesOutcome]

/-- A lost outcome was evicted from a full history. -/
theorem evicted_of_losesOutcome {x : SendOp × HashOrder}
    (hloses : LosesOutcome config identity s x) :
    (sendStep config s x).1.terminalOutcomes.size = maxTerminalOutcomes ∧
      Evicted config identity s (sendStep config s x).1 := by
  obtain ⟨hnone, hbefore⟩ := hloses
  obtain ⟨hadded, hsame | ⟨-, outcome, hsettled⟩ | ⟨-, -, hevicted⟩⟩ |
    ⟨-, -, hunknown | hevicted⟩ := addsLast_status h (sendStep_path config s x) identity
  · obtain ⟨outcome, hsettled⟩ | ⟨hpending, hleft | hagain⟩ := hbefore
    · cases hnone.symm.trans (outcome_of_status (hsame.trans hsettled))
    · exact absurd (hsame.trans hpending) hleft
    · exact absurd hagain hadded
  · cases hnone.symm.trans (outcome_of_status hsettled)
  · exact hevicted
  · simp_all
  · exact hevicted

end

theorem sendInvariant_step (config : DeliveryConfig) (s : DeliveryStore) (x : SendOp × HashOrder)
    (h : SendInvariant config s) : SendInvariant config ((sendMachine config).step s x).1 :=
  h.addsLast (sendStep_path config s x)

theorem sendInvariant_along (config : DeliveryConfig) (ops : List (SendOp × HashOrder)) :
    (sendMachine config).Along (fun s _ => SendInvariant config s) ops :=
  (sendMachine config).alongFrom_of_invariant (sendInvariant_step config) (.new config) ops

theorem sendInvariant_run (config : DeliveryConfig) (ops : List (SendOp × HashOrder)) :
    SendInvariant config ((sendMachine config).run ops) :=
  (sendMachine config).run_invariant (.new config)
    (fun s x h _ => sendInvariant_step config s x h) (sendInvariant_along config ops)

/-- **The bookkeeping of the sender**, after any operations with any arguments, clock values and
hash orders. The bytes are counted and both limits kept, every message stands under its identity,
and no identity is pending and settled at once. The statuses of an identity move from unknown to
pending to one outcome for as long as its outcome is not lost, and a lost outcome had been recorded
and was evicted when the history was full. -/
theorem sender_bookkeeping (config : DeliveryConfig) (ops : List (SendOp × HashOrder)) :
    SendInvariant config ((sendMachine config).run ops) ∧
    (∀ identity,
      (sendMachine config).Along (fun s x => ¬ LosesOutcome config identity s x) ops →
      (((sendMachine config).states ops).map (status identity)).IsChain MessageStatus.Move) ∧
    ∀ x identity, LosesOutcome config identity ((sendMachine config).run ops) x →
      ((sendMachine config).run (ops ++ [x])).terminalOutcomes.size = maxTerminalOutcomes ∧
        Evicted config identity ((sendMachine config).run ops)
          ((sendMachine config).run (ops ++ [x])) := by
  refine ⟨sendInvariant_run config ops, ?_, ?_⟩
  · intro identity hkept
    rw [List.isChain_map]
    exact (sendMachine config).isChain_statesFrom
      (fun s x h => status_sendStep h.1 x identity h.2)
      ((sendMachine config).alongFrom_and (sendInvariant_along config ops) hkept)
  · intro x identity hloses
    rw [Machine.run_snoc]
    exact evicted_of_losesOutcome (sendInvariant_run config ops) hloses

end Runs

end SshMobile.Delivery
