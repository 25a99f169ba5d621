import SshMobile.Delivery.ReleaseOrder

/-!
# The breakpoint of an ordered channel

The expected sequence of a channel is where an ordered delivery continues after a reconnect. Once
the in-flight message with sequence `n` is completed, the channel is past `n`, and it stays past
`n` as long as its state exists. A failing channel loses its state and is marked as failed; the mark
keeps every insertion out. Closing the peer removes the mark, so a channel that has failed starts
again from the sequence `0`.

## Main definitions

* `InFlightAt`: the in-flight message of a channel and its sequence
* `CompletedAt`: the run completed the in-flight message with sequence `n`
* `BreakpointCall`: the calls that keep the breakpoint

## Main results

* `ordered_breakpoint`: no release at or below a completed sequence
* `closed_failed_channel_restarts`: a run that closes a failed channel releases sequence `0` again
-/

namespace SshMobile.Delivery

open Library

/-- The breakpoint is past `n`: no insertion gets through, or the channel expects more than `n`. -/
def PastBreakpoint (scope : Scope) (n : ℕ) (r : Receive) : Prop :=
  scope ∈ r.failed ∨ n < (r.view scope).expectedSequence

/-- What a step may assume: a peer is not closed while the channel is marked as failed. -/
def BreakpointGuard (scope : Scope) (r : Receive) : ReceiveAction → Prop
  | .close peerId => peerId = scope.1 → scope ∉ r.failed
  | _ => True

namespace PastBreakpoint

variable {scope : Scope} {n : ℕ} {r r' : Receive} {ch : OrderedChannelState}

theorem frame (h : PastBreakpoint scope n r) (hfailed : scope ∈ r.failed → scope ∈ r'.failed)
    (hview : (r.view scope).expectedSequence ≤ (r'.view scope).expectedSequence) :
    PastBreakpoint scope n r' :=
  h.imp hfailed fun hlt => lt_of_lt_of_le hlt hview

/-- The channel `other` now expects more than every sequence it was past. -/
theorem setChannel (h : PastBreakpoint scope n r) {other : Scope}
    (hch : n < (r.view other).expectedSequence → n < ch.expectedSequence) :
    PastBreakpoint scope n (r.setChannel other ch) := by
  refine h.imp id fun hlt => ?_
  by_cases hscope : scope = other
  · subst hscope
    rw [Receive.view_setChannel_self]
    exact hch hlt
  · rwa [Receive.view_setChannel_of_ne hscope]

theorem lt_acknowledge {messageId : MessageId} (hn : n < u64Max)
    (hflight : ch.inFlight = some messageId) (hle : n ≤ ch.expectedSequence) :
    n < (ch.acknowledge messageId).1.expectedSequence := by
  have hnext : n < ch.nextSequence := lt_min (Nat.lt_succ_of_le hle) hn
  cases hbuffer : ch.reorderBuffer.get? ch.nextSequence with
  | none => rwa [OrderedChannelState.acknowledge_none hflight hbuffer]
  | some next => rwa [OrderedChannelState.acknowledge_some hflight hbuffer]

end PastBreakpoint

variable {message : OrderedMessage} {config : DeliveryConfig} {key : DedupKey}
  {store : DeliveryStore}

theorem insert_expectedSequence {ch ch' : OrderedChannelState} {maxMessages maxBytes maxGap : ℕ}
    {result : OrderedInsertResult}
    (h : ch.insert message maxMessages maxBytes maxGap = (ch', result)) :
    ch'.expectedSequence = ch.expectedSequence := by
  obtain ⟨-, rfl⟩ | ⟨-, -, -, rfl⟩ | ⟨-, -, -, -, -, -, rfl⟩ := OrderedChannelState.insert_cases h
  · rfl
  · rfl
  · rfl

/-- **Every guarded step keeps the breakpoint.** -/
theorem breakpointInvariant (config : DeliveryConfig) (scope : Scope) {n : ℕ} (hn : n < u64Max) :
    ReceiveInvariant config (BreakpointGuard scope) fun r _ => PastBreakpoint scope n r where
  step := by
    intro r r' a log hwf h hguard hstep
    -- an acknowledgement only moves the expected sequence of its channel forward
    have hack : ∀ {key : DedupKey} {ch : OrderedChannelState}, r.channel key.scope = some ch →
        ch.inFlight = some key.messageId →
        PastBreakpoint scope n (r.setChannel key.scope (ch.acknowledge key.messageId).1) := by
      intro key ch hch hflight
      refine h.setChannel fun hlt => ?_
      rw [Receive.view, hch] at hlt
      exact PastBreakpoint.lt_acknowledge hn hflight hlt.le
    cases hstep with
    | forget | touch | enroll | expire | abandon | reject | finish => exact h
    | fail other =>
      by_cases hscope : scope = other
      · exact Or.inl (Or.inl hscope)
      · refine h.frame Or.inr (le_of_eq ?_)
        simp [Receive.view, hscope]
    | refuse => exact h.setChannel id
    | ready deadline _ _ hinsert | buffer _ _ hinsert =>
      exact h.setChannel fun hlt => (insert_expectedSequence hinsert).symm ▸ hlt
    | advance _ hch hflight | promote _ _ hch hflight | stall _ hch hflight =>
      exact hack hch hflight
    | close peerId =>
      obtain hquiet | hguard := hguard
      · cases hquiet
      -- the close of its own peer keeps the channel and its expected sequence, unless it has failed
      by_cases hpeer : peerId = scope.1
      · have hlt := h.resolve_left (hguard hpeer)
        refine Or.inr ?_
        cases hch : r.channel scope with
        | none => simp [Receive.view, hch, OrderedChannelState.default] at hlt
        | some ch =>
          simpa [Receive.view, Receive.close, hch, hpeer, OrderedChannelState.clear] using hlt
      · refine h.frame (fun hmem => ⟨hmem, fun heq => hpeer heq.symm⟩) (le_of_eq ?_)
        simp [Receive.view, Receive.close, Ne.symm hpeer]

/-! ## The two operations of the property -/

/-- The message `key` is in flight on its channel at the sequence `n`. -/
def InFlightAt (store : DeliveryStore) (key : DedupKey) (n : ℕ) : Prop :=
  ∃ ch ∈ store.ordered.get? key.scope,
    ch.inFlight = some key.messageId ∧ ch.expectedSequence = n

instance (store : DeliveryStore) (key : DedupKey) (n : ℕ) : Decidable (InFlightAt store key n) := by
  unfold InFlightAt
  infer_instance

/-- A released message stands at the expected sequence of a channel that has not failed. -/
theorem Receive.Step.ready_sequence {r r' : Receive} (h : Receive.Step config r
    (.ready message) r') :
    message.scope ∉ r.failed ∧ message.sequence = (r.view message.scope).expectedSequence := by
  cases h with
  | ready deadline hfailed hactive hinsert =>
    exact ⟨hfailed, (OrderedChannelState.insert_ready hinsert).1⟩

/-- A completion of the in-flight message acknowledges it on its channel. -/
theorem Receive.Step.finish_view {r r' : Receive} {next : Option OrderedMessage}
    {ch : OrderedChannelState} (h : Receive.Step config r (.finish key next) r')
    (hch : r.channel key.scope = some ch) (hflight : ch.inFlight = some key.messageId) :
    r'.view key.scope = (ch.acknowledge key.messageId).1 := by
  cases h with
  | finish _ _ hidle =>
    rw [hidle ch hch] at hflight
    cases hflight
  | advance _ hch' | promote _ _ hch' =>
    cases hch.symm.trans hch'
    exact Receive.view_setChannel_self r key.scope _

theorem acceptOrderedAt_ready {now : ℕ}
    (h : (acceptOrderedAt config store message now).2 = .ready) :
    message.scope ∉ store.receive.failed ∧
      message.sequence = (store.receive.view message.scope).expectedSequence := by
  have hrefines := acceptOrderedAt_refines config store message now
  rw [h] at hrefines
  obtain ⟨a, hasks, hlog, hstep⟩ | hpath := hrefines
  · cases a with
    | ready =>
      cases hlog
      exact hstep.ready_sequence
    | finish => cases hlog
    | _ => cases hlog
  · obtain ⟨key, heq⟩ := hpath.admitted List.mem_cons_self
    cases heq

/-- A successful completion of the in-flight message leaves the channel past its sequence. -/
theorem completeIncomingAt_pastBreakpoint {order : DedupKey → ℕ} {now n : ℕ} (hn : n < u64Max)
    (hflight : InFlightAt store key n)
    (h : (completeIncomingAt config order store key now).2.isSome) :
    PastBreakpoint key.scope n (completeIncomingAt config order store key now).1.receive := by
  obtain ⟨ch, hch, hin, rfl⟩ := hflight
  obtain ⟨completion, hsome⟩ := Option.isSome_iff_exists.mp h
  have hrefines := completeIncomingAt_refines config store order key now
  rw [hsome] at hrefines
  obtain ⟨a, hasks, hlog, hstep⟩ | hpath := hrefines
  · cases a with
    | finish k next =>
      obtain ⟨_, _, hop⟩ := hasks
      cases hop
      have hview := hstep.finish_view hch hin
      exact Or.inr (hview ▸ PastBreakpoint.lt_acknowledge hn hin le_rfl)
    | ready =>
      obtain ⟨_, hop⟩ := hasks
      cases hop
    | _ => cases hlog
  · obtain ⟨key, heq⟩ := hpath.admitted List.mem_cons_self
    cases heq

/-! ## Runs -/

/-- The run completed the in-flight message of the channel `scope` with sequence `n`. -/
def CompletedAt (config : DeliveryConfig) (scope : Scope) (n : ℕ) (ops : List ReceiveOp) : Prop :=
  ∃ before key now order after, ops = before ++ .complete key now order :: after ∧
    key.scope = scope ∧ InFlightAt ((receiveMachine config).run before) key n ∧
    (completeIncomingAt config order ((receiveMachine config).run before) key now).2.isSome

/-- The calls that keep the breakpoint of `scope`: its peer is not closed while the channel is
marked as failed. -/
def BreakpointCall (scope : Scope) (store : DeliveryStore) : ReceiveOp → Prop
  | .close peerId => peerId = scope.1 → scope ∉ store.failedOrdered
  | _ => True

instance (scope : Scope) (store : DeliveryStore) (op : ReceiveOp) :
    Decidable (BreakpointCall scope store op) :=
  match op with
  | .close peerId => inferInstanceAs (Decidable (peerId = scope.1 → scope ∉ store.failedOrdered))
  | .begin .. | .accept .. | .complete .. | .reject .. | .abandon .. | .expire .. => .isTrue trivial

theorem BreakpointCall.guarded {scope : Scope} {op : ReceiveOp}
    (h : BreakpointCall scope store op) : Guarded (BreakpointGuard scope) store op := by
  intro a ha
  cases a with
  | close peerId =>
    cases ha
    exact Or.inr h
  | internal | enroll | fail => exact Or.inl trivial
  | _ => exact Or.inr trivial

/-- **The breakpoint never moves back**: after the in-flight message with sequence `n` was
completed, no insertion releases a sequence at or below `n`, in every run that does not close the
peer while the channel is marked as failed. -/
theorem ordered_breakpoint (config : DeliveryConfig) (scope : Scope) (n : ℕ) (ops : List ReceiveOp)
    (message : OrderedMessage) (now : ℕ)
    (hops : (receiveMachine config).Along (BreakpointCall scope) ops) (hn : n < u64Max)
    (hdone : CompletedAt config scope n ops) (hscope : message.scope = scope)
    (hseq : message.sequence ≤ n) :
    (acceptOrderedAt config ((receiveMachine config).run ops) message now).2 ≠ .ready := by
  obtain ⟨before, key, at', order, after, rfl, rfl, hflight, hsome⟩ := hdone
  have hpast := completeIncomingAt_pastBreakpoint hn hflight hsome
  have hafter := ((receiveMachine config).alongFrom_append _ _ _).mp hops
  -- the run from the completion on keeps the breakpoint
  have hkeep := (breakpointInvariant config key.scope hn).receive_runFrom []
    ⟨((receiveMachine config).run_snoc before (.complete key at' order)) ▸
      wellFormed_run config (before ++ [.complete key at' order]), hpast⟩
    ((receiveMachine config).alongFrom_mono (fun _ _ => BreakpointCall.guarded) hafter.2.2)
  intro hready
  obtain ⟨hfailed, heq⟩ := acceptOrderedAt_ready hready
  rw [(receiveMachine config).run_append, hscope] at hfailed heq
  obtain hmem | hlt := hkeep.2
  · exact hfailed hmem
  · exact absurd (heq ▸ hseq) (not_le.mpr hlt)

/-- A healthy channel: one message completed, the peer closed, the next message waiting. -/
def reconnectRun : List ReceiveOp :=
  [.begin (chatMessage 0 0).key 0 0, .accept (chatMessage 0 0) 0,
    .complete (chatMessage 0 0).key 1 fun _ => 0, .close "peer", .begin (chatMessage 0 0).key 0 2]

theorem ordered_breakpoint_reconnectRun :
    (acceptOrderedAt .default ((receiveMachine .default).run reconnectRun) (chatMessage 0 0) 3).2 ≠
      .ready :=
  ordered_breakpoint .default ("peer", "chat") 0 reconnectRun (chatMessage 0 0) 3 (by decide)
    (by decide) ⟨reconnectRun.take 2, (chatMessage 0 0).key, 1, fun _ => 0, reconnectRun.drop 3,
      rfl, rfl, by decide, by decide⟩ rfl le_rfl

/-- One message completed, the next one abandoned, and the peer closed. -/
def closedFailedRun : List ReceiveOp :=
  [.begin (chatMessage 0 0).key 0 0, .accept (chatMessage 0 0) 0,
    .complete (chatMessage 0 0).key 1 fun _ => 0,
    .begin (chatMessage 1 1).key 0 2, .accept (chatMessage 1 1) 2, .abandon (chatMessage 1 1).key,
    .close "peer", .begin (chatMessage 2 0).key 0 3]

/-- **A reset breakpoint**: sequence `0` was completed and is released again. -/
theorem closed_failed_channel_restarts :
    CompletedAt .default ("peer", "chat") 0 closedFailedRun ∧
      (acceptOrderedAt .default ((receiveMachine .default).run closedFailedRun)
        (chatMessage 2 0) 3).2 = .ready :=
  ⟨⟨closedFailedRun.take 2, (chatMessage 0 0).key, 1, fun _ => 0, closedFailedRun.drop 3, rfl, rfl,
    by decide, by decide⟩, by decide⟩

end SshMobile.Delivery
