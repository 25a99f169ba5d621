import SshMobile.Delivery.Receive

/-!
# The release order of an ordered channel

The application sees an ordered channel as a log of released messages and completions. While the
channel does not fail, the released sequences are `0, 1, 2, …`, and each message is released after
the completion of the one before it.

A message identifier is inserted under one sequence. A second insertion of the in-flight identifier
under a later sequence would make its own completion wait for itself: the record is then buffered
and in flight at once, the completion drops it and reports nothing, and the sequence is skipped.

## Main definitions

* `scopeLog`: the events of one channel
* `releasedSequences`, `Finished`: the sequences released, and a message released and completed
* `OrderedCall`: the calls on a channel that is not closed

## Main results

* `ordered_release_order`: the releases of a channel are `0, 1, 2, …`, each after the completion of
  its predecessor, and the byte counter of the buffer is exact and bounded
* `reinserted_message_skips_sequence`: the skipped sequence
-/

namespace SshMobile.Delivery

open Library

/-! ## The log of a channel -/

/-- The channel of an event. An admission is on none: it comes before the insertion. -/
def ReceiveEvent.scope : ReceiveEvent → Option Scope
  | .admitted _ => none
  | .released message => message.scope
  | .completed key => key.scope

/-- The events of the channel `scope`. -/
def scopeLog (scope : Scope) (log : List ReceiveEvent) : List ReceiveEvent :=
  log.filter fun event => decide (event.scope = some scope)

/-- The sequences of the released messages, in release order. -/
def releasedSequences (log : List ReceiveEvent) : List ℕ :=
  log.filterMap fun
    | .released message => some message.sequence
    | .admitted _ | .completed _ => none

/-- A message with sequence `k` was released and completed later. -/
def Finished (k : ℕ) (log : List ReceiveEvent) : Prop :=
  ∃ before message after, log = before ++ .released message :: after ∧ message.sequence = k ∧
    .completed message.key ∈ after

/-- Every released message but the first comes after the completion of its predecessor. -/
def PredecessorsFinished (log : List ReceiveEvent) : Prop :=
  ∀ before message after k, log = before ++ .released message :: after →
    message.sequence = k + 1 → Finished k before

@[simp] theorem scopeLog_append (scope : Scope) (log log' : List ReceiveEvent) :
    scopeLog scope (log ++ log') = scopeLog scope log ++ scopeLog scope log' :=
  List.filter_append ..

@[simp] theorem releasedSequences_append (log log' : List ReceiveEvent) :
    releasedSequences (log ++ log') = releasedSequences log ++ releasedSequences log' :=
  List.filterMap_append

variable {log : List ReceiveEvent}

variable {scope : Scope}

theorem scopeLog_of_ne
    (h : ∀ event ∈ log, event.scope ≠ some scope) : scopeLog scope log = [] := by
  refine List.filter_eq_nil_iff.mpr fun event hevent => ?_
  simpa using h event hevent

theorem scopeLog_of_eq
    (h : ∀ event ∈ log, event.scope = some scope) : scopeLog scope log = log := by
  refine List.filter_eq_self.mpr fun event hevent => ?_
  simpa using h event hevent

theorem Finished.append {k : ℕ} (h : Finished k log)
    (log' : List ReceiveEvent) : Finished k (log ++ log') := by
  grind [Finished]

/-- A further event keeps the order when it is no release, or one whose predecessor finished. -/
theorem PredecessorsFinished.snoc (h : PredecessorsFinished log)
    {event : ReceiveEvent} (hevent : ∀ message k, event = .released message →
      message.sequence = k + 1 → Finished k log) :
    PredecessorsFinished (log ++ [event]) := by
  intro before message after k heq hseq
  rcases List.eq_nil_or_concat' after with rfl | ⟨after, last, rfl⟩
  · simp_all
  · grind [List.append_inj_left', PredecessorsFinished]

theorem PredecessorsFinished.snoc_completed (h : PredecessorsFinished log) (key : DedupKey) :
    PredecessorsFinished (log ++ [.completed key]) :=
  h.snoc fun _ _ heq _ => by cases heq

/-- The log of a channel that expects the sequence `expected` and has `inFlight` in flight. -/
structure ChannelLog (scope : Scope) (expected : ℕ) (inFlight : Option MessageId)
    (log : List ReceiveEvent) : Prop where
  sequences : releasedSequences log = List.range (expected + inFlight.toList.length)
  predecessors : PredecessorsFinished log
  finished : ∀ k, expected = k + 1 → Finished k log
  current : ∀ messageId, inFlight = some messageId → ∃ before message after,
    log = before ++ .released message :: after ∧ message.key = scope.key messageId ∧
      message.sequence = expected

namespace ChannelLog

variable {expected : ℕ} {inFlight : Option MessageId}

theorem nil (scope : Scope) : ChannelLog scope 0 none [] where
  sequences := rfl
  predecessors := fun before message after k h => by simp at h
  finished := fun k h => by cases h
  current := fun messageId h => by cases h

/-- The expected message is released. -/
theorem release (h : ChannelLog scope expected none log) {message : OrderedMessage}
    (hscope : message.scope = scope) (hseq : message.sequence = expected) :
    ChannelLog scope expected (some message.messageId) (log ++ [.released message]) where
  sequences := by
    rw [releasedSequences_append, h.sequences]
    simp [releasedSequences, hseq, List.range_succ]
  predecessors := by
    refine h.predecessors.snoc fun m k heq hk => h.finished k ?_
    cases heq
    exact hseq.symm.trans hk
  finished := fun k hk => (h.finished k hk).append _
  current := by
    grind [OrderedMessage.key_eq]

/-- The in-flight message is completed. -/
theorem complete {messageId : MessageId} (h : ChannelLog scope expected (some messageId) log) :
    ChannelLog scope (expected + 1) none (log ++ [.completed (scope.key messageId)]) where
  sequences := by
    rw [releasedSequences_append, h.sequences]
    simp [releasedSequences]
  predecessors := h.predecessors.snoc_completed _
  finished := by
    rintro k hk
    obtain ⟨before, message, after, rfl, hkey, hseq⟩ := h.current messageId rfl
    grind [Finished]
  current := fun _ h => by cases h

/-- A message that is not in flight is completed. -/
theorem completeOther (h : ChannelLog scope expected inFlight log) (key : DedupKey) :
    ChannelLog scope expected inFlight (log ++ [.completed key]) where
  sequences := by
    rw [releasedSequences_append, h.sequences]
    simp [releasedSequences]
  predecessors := h.predecessors.snoc_completed _
  finished := fun k hk => (h.finished k hk).append _
  current := by
    rintro messageId hflight
    obtain ⟨before, message, after, rfl, hkey, hseq⟩ := h.current messageId hflight
    grind

end ChannelLog

/-! ## One channel and its log -/

/-- The channel `ch` with the log of its events: the buffer is in order, no sequence reaches the
last one, and the log is that of the channel. -/
structure ChannelRelease (config : DeliveryConfig) (scope : Scope) (ch : OrderedChannelState)
    (log : List ReceiveEvent) : Prop where
  buffered : ch.Buffered scope config.maxReorderBytes
  bounded : ∀ {seq m}, ch.reorderBuffer.get? seq = some m → seq < u64Max
  inFlight_lt : ∀ {messageId}, ch.inFlight = some messageId → ch.expectedSequence < u64Max
  channelLog : ChannelLog scope ch.expectedSequence ch.inFlight log

variable {config : DeliveryConfig} {ch : OrderedChannelState} {message : OrderedMessage}

namespace ChannelRelease

variable {ch' : OrderedChannelState}

theorem nil (config : DeliveryConfig) (scope : Scope) :
    ChannelRelease config scope .default [] where
  buffered := .default _ _
  bounded := fun h => by simp [OrderedChannelState.default] at h
  inFlight_lt := fun h => by cases h
  channelLog := .nil scope

section

variable (h : ChannelRelease config scope ch log) (hscope : message.scope = scope)
  (hlt : message.sequence < u64Max)

include h hscope hlt

theorem ready
    (hinsert : ch.insert message config.maxReorderMessages config.maxReorderBytes
      config.maxSequenceGap = (ch', .ready)) :
    ChannelRelease config scope ch' (log ++ [.released message]) ∧
      ch'.inFlight = some message.messageId := by
  have hbuffered := h.buffered.insert hscope hinsert
  obtain ⟨hseq, hnone, rfl⟩ := OrderedChannelState.insert_ready hinsert
  refine ⟨⟨hbuffered, h.bounded, fun _ => hseq ▸ hlt, ?_⟩, rfl⟩
  have hlog := h.channelLog
  rw [hnone] at hlog
  exact hlog.release hscope hseq

theorem buffer
    (hinsert : ch.insert message config.maxReorderMessages config.maxReorderBytes
      config.maxSequenceGap = (ch', .buffered)) :
    ChannelRelease config scope ch' log ∧ ch'.inFlight = ch.inFlight ∧
      ch.expectedSequence < message.sequence := by
  have hbuffered := h.buffered.insert hscope hinsert
  obtain ⟨hgt, -, rfl⟩ := OrderedChannelState.insert_buffered hinsert
  refine ⟨⟨hbuffered, ?_, h.inFlight_lt, h.channelLog⟩, rfl, hgt⟩
  intro seq m hget
  rw [Table.get?_insert] at hget
  split_ifs at hget with hseq
  · exact hseq ▸ hlt
  · exact h.bounded hget

end

theorem completeOther (h : ChannelRelease config scope ch log) (key : DedupKey) :
    ChannelRelease config scope ch (log ++ [.completed key]) :=
  ⟨h.buffered, h.bounded, h.inFlight_lt, h.channelLog.completeOther key⟩

variable {messageId : MessageId}

section

variable (h : ChannelRelease config scope ch log) (hflight : ch.inFlight = some messageId)

include h hflight

theorem nextSequence_eq : ch.nextSequence = ch.expectedSequence + 1 :=
  saturatingAdd_of_le (h.inFlight_lt hflight)

theorem advance (hnext : ch.reorderBuffer.get? ch.nextSequence = none) :
    ChannelRelease config scope (ch.acknowledge messageId).1
        (log ++ [.completed (scope.key messageId)]) ∧
      (ch.acknowledge messageId).1.inFlight = none := by
  have hbuffered := h.buffered.acknowledge hflight
  have hseq := h.nextSequence_eq hflight
  have hlog := h.channelLog
  rw [OrderedChannelState.acknowledge_none hflight hnext] at hbuffered ⊢
  rw [hflight] at hlog
  refine ⟨⟨hbuffered, h.bounded, fun hnone => (by cases hnone), ?_⟩, rfl⟩
  simp only [hseq]
  exact hlog.complete

theorem promote (hnext : ch.reorderBuffer.get? ch.nextSequence = some message) :
    ChannelRelease config scope (ch.acknowledge messageId).1
        (log ++ [.completed (scope.key messageId), .released message]) ∧
      (ch.acknowledge messageId).1.inFlight = some message.messageId := by
  have hbuffered := h.buffered.acknowledge hflight
  have hseq := h.nextSequence_eq hflight
  have hlog := h.channelLog
  rw [OrderedChannelState.acknowledge_some hflight hnext] at hbuffered ⊢
  rw [hflight] at hlog
  refine ⟨⟨hbuffered, ?_, fun _ => h.bounded hnext, ?_⟩, rfl⟩
  · intro seq m hget
    rw [Table.get?_erase] at hget
    split_ifs at hget
    exact h.bounded hget
  · have hreleased := hlog.complete.release (h.buffered.scope_eq hnext)
      ((h.buffered.sequence_eq hnext).trans hseq)
    simp_all

end

end ChannelRelease

/-! ## The channel in the receive side -/

/-- The releases of the channel `scope`, and no in-flight message has a buffered record. -/
structure ReleaseState (config : DeliveryConfig) (scope : Scope) (r : Receive)
    (log : List ReceiveEvent) : Prop where
  release : ChannelRelease config scope (r.view scope) log
  record : ∀ {messageId record}, (r.view scope).inFlight = some messageId →
    r.active (scope.key messageId) = some record → record.state ≠ .orderedBuffered

/-- Every buffered record of the channel in `r'` was a buffered record in `r`. -/
def BufferedFrom (scope : Scope) (r r' : Receive) : Prop :=
  ∀ key record, key.scope = scope → r'.active key = some record →
    record.state = .orderedBuffered →
      ∃ old, r.active key = some old ∧ old.state = .orderedBuffered

open Receive

variable {r r' : Receive}

section BufferedFrom

theorem bufferedFrom_of_active (h : ∀ key record, r'.active key = some record →
    r.active key = some record) : BufferedFrom scope r r' :=
  fun key record _ hactive hstate => ⟨record, h key record hactive, hstate⟩

theorem bufferedFrom_drop (key : DedupKey) : BufferedFrom scope r (r.drop key) := by
  grind [bufferedFrom_of_active, drop_active]

theorem bufferedFrom_put {key : DedupKey} {record : ActiveIncomingRecord}
    (h : key.scope = scope → record.state = .orderedBuffered →
      ∃ old, r.active key = some old ∧ old.state = .orderedBuffered) :
    BufferedFrom scope r (r.put key record) := by
  grind [put_active, BufferedFrom]

theorem bufferedFrom_fail (other : Scope) : BufferedFrom scope r (r.fail other) := by
  grind [bufferedFrom_of_active, fail_active_of_affected,
    fail_active_of_not_affected]

end BufferedFrom

/-- What a step on the channel `scope` may assume: the sequences stay below the last one, the
in-flight message is not inserted again under a later sequence, and the peer is not closed. -/
def ReleaseGuard (scope : Scope) (r : Receive) : ReceiveAction → Prop
  | .ready message | .buffer message => message.scope = scope → message.sequence < u64Max ∧
      ((r.view scope).inFlight = some message.messageId →
        message.sequence ≤ (r.view scope).expectedSequence)
  | .close peerId => peerId ≠ scope.1
  | _ => True

namespace ReleaseState

/-- A step that leaves the channel and adds no buffered record. -/
theorem frame (h : ReleaseState config scope r log) (hview : r'.view scope = r.view scope)
    (hbuffered : BufferedFrom scope r r') : ReleaseState config scope r' log where
  release := hview ▸ h.release
  record := by
    intro messageId record hflight hactive hstate
    obtain ⟨old, hold, hstate'⟩ := hbuffered (scope.key messageId) record rfl hactive hstate
    exact h.record (hview ▸ hflight) hold hstate'

variable {record : ActiveIncomingRecord} {key : DedupKey} {kept : Set DedupKey}

section

variable (h : ReleaseState config scope r log)

include h

theorem ready (hguard : ReleaseGuard scope r (.ready message))
    {deadline : ℕ}
    (hinsert : (r.view message.scope).insert message config.maxReorderMessages
      config.maxReorderBytes config.maxSequenceGap = (ch, .ready)) :
    ReleaseState config scope ((r.setChannel message.scope ch).put message.key
        { record with state := .inFlight, ackDeadline := some deadline })
      (log ++ scopeLog scope [.released message]) := by
  by_cases hscope : message.scope = scope
  · subst hscope
    obtain ⟨hrelease, hflight⟩ := h.release.ready rfl (hguard rfl).1 hinsert
    rw [scopeLog_of_eq (by simp [ReceiveEvent.scope])]
    refine ⟨(view_setChannel_self r message.scope ch).symm ▸ hrelease, ?_⟩
    intro messageId found hin hactive
    change ((r.setChannel message.scope ch).view message.scope).inFlight = _ at hin
    grind [view_setChannel_self, put_active, OrderedMessage.key_eq]
  · rw [scopeLog_of_ne (by simpa [ReceiveEvent.scope] using hscope), List.append_nil]
    refine h.frame (view_setChannel_of_ne (Ne.symm hscope) r ch) (bufferedFrom_put ?_)
    exact fun hkey => absurd hkey hscope

theorem buffer (hguard : ReleaseGuard scope r (.buffer message))
    (hinsert : (r.view message.scope).insert message config.maxReorderMessages
      config.maxReorderBytes config.maxSequenceGap = (ch, .buffered)) :
    ReleaseState config scope ((r.setChannel message.scope ch).put message.key
        { record with state := .orderedBuffered, ackDeadline := none }) log := by
  by_cases hscope : message.scope = scope
  · subst hscope
    obtain ⟨hrelease, hflight, hgt⟩ := h.release.buffer rfl (hguard rfl).1 hinsert
    refine ⟨(view_setChannel_self r message.scope ch).symm ▸ hrelease, ?_⟩
    intro messageId found hin hactive
    change ((r.setChannel message.scope ch).view message.scope).inFlight = _ at hin
    rw [view_setChannel_self, hflight] at hin
    rw [put_active] at hactive
    split_ifs at hactive with hkey
    · -- the guard: the in-flight message is not inserted under a later sequence
      grind [Scope.key_inj, OrderedMessage.key_eq, ReleaseGuard]
    · exact h.record hin hactive
  · refine h.frame (view_setChannel_of_ne (Ne.symm hscope) r ch) (bufferedFrom_put ?_)
    exact fun hkey => absurd hkey hscope

theorem finish :
    ReleaseState config scope ((r.drop key).remember kept)
      (log ++ scopeLog scope [.completed key]) := by
  have hdrop : ReleaseState config scope ((r.drop key).remember kept) log :=
    h.frame rfl (bufferedFrom_drop key)
  by_cases hscope : key.scope = scope
  · rw [scopeLog_of_eq (by simpa [ReceiveEvent.scope] using hscope)]
    exact ⟨hdrop.release.completeOther key, hdrop.record⟩
  · grind [scopeLog_of_ne, ReceiveEvent.scope]

variable (hch : r.channel key.scope = some ch) (hflight : ch.inFlight = some key.messageId)

include hch hflight

theorem advance (hnext : ch.reorderBuffer.get? ch.nextSequence = none) :
    ReleaseState config scope
      (((r.setChannel key.scope (ch.acknowledge key.messageId).1).drop key).remember kept)
      (log ++ scopeLog scope [.completed key]) := by
  by_cases hscope : key.scope = scope
  · subst hscope
    have hview := view_of_channel hch
    obtain ⟨hrelease, hnone⟩ := (hview ▸ h.release).advance hflight hnext
    rw [scopeLog_of_eq (by simp [ReceiveEvent.scope])]
    refine ⟨?_, ?_⟩
    · exact (view_setChannel_self r key.scope _).symm ▸ hrelease
    · intro messageId found hin hactive
      change ((r.setChannel key.scope _).view key.scope).inFlight = _ at hin
      simp_all
  · rw [scopeLog_of_ne (by simpa [ReceiveEvent.scope] using hscope), List.append_nil]
    exact h.frame (view_setChannel_of_ne (Ne.symm hscope) r _) (bufferedFrom_drop key)

theorem promote {next : ActiveIncomingRecord} {deadline : ℕ}
    (hmessage : message.scope = key.scope)
    (hnext : ch.reorderBuffer.get? ch.nextSequence = some message) :
    ReleaseState config scope
      ((((r.setChannel key.scope (ch.acknowledge key.messageId).1).drop key).put message.key
        { next with state := .inFlight, ackDeadline := some deadline }).remember kept)
      (log ++ scopeLog scope [.completed key, .released message]) := by
  by_cases hscope : key.scope = scope
  · subst hscope
    have hview := view_of_channel hch
    obtain ⟨hrelease, hin'⟩ := (hview ▸ h.release).promote hflight hnext
    rw [scopeLog_of_eq (by simp [ReceiveEvent.scope, hmessage])]
    refine ⟨?_, ?_⟩
    · exact (view_setChannel_self r key.scope _).symm ▸ hrelease
    -- the message in flight is the promoted one, and its record says so
    · intro messageId found hin hactive
      change ((r.setChannel key.scope _).view key.scope).inFlight = _ at hin
      rw [Receive.view_setChannel_self, hin'] at hin
      cases hin
      rw [Receive.remember_active, Receive.put_active, ← hmessage, ← message.key_eq,
        if_pos rfl] at hactive
      grind
  · rw [scopeLog_of_ne (by simpa [ReceiveEvent.scope, hmessage] using hscope), List.append_nil]
    have hdrop : ReleaseState config scope
        ((r.setChannel key.scope (ch.acknowledge key.messageId).1).drop key) log := h.frame
      (Receive.view_setChannel_of_ne (Ne.symm hscope) r (ch.acknowledge key.messageId).1)
      (bufferedFrom_drop key)
    refine hdrop.frame rfl (bufferedFrom_put fun hkey => ?_)
    simp

/-- The completion never waits for itself: the in-flight message has no buffered record. -/
theorem stall (hactive : r.active key = some record) (hstate : record.state = .orderedBuffered) :
    ReleaseState config scope
      ((r.setChannel key.scope (ch.acknowledge key.messageId).1).drop key) log := by
  by_cases hscope : key.scope = scope
  · subst hscope
    have hview := view_of_channel hch
    exact absurd hstate (h.record (hview ▸ hflight) hactive)
  · exact h.frame (view_setChannel_of_ne (Ne.symm hscope) r _) (bufferedFrom_drop key)

end

end ReleaseState

/-- **Every step keeps the releases of a channel that has not failed.** -/
theorem releaseInvariant (config : DeliveryConfig) (scope : Scope) :
    ReceiveInvariant config (ReleaseGuard scope) fun r log =>
      scope ∉ r.failed → ReleaseState config scope r (scopeLog scope log) where
  step := by
    intro r r' a log hwf hinv hguard hstep hfailed
    have hsame : scope ∉ r.failed → ReleaseState config scope r (scopeLog scope log ++ []) := by
      simpa using hinv
    rw [scopeLog_append]
    cases hstep with
    | forget kept hkept => exact (hsame hfailed).frame rfl (bufferedFrom_of_active fun _ _ h => h)
    | touch epoch hactive =>
      exact (hsame hfailed).frame rfl (bufferedFrom_put fun _ hstate => ⟨_, hactive, hstate⟩)
    | enroll deadline epoch _ hactive =>
      exact (hsame hfailed).frame rfl (bufferedFrom_put fun _ hstate => by cases hstate)
    | expire | abandon | reject => exact (hsame hfailed).frame rfl (bufferedFrom_drop _)
    | fail other =>
      simp only [fail_failed, Set.mem_insert_iff, not_or] at hfailed
      refine (hsame hfailed.2).frame ?_ (bufferedFrom_fail other)
      simp [view, hfailed.1]
    -- a refused message leaves the channel as it was seen before
    | @refuse message _ =>
      refine (hsame hfailed).frame ?_ (bufferedFrom_of_active fun _ _ h => h)
      grind [Receive.view_setChannel_self, Receive.view_setChannel_of_ne]
    | @ready message record ch deadline _ hactive hinsert =>
      obtain hquiet | hguard := hguard
      · cases hquiet
      exact (hinv hfailed).ready hguard hinsert
    | @buffer message record ch _ hactive hinsert =>
      obtain hquiet | hguard := hguard
      · cases hquiet
      exact (hsame hfailed).buffer hguard hinsert
    | finish hactive hstate hidle hkept => exact (hinv hfailed).finish
    | advance hactive hch hflight hnext hkept => exact (hinv hfailed).advance hch hflight hnext
    | promote deadline hactive hch hflight hnext hrecord hstate hne hkept =>
      exact (hinv hfailed).promote hch hflight ((hwf _ _ hch).scope_eq hnext) hnext
    | stall hactive hch hflight hnext heq hstate =>
      exact (hsame hfailed).stall hch hflight hactive hstate
    | close peerId =>
      obtain hquiet | hguard := hguard
      · cases hquiet
      -- the guard leaves the closes of other peers, which do not reach the channel
      refine (hsame ?_).frame ?_ ?_
      · exact fun h => hfailed ⟨h, fun heq => hguard heq.symm⟩
      · simp [Receive.view, Receive.close, Ne.symm hguard]
      · refine bufferedFrom_of_active fun key record hactive => ?_
        grind [Receive.close]

/-! ## Runs -/

/-- A call on the channel `scope` as its contract has it: an inserted message is newly
deduplicated, so the in-flight message is not inserted again under a later sequence; sequences stay
below the last one; the peer is not closed. -/
def OrderedCall (scope : Scope) (store : DeliveryStore) : ReceiveOp → Prop
  | .accept message _ => message.scope = scope → message.sequence < u64Max ∧
      ∀ ch ∈ store.ordered.get? scope, ch.inFlight = some message.messageId →
        message.sequence ≤ ch.expectedSequence
  | .close peerId => peerId ≠ scope.1
  | _ => True

instance (scope : Scope) (store : DeliveryStore) (op : ReceiveOp) :
    Decidable (OrderedCall scope store op) := by
  cases op <;> unfold OrderedCall <;> infer_instance

theorem OrderedCall.releaseGuard {store : DeliveryStore} {op : ReceiveOp}
    (h : OrderedCall scope store op) : Guarded (ReleaseGuard scope) store op := by
  have hinsert : ∀ {message now}, OrderedCall scope store (.accept message now) →
      ReleaseGuard scope store.receive (.ready message) := by
    intro message now h hscope
    obtain ⟨hlt, hflight⟩ := h hscope
    refine ⟨hlt, ?_⟩
    rw [view]
    change ((store.ordered.get? scope).getD _).inFlight = _ →
      _ ≤ ((store.ordered.get? scope).getD _).expectedSequence
    cases hch : store.ordered.get? scope with
    | none => exact fun hnone => by cases hnone
    | some ch => exact hflight ch hch
  intro a ha
  cases a with
  | internal | enroll | fail => exact Or.inl trivial
  | reject | finish | stall => exact Or.inr trivial
  | ready message | buffer message =>
    obtain ⟨now, rfl⟩ := ha
    exact Or.inr (hinsert h)
  | close peerId =>
    cases ha
    exact Or.inr h

/-- The events of the channel `scope` in a run. -/
def channelEvents (config : DeliveryConfig) (scope : Scope) (ops : List ReceiveOp) :
    List ReceiveEvent :=
  scopeLog scope (((receiveMachine config).transcript ops).flatMap receiveLog)

/-- **Release order**: on a channel that has not failed, the released sequences are `0, 1, 2, …`,
every message but the first is released after the completion of its predecessor, and the byte
counter is the payload size of the buffer and within its limit. -/
theorem ordered_release_order (config : DeliveryConfig) (scope : Scope) (ops : List ReceiveOp)
    (hops : (receiveMachine config).Along (OrderedCall scope) ops)
    (hfailed : scope ∉ ((receiveMachine config).run ops).failedOrdered) :
    releasedSequences (channelEvents config scope ops) =
        List.range (releasedSequences (channelEvents config scope ops)).length ∧
      PredecessorsFinished (channelEvents config scope ops) ∧
      ∀ ch, ((receiveMachine config).run ops).ordered.get? scope = some ch →
        ch.reorderBytes = ch.bufferedBytes ∧ ch.reorderBytes ≤ config.maxReorderBytes := by
  have hguards := (receiveMachine config).along_mono
    (fun _ _ => OrderedCall.releaseGuard) hops
  obtain ⟨hwf, hstate⟩ := (releaseInvariant config scope).receive_run
    (fun _ => ⟨.nil config scope, fun h => by cases h⟩) hguards
  have hlog := (hstate hfailed).release.channelLog
  refine ⟨?_, hlog.predecessors, fun ch hch => ?_⟩
  · rw [channelEvents, hlog.sequences, List.length_range]
  · exact ⟨(hwf scope ch hch).bytes_eq, (hwf scope ch hch).bytes_le⟩

/-! ## Two runs -/

/-- An ordered message of the channel `("peer", "chat")`. -/
def chatMessage (n : UInt8) (sequence : ℕ) : OrderedMessage :=
  ⟨"peer", "session", "chat", .fill n, sequence, .sessionBoundOrdered, [n]⟩

/-- Two messages in order. -/
def orderedRun : List ReceiveOp :=
  [.begin (chatMessage 0 0).key 0 0, .begin (chatMessage 1 1).key 0 0,
    .accept (chatMessage 1 1) 0, .accept (chatMessage 0 0) 0,
    .complete (chatMessage 0 0).key 1 fun _ => 0]

theorem ordered_release_order_orderedRun :
    releasedSequences (channelEvents .default ("peer", "chat") orderedRun) = [0, 1] ∧
      PredecessorsFinished (channelEvents .default ("peer", "chat") orderedRun) :=
  ⟨by decide, (ordered_release_order .default ("peer", "chat") orderedRun (by decide)
    (by decide)).2.1⟩

/-- The message `0` is inserted twice, the second time under the sequence `1` while it is in
flight. -/
def reinsertedRun : List ReceiveOp :=
  [.begin (chatMessage 0 0).key 0 0, .accept (chatMessage 0 0) 0, .accept (chatMessage 0 1) 0,
    .complete (chatMessage 0 0).key 1 fun _ => 0,
    .begin (chatMessage 0 1).key 0 2, .accept (chatMessage 0 1) 2,
    .complete (chatMessage 0 1).key 3 fun _ => 0,
    .begin (chatMessage 2 2).key 0 4, .accept (chatMessage 2 2) 4]

/-- **A skipped sequence**: the channel never fails, and the sequence `1` is never released. -/
theorem reinserted_message_skips_sequence :
    ("peer", "chat") ∉ ((receiveMachine .default).run reinsertedRun).failedOrdered ∧
      releasedSequences (channelEvents .default ("peer", "chat") reinsertedRun) = [0, 2] := by
  decide

end SshMobile.Delivery
