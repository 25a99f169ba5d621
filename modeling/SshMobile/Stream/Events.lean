import SshMobile.Stream.Manager

/-!
# The events of a stream

What the application is told of the streams in event mode. A stream's drainer turns its chunks into
data events and tells the end once the receive side is closed and the buffer is empty. The sweeps
over all streams tell the end of the streams they remove. Both emit the closed event after they have
given up the manager's lock, so it is a step of its own.

A stream that has ended for its drainer stays registered until its sending half is closed. A sweep
that comes before tells its end again.

An event names the opener's device and the stream's number; within the manager of a peer that is the
stream's key.

## Main definitions

* `Drainer`, `EventState`, `eventMachine`: drainers, sweeps and callers in any order
* `ClosedOnce`: a stream is closed at most once, after all of its data
* `Resweeps`: a sweep takes a stream that has ended for its drainer

## Main results

* `closed_once_iff`: a stream is closed once where no sweep takes it after its end, and only there
* `swept_after_end_closes_twice`: a run with two closed events
-/

namespace SshMobile.Stream

open Library

variable {L : Type}

/-! ## Runs with events -/

inductive StreamEvent
  | dataReceived (key : StreamKey) (chunk : Bytes)
  | closed (key : StreamKey)
deriving DecidableEq

/-- Where the task that drains a stream is: before its start, in its loop, about to emit the closed
event, after it, or returned because the stream was gone. -/
inductive Drainer
  | idle
  | running
  | closing
  | announced
  | returned
deriving DecidableEq

/-- The drainer has seen the end of its stream. -/
def Drainer.sawEnd : Drainer → Bool
  | .closing | .announced => true
  | .idle | .running | .returned => false

/-- The closed events that the drainer is about to emit. -/
def Drainer.due : Drainer → ℕ
  | .closing => 1
  | .idle | .running | .announced | .returned => 0

structure EventState (L : Type) where
  manager : StreamManager L
  drainers : StreamKey → Drainer
  pending : List StreamKey
  events : List StreamEvent

def EventState.new : EventState L := ⟨.new, fun _ => .idle, [], []⟩

inductive EventOp (L : Type)
  | call (op : StreamOp L)
  | spawn (key : StreamKey)
  | announce (key : StreamKey)
  | emitSwept (key : StreamKey)

/-- The keys that a sweep has taken. -/
def sweptKeys : StreamOutput L → List StreamKey
  | .swept keys => keys
  | .result _ | .lease _ | .restored _ | .bytes _ | .drained _ | .received _ => []

/-- The data event of a drainer's look; it is emitted under the lock. -/
def dataEvents : StreamOp L → StreamOutput L → List StreamEvent
  | .drainEvents key, .drained (.data chunk) => [.dataReceived key chunk]
  | _, _ => []

/-- The drainers after a call: a drainer's look may be its last one. -/
def drainersAfter (drainers : StreamKey → Drainer) : StreamOp L → StreamOutput L →
    StreamKey → Drainer
  | .drainEvents key, .drained .closed => Function.update drainers key .closing
  | .drainEvents key, .drained .gone => Function.update drainers key .returned
  | _, _ => drainers

/-- A drainer looks only while it is in its loop. -/
def Runs (s : EventState L) : StreamOp L → Bool
  | .drainEvents key => s.drainers key = .running
  | _ => true

/-- The state after a call of the manager, and the keys that it has swept. -/
def callManager (s : EventState L) (op : StreamOp L) : EventState L × List StreamKey :=
  let result := streamStep s.manager op
  ({ manager := result.1
     drainers := drainersAfter s.drainers op result.2
     pending := s.pending ++ sweptKeys result.2
     events := s.events ++ dataEvents op result.2 }, sweptKeys result.2)

def eventStep (s : EventState L) : EventOp L → EventState L × List StreamKey
  | .call op => if Runs s op then callManager s op else (s, [])
  | .spawn key =>
    if s.drainers key = .idle then
      ({ s with drainers := Function.update s.drainers key .running }, [])
    else (s, [])
  | .announce key =>
    if s.drainers key = .closing then
      ({ s with
          drainers := Function.update s.drainers key .announced
          events := s.events ++ [.closed key] }, [])
    else (s, [])
  | .emitSwept key =>
    if key ∈ s.pending then
      ({ s with
          pending := s.pending.erase key
          events := s.events ++ [.closed key] }, [])
    else (s, [])

def eventMachine : Machine (EventState L) (EventOp L) (List StreamKey) where
  start := .new
  step := eventStep

/-- No data event of the stream follows its closed event. -/
def DataBeforeClosed (key : StreamKey) (events : List StreamEvent) : Prop :=
  events.Pairwise fun a b => a = .closed key → ∀ chunk, b ≠ .dataReceived key chunk

/-- **A stream is closed once**: at most one closed event, and no data event after it. -/
def ClosedOnce (key : StreamKey) (events : List StreamEvent) : Prop :=
  events.count (.closed key) ≤ 1 ∧ DataBeforeClosed key events

/-- The calls that go over all streams. -/
def StreamOp.isSweep : StreamOp L → Bool
  | .closeAll _ | .closeInactive _ _ => true
  | _ => false

/-- A sweep that takes the stream. -/
def Sweeps (key : StreamKey) (m : StreamManager L) (op : StreamOp L) : Prop :=
  op.isSweep = true ∧ ∃ e, m.streams.get? key = some e ∧ Removes key e op

/-- **A sweep comes after the end**: it takes the stream although the drainer has seen its end. -/
def Resweeps (key : StreamKey) (s : EventState L) (op : EventOp L) : Prop :=
  (s.drainers key).sawEnd = true ∧ ∃ call, op = .call call ∧ Sweeps key s.manager call

/-- Every closed event of the stream that was decided on has been emitted. -/
def Flushed (key : StreamKey) (s : EventState L) : Prop :=
  key ∉ s.pending ∧ s.drainers key ≠ .closing

/-! ## What a call does to a stream -/

section Call

variable {m : StreamManager L} {key : StreamKey} {op : StreamOp L}

/-- A stream that a drainer has seen the end of: it is gone, or closed and empty. -/
def Drained (m : StreamManager L) (key : StreamKey) : Prop :=
  Gone m key ∨ ∃ e, m.streams.get? key = some e ∧ e.recvClosed = true ∧ e.recvChunks = []

/-- **A drained stream stays drained.** -/
theorem Drained.step (h : Drained m key) (op : StreamOp L) : Drained (streamStep m op).1 key := by
  rcases h with hgone | ⟨e, he, hclosed, hnil⟩
  · exact .inl (hgone.step op)
  · have hchange := streamStep_change m key op
    have hremoved : Removes key e op → Gone (streamStep m op).1 key := gone_of_removed he
    rw [he] at hchange
    generalize hafter : (streamStep m op).1.streams.get? key = after at hchange
    generalize (streamStep m op).2 = out at hchange
    cases hchange with
    | rest => exact .inr ⟨e, hafter, hclosed, hnil⟩
    | accepted _ _ hrecv => exact absurd hclosed (by rw [hrecv]; decide)
    | handed _ _ _ hempty => grind [Drained]
    | @kept _ e' _ _ hsame =>
      exact .inr ⟨e', hafter, hsame.recvClosed hclosed, hsame.recvChunks.trans hnil⟩
    | removed _ _ hremoves => exact .inl (hremoved hremoves)

/-- A data event shows that the stream was not drained. -/
theorem not_drained_of_data {k : StreamKey} {chunk : Bytes}
    (h : (m.drainEvents k).2 = .data chunk) : ¬ Drained m k := by
  rw [StreamManager.drainEvents] at h
  split at h
  · cases h
  · rename_i e he
    split at h
    · rintro (⟨hnone, -⟩ | ⟨e', he', -, hnil⟩)
      · rw [hnone] at he
        cases he
      · simp_all
    · split_ifs at h

/-- The drainer sees the end of a registered stream that is closed and empty. -/
theorem drained_of_closed {k : StreamKey} (h : (m.drainEvents k).2 = .closed) :
    Drained m k ∧ ¬ Gone m k := by
  grind [StreamManager.drainEvents, Drained, Gone]

/-- The keys that a call reports are those of the streams it sweeps. -/
theorem mem_sweptKeys : key ∈ sweptKeys (streamStep m op).2 ↔ Sweeps key m op := by
  cases op with
  | closeAll order =>
    have hkeys : sweptKeys (streamStep m (.closeAll order)).2 =
        (m.streams.iter order).map Prod.fst := rfl
    rw [hkeys]
    constructor
    · intro h
      obtain ⟨⟨k, e⟩, hmem, rfl⟩ := List.mem_map.mp h
      exact ⟨rfl, e, Table.exists_get?_of_iter hmem, .closeAll order⟩
    · rintro ⟨-, e, he, -⟩
      exact List.mem_map.mpr ⟨(key, e), Table.mem_iter.mpr (Table.mem_toList.mpr he), rfl⟩
  | closeInactive isActive order =>
    refine (mem_closeInactive m key).trans ⟨?_, ?_⟩
    · rintro ⟨e, he, hlease⟩
      exact ⟨rfl, e, he, .closeInactive order hlease⟩
    · rintro ⟨-, e, he, hremoves⟩
      cases hremoves with
      | closeInactive _ hlease => exact ⟨e, he, hlease⟩
  | _ =>
    constructor
    · intro h
      cases h
    · rintro ⟨hsweep, -⟩
      cases hsweep

theorem nodup_sweptKeys : (sweptKeys (streamStep m op).2).Nodup := by
  cases op with
  | closeAll order => exact Table.nodup_keys_iter order m.streams
  | closeInactive isActive order =>
    exact (Table.nodup_keys_iter order m.streams).sublist (List.filter_sublist.map Prod.fst)
  | _ => exact List.nodup_nil

/-- **A sweep** takes registered streams, each once, and leaves them gone. -/
theorem swept_of_mem (h : key ∈ sweptKeys (streamStep m op).2) :
    ¬ Gone m key ∧ Gone (streamStep m op).1 key ∧
      (sweptKeys (streamStep m op).2).count key = 1 := by
  obtain ⟨-, e, he, hremoves⟩ := mem_sweptKeys.mp h
  refine ⟨fun hgone => ?_, gone_of_removed he hremoves,
    List.count_eq_one_of_mem nodup_sweptKeys h⟩
  rw [hgone.1] at he
  cases he

/-- A step reports the stream when it is a call that sweeps it. -/
theorem mem_eventStep {s : EventState L} {op : EventOp L} :
    key ∈ (eventStep s op).2 ↔ ∃ call, op = .call call ∧ Sweeps key s.manager call := by
  cases op with
  | call op =>
    have hruns : Sweeps key s.manager op → Runs s op = true := by
      rintro ⟨hsweep, -⟩
      cases op with
      | drainEvents => cases hsweep
      | _ => rfl
    rw [eventStep]
    split_ifs with h
    · rw [callManager, mem_sweptKeys]
      simp
    · simp only [List.not_mem_nil, EventOp.call.injEq, exists_eq_left', false_iff]
      exact fun hsweeps => h (hruns hsweeps)
  | spawn | announce | emitSwept =>
    rw [eventStep]
    split_ifs <;> simp

end Call

/-! ## The invariant -/

/-- **The closed events of a stream**, emitted or still to come: one if its drainer has seen the
end, and one for each sweep that took it. -/
structure EventInv (key : StreamKey) (s : EventState L) (swept : ℕ) : Prop where
  count : s.events.count (.closed key) + s.pending.count key + (s.drainers key).due =
    (s.drainers key).sawEnd.toNat + swept
  swept_le : swept ≤ 1
  gone : 0 < swept → Gone s.manager key
  drained : (s.drainers key).sawEnd = true → Drained s.manager key
  ordered : DataBeforeClosed key s.events

section Step

variable {key : StreamKey} {s : EventState L} {swept : ℕ}

/-- A stream with a closed event is drained. -/
theorem EventInv.drained_of_closed (h : EventInv key s swept)
    (hmem : StreamEvent.closed key ∈ s.events) : Drained s.manager key := by
  have hpos := List.count_pos_iff.mpr hmem
  have hcount := h.count
  by_cases hend : (s.drainers key).sawEnd = true
  · exact h.drained hend
  · rw [Bool.not_eq_true] at hend
    rw [hend, Bool.toNat_false] at hcount
    exact .inl (h.gone (by omega))

theorem count_dataEvents (op : StreamOp L) (out : StreamOutput L) :
    (dataEvents op out).count (.closed key) = 0 := by
  rw [dataEvents.eq_def]
  split <;> rfl

theorem drainersAfter_cases (key : StreamKey) (drainers : StreamKey → Drainer) (op : StreamOp L)
    (out : StreamOutput L) :
    drainersAfter drainers op out key = drainers key ∨
      op = .drainEvents key ∧ out = .drained .closed ∧
        drainersAfter drainers op out key = .closing ∨
      op = .drainEvents key ∧ out = .drained .gone ∧
        drainersAfter drainers op out key = .returned := by
  rw [drainersAfter.eq_def]
  split
  · grind
  · grind
  · exact .inl rfl

theorem dataEvents_ordered (h : EventInv key s swept) (op : StreamOp L) :
    DataBeforeClosed key (s.events ++ dataEvents op (streamStep s.manager op).2) := by
  refine List.pairwise_append.mpr ⟨h.ordered, ?_, ?_⟩
  · rw [dataEvents.eq_def]
    split
    · exact List.pairwise_singleton _ _
    · exact .nil
  · rintro _ hmem b hb rfl chunk rfl
    rw [dataEvents.eq_def] at hb
    split at hb
    · rename_i k _ chunk' hout
      obtain ⟨rfl, rfl⟩ := StreamEvent.dataReceived.inj (List.mem_singleton.mp hb)
      simp only [streamStep, Prod.map_snd, StreamOutput.drained.injEq] at hout
      exact not_drained_of_data hout (h.drained_of_closed hmem)
    · cases hb

/-- **A call of the manager** keeps the invariant; it sweeps the stream at most once in a run. -/
theorem EventInv.call (h : EventInv key s swept) {op : StreamOp L} (hruns : Runs s op = true) :
    EventInv key (callManager s op).1 (swept + (callManager s op).2.count key) := by
  have hordered := dataEvents_ordered h op
  have hcount := h.count
  have hdata : (s.events ++ dataEvents op (streamStep s.manager op).2).count (.closed key) =
      s.events.count (.closed key) := by
    grind [count_dataEvents]
  -- the count of a drainer that is not about to see the end
  have hrunning : op = .drainEvents key → s.drainers key = .running := by
    rintro rfl
    exact of_decide_eq_true hruns
  have hdrainer := drainersAfter_cases key s.drainers op (streamStep s.manager op).2
  rw [callManager]
  by_cases hmem : key ∈ sweptKeys (streamStep s.manager op).2
  · -- a sweep: the stream was registered, so this is the first one
    obtain ⟨hpresent, hgone, hone⟩ := swept_of_mem hmem
    have hzero : swept = 0 := Nat.eq_zero_of_not_pos fun hpos => hpresent (h.gone hpos)
    have hsame : drainersAfter s.drainers op (streamStep s.manager op).2 key = s.drainers key := by
      rcases hdrainer with hsame | ⟨rfl, -⟩ | ⟨rfl, -⟩
      · exact hsame
      · cases hmem
      · cases hmem
    rw [hone]
    refine ⟨?_, by omega, fun _ => hgone, fun _ => .inl hgone, hordered⟩
    grind
  · have hnone : (sweptKeys (streamStep s.manager op).2).count key = 0 :=
      List.count_eq_zero.mpr hmem
    rw [hnone, Nat.add_zero]
    have hgone : 0 < swept → Gone (streamStep s.manager op).1 key :=
      fun hpos => (h.gone hpos).step op
    rcases hdrainer with hsame | ⟨rfl, hout, hclosing⟩ | ⟨rfl, hout, hreturned⟩
    · refine ⟨?_, h.swept_le, hgone, fun hend => ?_, hordered⟩
      · simp_all
      · dsimp only at hend
        rw [hsame] at hend
        exact (h.drained hend).step op
    · -- the drainer sees the end
      simp only [streamStep, Prod.map_snd, StreamOutput.drained.injEq] at hout
      have hdrained := Drained.step (Stream.drained_of_closed hout).1 (.drainEvents key)
      refine ⟨?_, h.swept_le, hgone, fun _ => hdrained, hordered⟩
      grind [Drainer.sawEnd, Drainer.due]
    · rw [hrunning rfl] at hcount
      refine ⟨?_, h.swept_le, hgone, fun hend => ?_, hordered⟩
      · dsimp only
        rw [hreturned, hdata, List.count_append, hnone]
        exact hcount
      · dsimp only at hend
        rw [hreturned] at hend
        cases hend

/-- Closed events do not disturb the order. -/
theorem DataBeforeClosed.closed {events : List StreamEvent} (h : DataBeforeClosed key events)
    (k : StreamKey) : DataBeforeClosed key (events ++ [.closed k]) := by
  grind [DataBeforeClosed]

section

variable (h : EventInv key s swept)

include h

theorem EventInv.spawn {k : StreamKey} (hidle : s.drainers k = .idle) :
    EventInv key { s with drainers := Function.update s.drainers k .running } swept := by
  by_cases hk : key = k
  · subst hk
    have hcount := h.count
    rw [hidle] at hcount
    refine ⟨?_, h.swept_le, h.gone, fun hend => ?_, h.ordered⟩
    · dsimp only
      rw [Function.update_self]
      exact hcount
    · dsimp only at hend
      rw [Function.update_self] at hend
      cases hend
  · refine ⟨?_, h.swept_le, h.gone, fun hend => h.drained ?_, h.ordered⟩
    · grind [count]
    · simp_all

theorem EventInv.announce {k : StreamKey} (hclosing : s.drainers k = .closing) :
    EventInv key { s with
      drainers := Function.update s.drainers k .announced
      events := s.events ++ [.closed k] } swept := by
  have hordered := h.ordered.closed k
  have hcount := h.count
  by_cases hk : key = k
  · subst hk
    refine ⟨?_, h.swept_le, h.gone, fun _ => h.drained (by rw [hclosing]; rfl), hordered⟩
    grind [Drainer.sawEnd, Drainer.due]
  · have hne : StreamEvent.closed k ≠ .closed key := fun heq => hk (StreamEvent.closed.inj heq).symm
    refine ⟨?_, h.swept_le, h.gone, fun hend => h.drained ?_, hordered⟩
    · simp_all
    · simp_all

theorem EventInv.emitSwept {k : StreamKey} (hmem : k ∈ s.pending) :
    EventInv key { s with
      pending := s.pending.erase k
      events := s.events ++ [.closed k] } swept := by
  have hordered := h.ordered.closed k
  have hcount := h.count
  refine ⟨?_, h.swept_le, h.gone, h.drained, hordered⟩
  grind

/-- **One step** of the drainers, the sweeps and the callers. -/
theorem EventInv.step (op : EventOp L) :
    EventInv key (eventStep s op).1 (swept + (eventStep s op).2.count key) := by
  cases op with
  | call op =>
    rw [eventStep]
    split_ifs with hruns
    · exact h.call hruns
    · exact h
  | spawn k =>
    rw [eventStep]
    split_ifs with hidle
    · exact h.spawn hidle
    · exact h
  | announce k =>
    rw [eventStep]
    split_ifs with hclosing
    · exact h.announce hclosing
    · exact h
  | emitSwept k =>
    rw [eventStep]
    split_ifs with hmem
    · exact h.emitSwept hmem
    · exact h

/-- A step that does not sweep the stream: the drainer keeps what it has seen, or sees the end of a
stream that no sweep has taken. -/
theorem sawEnd_step (op : EventOp L) :
    (eventStep s op).1.drainers key = s.drainers key ∨
      ((eventStep s op).1.drainers key).sawEnd = (s.drainers key).sawEnd ∨
      swept = 0 ∧ key ∉ (eventStep s op).2 := by
  cases op with
  | call op =>
    rw [eventStep]
    split_ifs with hruns
    · rcases drainersAfter_cases key s.drainers op (streamStep s.manager op).2 with
        hsame | ⟨rfl, hout, -⟩ | ⟨rfl, hout, hreturned⟩
      · exact .inl hsame
      · simp only [streamStep, Prod.map_snd, StreamOutput.drained.injEq] at hout
        -- the drainer sees the end of a registered stream, and a swept one is gone
        have hpresent := (Stream.drained_of_closed hout).2
        refine .inr (.inr ⟨Nat.eq_zero_of_not_pos fun hpos => hpresent (h.gone hpos), ?_⟩)
        exact List.not_mem_nil
      · have hrunning : s.drainers key = .running := of_decide_eq_true hruns
        refine .inr (.inl ?_)
        rw [hrunning]
        exact (congrArg Drainer.sawEnd hreturned).trans rfl
    · exact .inl rfl
  | spawn k | announce k =>
    rw [eventStep]
    split_ifs with hdrainer
    · by_cases hk : key = k
      · subst hk
        refine .inr (.inl ?_)
        dsimp only
        rw [Function.update_self, hdrainer]
        rfl
      · exact .inl (Function.update_of_ne hk ..)
    · exact .inl rfl
  | emitSwept k =>
    grind [eventStep]

end

end Step

/-! ## Runs -/

/-- How often the sweeps of a run have taken the stream. -/
def sweptCount (key : StreamKey) (history : List (EventOp L × List StreamKey)) : ℕ :=
  (history.map fun step => step.2.count key).sum

theorem sweptCount_snoc (key : StreamKey) (history : List (EventOp L × List StreamKey))
    (step : EventOp L × List StreamKey) :
    sweptCount key (history ++ [step]) = sweptCount key history + step.2.count key := by
  grind [sweptCount]

theorem eventInv_start (key : StreamKey) : EventInv key (EventState.new : EventState L) 0 where
  count := rfl
  swept_le := Nat.zero_le _
  gone := fun h => absurd h (Nat.lt_irrefl 0)
  drained := fun h => nomatch h
  ordered := .nil

theorem eventInv_run (key : StreamKey) (ops : List (EventOp L)) :
    EventInv key (eventMachine.run ops) (sweptCount key (eventMachine.transcript ops)) := by
  refine eventMachine.transcript_always
    (I := fun s history => EventInv key s (sweptCount key history)) (eventInv_start key) ?_ ops
  intro s history op h
  rw [sweptCount_snoc]
  exact h.step op

/-- **No sweep comes after the end** exactly when a stream whose end the drainer has seen was never
swept. -/
theorem along_not_resweeps_iff (key : StreamKey) (ops : List (EventOp L)) :
    eventMachine.Along (fun s op => ¬ Resweeps key s op) ops ↔
      (((eventMachine.run ops).drainers key).sawEnd = true →
        sweptCount key (eventMachine.transcript ops) = 0) := by
  induction ops using List.reverseRecOn with
  | nil => exact ⟨fun _ hend => (nomatch hend), fun _ => trivial⟩
  | append_singleton ops op ih =>
    have hinv := eventInv_run key ops
    have hsnoc : eventMachine.Along (fun s op => ¬ Resweeps key s op) (ops ++ [op]) ↔
        eventMachine.Along (fun s op => ¬ Resweeps key s op) ops ∧
          ¬ Resweeps key (eventMachine.run ops) op := Machine.alongFrom_snoc _ _ _ _
    have htranscript : eventMachine.transcript (ops ++ [op]) = eventMachine.transcript ops ++
        [(op, (eventStep (eventMachine.run ops) op).2)] := Machine.transcriptFrom_snoc _ _ _ _
    have hrun : eventMachine.run (ops ++ [op]) = (eventStep (eventMachine.run ops) op).1 :=
      Machine.run_snoc _ _ _
    rw [hsnoc, ih, hrun, htranscript, sweptCount_snoc, Resweeps, ← mem_eventStep]
    have hle := (hinv.step op).swept_le
    generalize sweptCount key (eventMachine.transcript ops) = swept at hinv hle
    generalize eventMachine.run ops = s at hinv hle
    dsimp only
    have hmem : key ∈ (eventStep s op).2 ↔ 0 < (eventStep s op).2.count key :=
      List.count_pos_iff.symm
    -- the sweep that takes the stream is the first one, and leaves the drainer as it is
    have hcases := sawEnd_step hinv op
    rw [hmem] at *
    -- before the end no sweep counts; the step may be the one at which the drainer sees it
    cases hend : (s.drainers key).sawEnd with
    | false =>
      rcases hcases with hsame | hsame | ⟨hzero, hnone⟩
      · rw [hsame, hend]
        simp
      · rw [hsame, hend]
        simp
      · omega
    | true =>
      have hend' : ((eventStep s op).1.drainers key).sawEnd = true ∨
          swept = 0 ∧ ¬ 0 < (eventStep s op).2.count key := by
        rcases hcases with hsame | hsame | hnone
        · exact .inl (by rw [hsame, hend])
        · exact .inl (by rw [hsame, hend])
        · exact .inr hnone
      rcases hend' with hend' | ⟨hzero, hnone⟩
      · rw [hend']
        simp only [true_implies, true_and]
        omega
      · omega

/-- **A stream is closed once** at every point of a run in which no sweep takes it after its drainer
has seen the end, and only there once its closed events are out. -/
theorem closed_once_iff (key : StreamKey) (ops : List (EventOp L)) :
    (eventMachine.Along (fun s op => ¬ Resweeps key s op) ops →
        ClosedOnce key (eventMachine.run ops).events) ∧
      (Flushed key (eventMachine.run ops) →
        (ClosedOnce key (eventMachine.run ops).events ↔
          eventMachine.Along (fun s op => ¬ Resweeps key s op) ops)) := by
  have hinv := eventInv_run key ops
  have hcount := hinv.count
  have hle := hinv.swept_le
  rw [along_not_resweeps_iff]
  refine ⟨fun hswept => ⟨?_, hinv.ordered⟩, fun ⟨hpending, hclosing⟩ => ?_⟩
  · cases hend : ((eventMachine.run ops).drainers key).sawEnd with
    | false =>
      rw [hend, Bool.toNat_false] at hcount
      omega
    | true =>
      rw [hend, hswept hend, Bool.toNat_true] at hcount
      omega
  -- all closed events are out: the count is the drainer's own and that of the sweeps
  have hdue : ((eventMachine.run ops).drainers key).due = 0 := by
    generalize (eventMachine.run ops).drainers key = drainer at hclosing
    cases drainer <;> first | rfl | exact absurd rfl hclosing
  rw [List.count_eq_zero.mpr hpending, hdue] at hcount
  rw [ClosedOnce, and_iff_left hinv.ordered]
  cases hend : ((eventMachine.run ops).drainers key).sawEnd with
  | false | true =>
    simp_all

def eventStream : StreamKey := ⟨.local, 1⟩

/-- Data, the end, and the local close before the teardown of the session. -/
def closedOnceRun : List (EventOp Unit) :=
  [.call (.openStream eventStream "app" .event), .spawn eventStream,
    .call (.handleBytes eventStream 0 [7]), .call (.handleClose eventStream),
    .call (.drainEvents eventStream), .call (.drainEvents eventStream), .announce eventStream,
    .call (.closeLocal eventStream), .call (.closeAll fun _ => 0)]

theorem closed_once_iff_closedOnceRun :
    (eventMachine.run closedOnceRun).events =
        [.dataReceived eventStream [7], .closed eventStream] ∧
      (ClosedOnce eventStream (eventMachine.run closedOnceRun).events ↔
        eventMachine.Along (fun s op => ¬ Resweeps eventStream s op) closedOnceRun) := by
  refine ⟨rfl, (closed_once_iff eventStream closedOnceRun).2 ⟨?_, ?_⟩⟩
  · exact List.not_mem_nil
  · exact fun h => nomatch h

/-- **Two closed events**: the peer closes its half and the drainer tells the end; the session is
torn down while the sending half is still open. -/
theorem swept_after_end_closes_twice :
    let ops : List (EventOp Unit) :=
      [.call (.openStream eventStream "app" .event), .spawn eventStream,
        .call (.handleClose eventStream), .call (.drainEvents eventStream), .announce eventStream,
        .call (.closeAll fun _ => 0), .emitSwept eventStream]
    (eventMachine.run ops).events = [.closed eventStream, .closed eventStream] :=
  rfl

end SshMobile.Stream
