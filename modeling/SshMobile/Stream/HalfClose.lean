import SshMobile.Stream.Integrity

/-!
# Reading on after a close

A stream is removed with its buffer as soon as both of its halves are closed. A reader that is still
draining then finds no stream where its bytes were: they can be read on exactly as long as no close
of the second half comes before the buffer is empty.

## Main definitions

* `unread`: the accepted bytes that the consumer was not handed
* `Readable`: a reader with room is given the front of the unread bytes
* `DropsBytes`: a step removes the stream with bytes in its buffer

## Main results

* `unread_readable_iff`: the unread bytes stay readable exactly when no step drops bytes
* `closed_reader_loses_bytes`: a run that loses a byte
-/

namespace SshMobile.Stream

open Library

variable {L : Type}

/-- The bytes that went into the buffer and have not come out of it. -/
def unread (key : StreamKey) (history : List (StreamOp L × StreamOutput L)) : Bytes :=
  (acceptedBytes key history).drop (handed key history).length

/-- **The unread bytes can be read**: a reader with room is given the front of them. -/
def Readable (key : StreamKey) (m : StreamManager L)
    (history : List (StreamOp L × StreamOutput L)) : Prop :=
  ∀ bufLen, 0 < bufLen → unread key history ≠ [] →
    (m.receive key bufLen).2 = .returned (.ok ((unread key history).take bufLen))

/-- The operations around a stream with a reader: its bytes, reads, leases and closes, and whatever
happens to other streams. The sweeps of a torn-down session or a lost path are not among them. -/
def ReaderOp (key : StreamKey) : StreamOp L → Prop
  | .openStream k _ consumer => k = key → consumer ≠ .event
  | .drainEvents k => k ≠ key
  | .closeAll _ => False
  | .closeInactive _ _ => False
  | .bindLease _ _ | .takeLease _ | .restoreLease _ _ | .bumpSendSeq _ _ => True
  | .handleBytes _ _ _ | .receive _ _ | .handleClose _ | .closeLocal _ => True

instance (key : StreamKey) : DecidablePred (ReaderOp (L := L) key)
  | .openStream _ _ _ => inferInstanceAs (Decidable (_ → _))
  | .drainEvents _ => inferInstanceAs (Decidable (_ ≠ _))
  | .closeAll _ => inferInstanceAs (Decidable False)
  | .closeInactive _ _ => inferInstanceAs (Decidable False)
  | .bindLease _ _ | .takeLease _ | .restoreLease _ _ | .bumpSendSeq _ _ =>
    inferInstanceAs (Decidable True)
  | .handleBytes _ _ _ | .receive _ _ | .handleClose _ | .closeLocal _ =>
    inferInstanceAs (Decidable True)

/-- **The step drops bytes**: it closes the second half of the stream before its buffer is empty. -/
def DropsBytes (key : StreamKey) (m : StreamManager L) (op : StreamOp L) : Prop :=
  ∃ e, m.streams.get? key = some e ∧ Removes key e op ∧ e.buffered ≠ []

/-! ## One state -/

variable {key : StreamKey} {m : StreamManager L} {history : List (StreamOp L × StreamOutput L)}

section State

variable {e : StreamEntry L}

theorem EntryFlow.unread_eq (h : EntryFlow key e history) : unread key history = e.buffered := by
  rw [unread, ← h.buffered_eq, List.drop_left]

/-- A reader with room is given the front of the buffer. -/
theorem receive_of_buffered (he : m.streams.get? key = some e) (hreader : e.consumer ≠ .event)
    {bufLen : ℕ} (hpos : 0 < bufLen) (hsome : e.buffered ≠ []) :
    (m.receive key bufLen).2 = .returned (.ok (e.buffered.take bufLen)) := by
  have hlength := length_takeFront bufLen e.recvChunks
  have htake := takeFront_eq_take bufLen e.recvChunks
  have hbuffered : 0 < e.recvChunks.flatten.length := List.length_pos_iff.mpr hsome
  rw [StreamManager.receive, he]
  dsimp only
  rw [if_neg hreader]
  generalize takeFront bufLen e.recvChunks = taken at hlength htake
  rw [if_pos (by omega), htake, StreamEntry.buffered]

theorem receive_of_none (h : m.streams.get? key = none) (bufLen : ℕ) :
    (m.receive key bufLen).2 = .returned (.error .notFound) := by
  rw [StreamManager.receive, h]

/-- **The unread bytes can be read** exactly when they were not removed with the stream. -/
theorem readable_iff (hflow : StreamFlow key m history)
    (hreader : ∀ e, m.streams.get? key = some e → e.consumer ≠ .event) :
    Readable key m history ↔ (m.streams.get? key = none → unread key history = []) := by
  cases he : m.streams.get? key with
  | none =>
    refine ⟨fun hreadable _ => ?_, fun hnone bufLen _ hunread => ?_⟩
    · by_contra hunread
      have hread := hreadable 1 Nat.one_pos hunread
      rw [receive_of_none he] at hread
      cases hread
    · exact absurd (hnone rfl) hunread
  | some e =>
    refine ⟨fun _ h => (nomatch h), fun _ bufLen hpos hunread => ?_⟩
    have hentry := hflow.entry e he
    rw [hentry.unread_eq] at hunread ⊢
    exact receive_of_buffered he (hreader e he) hpos hunread

end State

/-! ## One step -/

section Step

theorem unread_snoc {step : StreamOp L × StreamOutput L}
    (haccepted : acceptedChunk key step = none) (hhanded : handedBytes key step = []) :
    unread key (history ++ [step]) = unread key history := by
  rw [unread, acceptedBytes_snoc_none haccepted, handed_snoc, hhanded, List.append_nil, unread]

/-- The stream keeps its consumer. -/
theorem reader_step {op : StreamOp L} (hop : ReaderOp key op)
    (h : ∀ e, m.streams.get? key = some e → e.consumer ≠ .event) :
    ∀ e, (streamStep m op).1.streams.get? key = some e → e.consumer ≠ .event := by
  have hchange := streamStep_change m key op
  generalize hbefore : m.streams.get? key = before at hchange
  generalize (streamStep m op).1.streams.get? key = after at hchange
  generalize (streamStep m op).2 = out at hchange
  rw [hbefore] at h
  rintro e rfl
  cases hchange with
  | rest => exact h e rfl
  | opened hopened =>
    subst hopened
    exact hop rfl
  | @accepted e => exact h e rfl
  | @handed e => exact h e rfl
  | @kept e _ _ _ hsame =>
    rw [hsame.consumer]
    exact h e rfl

/-- **One step** removes no unread bytes exactly when it does not drop bytes. -/
theorem keeps_unread_step (hflow : StreamFlow key m history)
    (h : m.streams.get? key = none → unread key history = []) (op : StreamOp L) :
    ((streamStep m op).1.streams.get? key = none →
        unread key (history ++ [(op, (streamStep m op).2)]) = []) ↔
      ¬ DropsBytes key m op := by
  have hremoved : ∀ e, m.streams.get? key = some e → Removes key e op →
      (streamStep m op).1.streams.get? key = none := fun e he hr => (gone_of_removed he hr).1
  have hchange := streamStep_change m key op
  have hentry := hflow.entry
  rw [DropsBytes]
  generalize m.streams.get? key = before at hchange hremoved hentry h
  generalize (streamStep m op).1.streams.get? key = after at hchange hremoved
  generalize (streamStep m op).2 = out at hchange
  -- only a step after which the stream has no entry can lose bytes
  cases after with
  | some e' =>
    refine ⟨fun _ hdrops => ?_, fun _ hnone => (nomatch hnone)⟩
    obtain ⟨e, rfl, hr, -⟩ := hdrops
    cases hremoved e rfl hr
  | none =>
    cases hchange with
    | rest haccepted hhanded =>
      refine ⟨fun _ hdrops => ?_, fun _ _ => ?_⟩
      · obtain ⟨e, he, -⟩ := hdrops
        cases he
      · rw [unread_snoc haccepted hhanded]
        exact h rfl
    -- the unread bytes are those that were in the buffer
    | @removed e haccepted hhanded hr =>
      rw [unread_snoc haccepted hhanded, (hentry e rfl).unread_eq]
      constructor
      · rintro hempty ⟨e', he', -, hsome⟩
        obtain rfl := Option.some.inj he'
        exact hsome (hempty rfl)
      · intro hdrops _
        by_contra hsome
        exact hdrops ⟨e, rfl, hr, hsome⟩

end Step

/-! ## Runs -/

section

variable {ops : List (StreamOp L)} (hops : ∀ op ∈ ops, ReaderOp key op)

include hops

theorem reader_run :
    ∀ e, (streamMachine.run ops).streams.get? key = some e → e.consumer ≠ .event := by
  refine streamMachine.run_invariant (P := fun _ op => ReaderOp key op)
    (I := fun m => ∀ e, m.streams.get? key = some e → e.consumer ≠ .event) ?_ ?_
    (Machine.alongFrom_of_forall _ _ hops)
  · intro e he
    cases he
  · intro m op h hop
    exact reader_step hop h

theorem readable_run_iff :
    Readable key (streamMachine.run ops) (streamMachine.transcript ops) ↔
      ((streamMachine.run ops).streams.get? key = none →
        unread key (streamMachine.transcript ops) = []) :=
  readable_iff (streamFlow_run key ops) (reader_run hops)

end

/-- **Accepted bytes and closes**: in every run around a stream with a reader, what was accepted can
be read at every point of the run exactly when no step closes the second half of the stream before
its buffer is empty. -/
theorem unread_readable_iff (key : StreamKey) (ops : List (StreamOp L))
    (hops : ∀ op ∈ ops, ReaderOp key op) :
    (∀ before, before <+: ops →
        Readable key (streamMachine.run before) (streamMachine.transcript before)) ↔
      streamMachine.Along (fun m op => ¬ DropsBytes key m op) ops := by
  induction ops using List.reverseRecOn with
  | nil =>
    refine ⟨fun _ => trivial, fun _ before hbefore => ?_⟩
    obtain rfl := List.prefix_nil.mp hbefore
    intro bufLen _ hunread
    exact absurd rfl hunread
  | append_singleton ops op ih =>
    have hfront : ∀ op ∈ ops, ReaderOp key op := fun op hop => hops op (List.mem_append_left _ hop)
    have hsnoc : streamMachine.Along (fun m op => ¬ DropsBytes key m op) (ops ++ [op]) ↔
        streamMachine.Along (fun m op => ¬ DropsBytes key m op) ops ∧
          ¬ DropsBytes key (streamMachine.run ops) op := Machine.alongFrom_snoc _ _ _ _
    -- at the last step the bytes that could be read before it decide
    have hlast : Readable key (streamMachine.run ops) (streamMachine.transcript ops) →
        (Readable key (streamMachine.run (ops ++ [op])) (streamMachine.transcript (ops ++ [op])) ↔
          ¬ DropsBytes key (streamMachine.run ops) op) := by
      intro hreadable
      rw [readable_run_iff hops, Machine.run_snoc]
      have htranscript : streamMachine.transcript (ops ++ [op]) = streamMachine.transcript ops ++
          [(op, (streamStep (streamMachine.run ops) op).2)] := Machine.transcriptFrom_snoc _ _ _ _
      rw [htranscript]
      exact keeps_unread_step (streamFlow_run key ops) ((readable_run_iff hfront).mp hreadable) op
    rw [hsnoc, ← ih hfront]
    constructor
    · intro hall
      have hbefore : ∀ before, before <+: ops →
          Readable key (streamMachine.run before) (streamMachine.transcript before) :=
        fun before h => hall before (h.trans (List.prefix_append _ _))
      exact ⟨hbefore, (hlast (hbefore ops List.prefix_rfl)).mp (hall _ List.prefix_rfl)⟩
    · rintro ⟨hall, hdrops⟩ before hbefore
      rcases List.prefix_concat_iff.mp hbefore with rfl | h
      · exact (hlast (hall ops List.prefix_rfl)).mpr hdrops
      · exact hall before h

/-! ## A run that loses a byte -/

def sampleStream : StreamKey := ⟨.remote, 1⟩

/-- A byte arrives, the sending half is closed, the byte is read, and the other half is closed. -/
def drainedRun : List (StreamOp Unit) :=
  [.openStream sampleStream "ssh" .bridge, .handleBytes sampleStream 0 [7],
    .closeLocal sampleStream, .receive sampleStream 16, .handleClose sampleStream]

theorem unread_readable_iff_drainedRun :
    (∀ before, before <+: drainedRun →
        Readable sampleStream (streamMachine.run before) (streamMachine.transcript before)) ↔
      streamMachine.Along (fun m op => ¬ DropsBytes sampleStream m op) drainedRun :=
  unread_readable_iff sampleStream drainedRun (by decide)

/-- **A byte is lost by closing**: it was accepted and not read, and the reader finds no stream. -/
theorem closed_reader_loses_bytes :
    let ops : List (StreamOp Unit) :=
      [.openStream sampleStream "ssh" .bridge, .handleBytes sampleStream 0 [7],
        .closeLocal sampleStream, .handleClose sampleStream]
    unread sampleStream (streamMachine.transcript ops) = [7] ∧
      ((streamMachine.run ops).receive sampleStream 16).2 = .returned (.error .notFound) :=
  ⟨rfl, rfl⟩

end SshMobile.Stream
