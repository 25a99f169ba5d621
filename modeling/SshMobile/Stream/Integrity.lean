import SshMobile.Stream.Manager

/-!
# Integrity of a byte stream

The bytes of a stream over a whole run of its manager: the chunks that went into the buffer, in the
order of their sequence numbers, and the bytes that came out of it, through whichever consumer. What
came out and what is still buffered is what went in, until the stream is removed.

## Main definitions

* `accepted`, `acceptedBytes`, `handed`: what has gone into and come out of a stream's buffer
* `StreamFlow`: the invariant between the buffer and the two histories
* `StreamIntegrity`: what holds of a stream after a run

## Main results

* `streamFlow_run`: the invariant holds after every run
* `stream_integrity`: every stream is intact after every run
-/

namespace SshMobile.Stream

open Library

variable {L : Type}

/-! ## The two histories -/

/-- The chunks that have gone into the stream's buffer, with their sequence numbers. -/
def accepted (key : StreamKey) (history : List (StreamOp L × StreamOutput L)) :
    List (UInt64 × Bytes) :=
  history.filterMap (acceptedChunk key)

def acceptedBytes (key : StreamKey) (history : List (StreamOp L × StreamOutput L)) : Bytes :=
  ((accepted key history).map Prod.snd).flatten

/-- The bytes that the stream's consumer was handed. -/
def handed (key : StreamKey) (history : List (StreamOp L × StreamOutput L)) : Bytes :=
  history.flatMap (handedBytes key)

variable {key : StreamKey} {history : List (StreamOp L × StreamOutput L)}

section Histories

variable {step : StreamOp L × StreamOutput L}

theorem accepted_snoc_none (h : acceptedChunk key step = none) :
    accepted key (history ++ [step]) = accepted key history := by
  grind [accepted]

theorem accepted_snoc_some {chunk : UInt64 × Bytes} (h : acceptedChunk key step = some chunk) :
    accepted key (history ++ [step]) = accepted key history ++ [chunk] := by
  grind [accepted]

theorem acceptedBytes_snoc_none (h : acceptedChunk key step = none) :
    acceptedBytes key (history ++ [step]) = acceptedBytes key history := by
  rw [acceptedBytes, accepted_snoc_none h, acceptedBytes]

theorem acceptedBytes_snoc_some {seq : UInt64} {data : Bytes}
    (h : acceptedChunk key step = some (seq, data)) :
    acceptedBytes key (history ++ [step]) = acceptedBytes key history ++ data := by
  rw [acceptedBytes, accepted_snoc_some h, List.map_append, List.flatten_append]
  exact congrArg _ List.flatten_singleton

theorem handed_snoc :
    handed key (history ++ [step]) = handed key history ++ handedBytes key step := by
  grind [handed]

end Histories

/-! ## The invariant -/

/-- The entry of a stream and its histories. -/
structure EntryFlow (key : StreamKey) (e : StreamEntry L)
    (history : List (StreamOp L × StreamOutput L)) : Prop where
  nextRecvSeq_eq : e.nextRecvSeq = UInt64.ofNat (accepted key history).length
  buffered_eq : handed key history ++ e.buffered = acceptedBytes key history
  recvBytes_eq : e.recvBytes = e.buffered.length
  recvBytes_le : e.recvBytes ≤ maxPerStreamBufferCapacity
  closed_of_recvClosed : e.recvClosed = true → .handleClose key ∈ history.map Prod.fst

/-- **The flow of a stream**: its entry follows its histories, and without an entry it was never
open or is gone. -/
structure StreamFlow (key : StreamKey) (m : StreamManager L)
    (history : List (StreamOp L × StreamOutput L)) : Prop where
  sequence : (accepted key history).map Prod.fst =
    (List.range (accepted key history).length).map UInt64.ofNat
  handed_prefix : handed key history <+: acceptedBytes key history
  entry : ∀ e, m.streams.get? key = some e → EntryFlow key e history
  absent : m.streams.get? key = none →
    (accepted key history = [] ∧ handed key history = []) ∨ Gone m key

theorem streamFlow_start (key : StreamKey) : StreamFlow key (StreamManager.new : StreamManager L) []
    where
  sequence := rfl
  handed_prefix := List.nil_prefix
  entry := fun _ h => nomatch h
  absent := fun _ => .inl ⟨rfl, rfl⟩

open StreamEntry

section Step

variable {op : StreamOp L} {out : StreamOutput L} {e e' : StreamEntry L}

theorem mem_ops_snoc {op' : StreamOp L} (h : op' ∈ history.map Prod.fst) :
    op' ∈ (history ++ [(op, out)]).map Prod.fst := by
  grind

theorem ofNat_succ (n : ℕ) : UInt64.ofNat n + 1 = UInt64.ofNat (n + 1) :=
  (UInt64.ofNat_add n 1).symm

/-- An accepted chunk has the next sequence number. -/
theorem EntryFlow.accepted (h : EntryFlow key e history) {data : Bytes} (after : ℕ)
    (hroom : e.recvBytes + data.length ≤ maxPerStreamBufferCapacity) :
    EntryFlow key
      { e with
        nextRecvSeq := e.nextRecvSeq + 1
        recvBytes := e.recvBytes + data.length
        recvChunks := e.recvChunks ++ [data] }
      (history ++ [(.handleBytes key e.nextRecvSeq data, .bytes (.appended after))]) := by
  have hchunk : acceptedChunk (L := L) key
      (.handleBytes key e.nextRecvSeq data, .bytes (.appended after)) =
        some (e.nextRecvSeq, data) := if_pos rfl
  have hbuffered : (e.recvChunks ++ [data]).flatten = e.buffered ++ data := by
    grind [buffered]
  refine ⟨?_, ?_, ?_, hroom, fun hclosed => mem_ops_snoc (h.closed_of_recvClosed hclosed)⟩
  · rw [accepted_snoc_some hchunk, List.length_append, List.length_singleton, ← ofNat_succ,
      ← h.nextRecvSeq_eq]
  · rw [acceptedBytes_snoc_some hchunk, ← h.buffered_eq, handed_snoc, List.append_assoc,
      List.append_assoc, buffered, hbuffered]
    rfl
  · grind [buffered, recvBytes_eq]

theorem EntryFlow.handed (h : EntryFlow key e history) {bytes : Bytes} {chunks : List Bytes}
    (haccepted : acceptedChunk key (op, out) = none) (hhanded : handedBytes key (op, out) = bytes)
    (hbytes : bytes ++ chunks.flatten = e.recvChunks.flatten) :
    EntryFlow key { e with recvChunks := chunks, recvBytes := e.recvBytes - bytes.length }
      (history ++ [(op, out)]) := by
  have hlength : bytes.length + chunks.flatten.length = e.buffered.length := by
    grind [buffered]
  refine ⟨?_, ?_, ?_, ?_, fun hclosed => mem_ops_snoc (h.closed_of_recvClosed hclosed)⟩
  · rw [accepted_snoc_none haccepted]
    exact h.nextRecvSeq_eq
  · grind [acceptedBytes_snoc_none, buffered_eq, handed_snoc, buffered]
  · grind [recvBytes_eq, buffered]
  · grind [recvBytes_le]

theorem EntryFlow.kept (h : EntryFlow key e history) (hsame : SameBuffer e e')
    (haccepted : acceptedChunk key (op, out) = none) (hhanded : handedBytes key (op, out) = [])
    (hclosed : e'.recvClosed = true → e.recvClosed = true ∨ op = .handleClose key) :
    EntryFlow key e' (history ++ [(op, out)]) := by
  have hbuffered : e'.buffered = e.buffered := by
    rw [buffered, hsame.recvChunks, buffered]
  refine ⟨?_, ?_, ?_, ?_, fun hclosed' => ?_⟩
  · rw [accepted_snoc_none haccepted, hsame.nextRecvSeq]
    exact h.nextRecvSeq_eq
  · rw [acceptedBytes_snoc_none haccepted, handed_snoc, hhanded, List.append_nil, hbuffered]
    exact h.buffered_eq
  · rw [hsame.recvBytes, hbuffered]
    exact h.recvBytes_eq
  · rw [hsame.recvBytes]
    exact h.recvBytes_le
  · rcases hclosed hclosed' with hbefore | rfl
    · exact mem_ops_snoc (h.closed_of_recvClosed hbefore)
    · simp

end Step

theorem entryFlow_opened
    {op : StreamOp L} (out : StreamOutput L) {service : String} {consumer : StreamConsumer}
    (hop : op = .openStream key service consumer) (haccepted : accepted key history = [])
    (hhanded : handed key history = []) :
    EntryFlow key (.fresh consumer) (history ++ [(op, out)]) := by
  subst hop
  have hnone : accepted key (history ++ [(.openStream key service consumer, out)]) = [] := by
    rw [accepted_snoc_none rfl, haccepted]
  refine ⟨?_, ?_, rfl, Nat.zero_le _, fun hclosed => (nomatch hclosed)⟩
  · rw [hnone]
    rfl
  · rw [acceptedBytes, hnone, handed_snoc, hhanded]
    rfl

/-- The sequence numbers of the accepted chunks are consecutive. -/
theorem sequence_snoc {step : StreamOp L × StreamOutput L} {data : Bytes}
    (h : (accepted key history).map Prod.fst =
      (List.range (accepted key history).length).map UInt64.ofNat)
    (hchunk : acceptedChunk key step = some (UInt64.ofNat (accepted key history).length, data)) :
    (accepted key (history ++ [step])).map Prod.fst =
      (List.range (accepted key (history ++ [step])).length).map UInt64.ofNat := by
  rw [accepted_snoc_some hchunk, List.length_append, List.length_singleton, List.range_succ,
    List.map_append, List.map_append, h]
  rfl

/-- **One step** keeps the flow of every stream. -/
theorem StreamFlow.step {m : StreamManager L} (h : StreamFlow key m history) (op : StreamOp L) :
    StreamFlow key (streamStep m op).1 (history ++ [(op, (streamStep m op).2)]) := by
  have hchange := streamStep_change m key op
  have hremoved : ∀ e, m.streams.get? key = some e → Removes key e op →
      Gone (streamStep m op).1 key := fun e => gone_of_removed
  have hgone : Gone m key → Gone (streamStep m op).1 key := fun hgone => hgone.step op
  -- what a step without an accepted chunk keeps, however its bytes are handed on
  have hquiet : ∀ out, acceptedChunk key (op, out) = none →
      ((accepted key (history ++ [(op, out)])).map Prod.fst =
        (List.range (accepted key (history ++ [(op, out)])).length).map UInt64.ofNat) := by
    grind [accepted_snoc_none, sequence]
  have hextends : ∀ out, acceptedChunk key (op, out) = none → handedBytes key (op, out) = [] →
      handed key (history ++ [(op, out)]) <+: acceptedBytes key (history ++ [(op, out)]) := by
    grind [acceptedBytes_snoc_none, handed_snoc, handed_prefix]
  generalize hbefore : m.streams.get? key = before at hchange hremoved
  generalize hafter : (streamStep m op).1.streams.get? key = after at hchange
  generalize (streamStep m op).2 = out at hchange
  have hentry := h.entry
  have habsent := h.absent
  rw [hbefore] at hentry habsent
  cases hchange with
  | rest haccepted hhanded =>
    refine ⟨hquiet out haccepted, hextends out haccepted hhanded, fun e he => ?_, fun hnone => ?_⟩
    · rw [hafter] at he
      exact (hentry e he).kept ⟨rfl, rfl, rfl, rfl, id⟩ haccepted hhanded .inl
    · grind [accepted_snoc_none, handed_snoc]
  -- a stream is opened once only, so nothing was accepted before
  | @opened service consumer hop =>
    rcases habsent rfl with ⟨hempty, hnothing⟩ | hg
    · have hflow := entryFlow_opened out hop hempty hnothing
      have haccepted : acceptedChunk key (op, out) = none := by rw [hop]; rfl
      have hhanded : handedBytes key (op, out) = [] := by rw [hop]; rfl
      refine ⟨hquiet out haccepted, hextends out haccepted hhanded, fun e he => ?_, fun hnone => ?_⟩
      · simp_all
      · rw [hafter] at hnone
        cases hnone
    · grind [Gone]
  | @accepted e data after' hop hout _ _ hroom =>
    have hflow := (hentry e rfl).accepted after' hroom
    have hchunk : acceptedChunk key (op, out) =
        some (UInt64.ofNat (accepted key history).length, data) := by
      rw [hop, hout, ← (hentry e rfl).nextRecvSeq_eq]
      exact if_pos rfl
    rw [← hop, ← hout] at hflow
    -- the buffer is what is left of the accepted bytes after the handed ones
    refine ⟨sequence_snoc h.sequence hchunk, ⟨_, hflow.buffered_eq⟩, fun e he => ?_,
      fun hnone => ?_⟩
    · simp_all
    · rw [hafter] at hnone
      cases hnone
  | @handed e bytes chunks haccepted hhanded hbytes _ =>
    have hflow := (hentry e rfl).handed haccepted hhanded hbytes
    refine ⟨hquiet out haccepted, ⟨_, hflow.buffered_eq⟩, fun e he => ?_, fun hnone => ?_⟩
    · simp_all
    · rw [hafter] at hnone
      cases hnone
  | @kept e e' haccepted hhanded hsame hclosed =>
    refine ⟨hquiet out haccepted, hextends out haccepted hhanded, fun e he => ?_, fun hnone => ?_⟩
    · rw [hafter] at he
      obtain rfl := Option.some.inj he
      exact (hentry _ rfl).kept hsame haccepted hhanded hclosed
    · rw [hafter] at hnone
      cases hnone
  | @removed e haccepted hhanded hremoves =>
    refine ⟨hquiet out haccepted, hextends out haccepted hhanded, fun e he => ?_, fun _ => ?_⟩
    · rw [hafter] at he
      cases he
    · exact .inr (hremoved e rfl hremoves)

/-- **Every run** keeps the flow of every stream. -/
theorem streamFlow_run (key : StreamKey) (ops : List (StreamOp L)) :
    StreamFlow key (streamMachine.run ops) (streamMachine.transcript ops) := by
  refine streamMachine.transcript_always
    (I := fun m history => StreamFlow key m history) (streamFlow_start key) ?_ ops
  intro m history op h
  exact h.step op

/-! ## Integrity -/

/-- **A stream is intact**: the buffer's counter is right and bounded, the accepted chunks have the
sequence numbers 0, 1, 2, …, the consumer was handed a front of their bytes, and a reader is told
the end only after the receive side was closed and all bytes were handed out. -/
structure StreamIntegrity (key : StreamKey) (m : StreamManager L)
    (history : List (StreamOp L × StreamOutput L)) : Prop where
  buffer : ∀ e, m.streams.get? key = some e →
    e.recvBytes = (e.recvChunks.map List.length).sum ∧ e.recvBytes ≤ maxPerStreamBufferCapacity
  sequence : (accepted key history).map Prod.fst =
    (List.range (accepted key history).length).map UInt64.ofNat
  handed_prefix : handed key history <+: acceptedBytes key history
  complete_of_end : ∀ bufLen, 0 < bufLen → (m.receive key bufLen).2 = .returned (.ok []) →
    .handleClose key ∈ history.map Prod.fst ∧ handed key history = acceptedBytes key history

/-- A reader with room that gets nothing finds an empty buffer and the receive side closed. -/
theorem receive_eq_nil {m : StreamManager L} {bufLen : ℕ} (hpos : 0 < bufLen)
    (h : (m.receive key bufLen).2 = .returned (.ok [])) :
    ∃ e, m.streams.get? key = some e ∧ e.recvClosed = true ∧ e.buffered = [] := by
  rw [StreamManager.receive] at h
  split at h
  · cases h
  · rename_i e he
    split_ifs at h with hevent
    · cases h
    have hlength := length_takeFront bufLen e.recvChunks
    generalize takeFront bufLen e.recvChunks = taken at hlength h
    obtain ⟨filled, chunks⟩ := taken
    dsimp only at hlength h
    split_ifs at h with hfilled hclosed
    · obtain rfl := Except.ok.inj (ReceiveLook.returned.inj h)
      cases hfilled
    -- there was room for a byte, and none was taken
    · refine ⟨e, he, hclosed, List.length_eq_zero_iff.mp ?_⟩
      rw [StreamEntry.buffered]
      omega

/-- **Streams keep their bytes**: for every run of a manager, with all operations on all streams in
any order, every stream is intact. -/
theorem stream_integrity (key : StreamKey) (ops : List (StreamOp L)) :
    StreamIntegrity key (streamMachine.run ops) (streamMachine.transcript ops) := by
  have hflow := streamFlow_run key ops
  refine ⟨fun e he => ?_, hflow.sequence, hflow.handed_prefix, fun bufLen hpos hend => ?_⟩
  · have hentry := hflow.entry e he
    rw [← List.length_flatten]
    exact ⟨hentry.recvBytes_eq, hentry.recvBytes_le⟩
  · obtain ⟨e, he, hclosed, hempty⟩ := receive_eq_nil hpos hend
    have hentry := hflow.entry e he
    refine ⟨hentry.closed_of_recvClosed hclosed, ?_⟩
    rw [← hentry.buffered_eq, hempty, List.append_nil]

end SshMobile.Stream
