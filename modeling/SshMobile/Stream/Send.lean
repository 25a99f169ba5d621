import SshMobile.Stream.Integrity

/-!
# Sending on a framed route

A sender cuts its data into chunks, puts every chunk in a `StreamBytes` frame and hands the frame to
the carrier. The chunks have up to 64 KiB, while a generic route takes frames of up to 48 KiB with
all headers: the carrier refuses the first chunk of longer data, and the sender gives up.

The receiver handles the frames in order. It may have to wait for room in its buffer, and its
consumer reads meanwhile.

## Main definitions

* `sendChunks`: the loop of `send_stream_with_opener` over the chunks, on a generic route
* `receiveFrame`: a frame as the receiver decodes it
* `Carried`: data arrives on the receiver's stream as it was sent

## Main results

* `carried_iff`: data is carried exactly when it fits one frame with all headers
* `long_chunk_refused`: data that is not carried
-/

namespace SshMobile.Stream

open Library Connection

variable {L : Type}

/-! ## The sender -/

/-- The frames that the carrier has taken, and the result of the loop. -/
def sendChunks (openerPeerId : String) (streamId : UInt16) :
    UInt64 → List Bytes → List Bytes × Except StreamError Unit
  | _, [] => ([], .ok ())
  | seq, chunk :: chunks =>
    match encodeStreamBytesFrame openerPeerId streamId seq chunk with
    | .error error => ([], .error error)
    | .ok payload =>
      match encodeGenericFrame .streamBytes payload with
      | .error error => ([], .error (.send error.message))
      | .ok encoded =>
        let rest := sendChunks openerPeerId streamId (seq + 1) chunks
        (encoded :: rest.1, rest.2)

/-- The data of a send on a generic route, from the sequence number `seq` on. -/
def sendData (openerPeerId : String) (streamId : UInt16) (seq : UInt64) (data : Bytes) :
    List Bytes × Except StreamError Unit :=
  sendChunks openerPeerId streamId seq (chunksOf maxStreamFrameBytes data)

/-! ## The receiver -/

/-- A `StreamBytes` frame as the receiver decodes it. -/
def receiveFrame (encoded : Bytes) : Option (String × UInt16 × UInt64 × Bytes) :=
  match decodeGenericFrame encoded with
  | .error _ => none
  | .ok (kind, payload) =>
    if kind ≠ .streamBytes then none else (decodeStreamBytesFrame payload).toOption

/-- The operations of a stream's receiver and its consumer. -/
def ReceiverOp (key : StreamKey) : StreamOp L → Prop
  | .handleBytes k _ _ | .receive k _ | .drainEvents k => k = key
  | .openStream _ _ _ | .bindLease _ _ | .takeLease _ | .restoreLease _ _ => False
  | .bumpSendSeq _ _ => False
  | .handleClose _ | .closeLocal _ | .closeAll _ | .closeInactive _ _ => False

/-- The frame whose handling a step has finished. -/
def finishedBytes : StreamOp L × StreamOutput L → Option (UInt64 × Bytes)
  | (.handleBytes _ seq data, .bytes (.appended _)) => some (seq, data)
  | (.handleBytes _ seq data, .bytes (.returned _)) => some (seq, data)
  | _ => none

/-- The stream is open in both directions and waits for the sequence number `seq`. -/
def Awaits (key : StreamKey) (seq : UInt64) (m : StreamManager L) : Prop :=
  ∃ e, m.streams.get? key = some e ∧ e.recvClosed = false ∧ e.sendClosed = false ∧
    e.nextRecvSeq = seq

/-- **A run handles the frames**: the receiver finishes them in order, and the consumer reads as it
likes. -/
def Handles (key : StreamKey) (m : StreamManager L) (frames : List (UInt64 × Bytes))
    (ops : List (StreamOp L)) : Prop :=
  (∀ op ∈ ops, ReceiverOp key op) ∧
    (streamMachine.transcriptFrom m ops).filterMap finishedBytes = frames

/-- **Data is carried**: the carrier takes all of its frames, they decode to the stream's identity
and the chunks of the data, and a receiver that waits for the first of them can handle them, and
when it has, exactly the data was added to its stream. -/
structure Carried (L : Type) (openerPeerId : String) (key : StreamKey) (seq : UInt64)
    (data : Bytes) : Prop where
  sent : (sendData openerPeerId key.streamId seq data).2 = .ok ()
  decoded : ∃ frames : List (UInt64 × Bytes),
    (sendData openerPeerId key.streamId seq data).1.map receiveFrame =
        frames.map (fun frame => some (openerPeerId, key.streamId, frame.1, frame.2)) ∧
      ∀ before : List (StreamOp L), Awaits key seq (streamMachine.run before) →
        (∃ ops, Handles key (streamMachine.run before) frames ops) ∧
        ∀ ops, Handles key (streamMachine.run before) frames ops →
          acceptedBytes key (streamMachine.transcriptFrom (streamMachine.run before) ops) = data

/-! ## Handling frames -/

open StreamManager

section Receiver

variable {key : StreamKey} {m : StreamManager L}

variable {seq : UInt64}

/-- **The awaited frame** is put in the buffer, or has to wait. -/
theorem handleBytes_of_awaits (h : Awaits key seq m) (data : Bytes) :
    (∃ after, (m.handleBytes key seq data).2 = .appended after ∧
        Awaits key (seq + 1) (m.handleBytes key seq data).1) ∨
      m.handleBytes key seq data = (m, .wait) := by
  obtain ⟨e, he, hrecv, hsend, rfl⟩ := h
  rw [handleBytes, he]
  dsimp only
  rw [hrecv, hsend, Bool.or_false, if_neg (by decide), if_neg (not_not.mpr rfl)]
  split_ifs with hroom
  · exact .inl ⟨_, rfl, _, get?_put_self m key _, rfl, rfl, rfl⟩
  · exact .inr rfl

/-- The consumer does not touch the sequence number. -/
theorem Awaits.consume (h : Awaits key seq m) {op : StreamOp L} (hop : ReceiverOp key op)
    (hbytes : ∀ k s data, op ≠ .handleBytes k s data) : Awaits key seq (streamStep m op).1 := by
  obtain ⟨e, he, hrecv, hsend, rfl⟩ := h
  cases op with
  | receive k bufLen =>
    obtain rfl : k = key := hop
    grind [streamStep, receive, get?_put_self, Awaits]
  | drainEvents k =>
    grind [streamStep, drainEvents, get?_put_self, Awaits, ReceiverOp]
  | handleBytes k s data => exact absurd rfl (hbytes k s data)
  | _ => exact hop.elim

/-- A frame with another sequence number is not put in the buffer, and does not wait. -/
theorem handleBytes_of_ne {s : UInt64} (h : Awaits key seq m) (hne : s ≠ seq) (data : Bytes) :
    ∃ result, (m.handleBytes key s data).2 = .returned result := by
  obtain ⟨e, he, hrecv, hsend, rfl⟩ := h
  rw [handleBytes, he]
  dsimp only
  rw [hrecv, hsend, Bool.or_false, if_neg (by decide), if_pos hne]
  split_ifs
  · exact ⟨_, rfl⟩
  · exact ⟨_, rfl⟩

/-- The frames have the sequence numbers from `seq` on. -/
def Consecutive : UInt64 → List (UInt64 × Bytes) → Prop
  | _, [] => True
  | seq, frame :: frames => frame.1 = seq ∧ Consecutive (seq + 1) frames

/-- **Handled frames are accepted**, all of them and in order. -/
theorem accepted_of_handles {frames : List (UInt64 × Bytes)} {ops : List (StreamOp L)}
    (h : Awaits key seq m) (hframes : Consecutive seq frames) (hops : Handles key m frames ops) :
    accepted key (streamMachine.transcriptFrom m ops) = frames := by
  obtain ⟨hreceiver, hfinished⟩ := hops
  -- along the operations: the manager awaits the number of the first frame that is left
  induction ops generalizing m seq frames with
  | nil =>
    rw [← hfinished]
    rfl
  | cons op ops ih =>
    have hop := hreceiver op List.mem_cons_self
    have hrest : ∀ op ∈ ops, ReceiverOp key op := fun op hmem =>
      hreceiver op (List.mem_cons_of_mem _ hmem)
    rw [Machine.transcriptFrom] at hfinished ⊢
    by_cases hbytes : ∃ k s data, op = .handleBytes k s data
    · obtain ⟨k, s, data, rfl⟩ := hbytes
      -- only the frames of this stream are handled in these operations
      obtain rfl : k = key := hop
      by_cases hs : s = seq
      · subst hs
        rcases handleBytes_of_awaits h data with ⟨after, hlook, hnext⟩ | hwait
        · have hstep : (streamMachine.step m (.handleBytes k s data)).2 =
              .bytes (.appended after) := congrArg StreamOutput.bytes hlook
          have hfirst : finishedBytes (L := L) (.handleBytes k s data, .bytes (.appended after)) =
              some (s, data) := rfl
          rw [hstep] at hfinished ⊢
          rw [List.filterMap_cons_some hfirst] at hfinished
          subst hfinished
          have hchunk : acceptedChunk (L := L) k
              (.handleBytes k s data, .bytes (.appended after)) = some (s, data) := if_pos rfl
          rw [accepted, List.filterMap_cons_some hchunk]
          exact congrArg _ (ih hnext hframes.2 hrest rfl)
        · have hstep : streamMachine.step m (.handleBytes k s data) = (m, .bytes .wait) :=
            congrArg (Prod.map id StreamOutput.bytes) hwait
          rw [hstep] at hfinished ⊢
          exact ih h hframes hrest hfinished
      · -- a frame with another number would be finished, but it is not the next one
        obtain ⟨result, hlook⟩ := handleBytes_of_ne h hs data
        have hstep : (streamMachine.step m (.handleBytes k s data)).2 =
            .bytes (.returned result) := congrArg StreamOutput.bytes hlook
        grind [finishedBytes, Consecutive]
    · have hconsume : ∀ k s data, op ≠ .handleBytes k s data := fun k s data heq =>
        hbytes ⟨k, s, data, heq⟩
      have hnone : ∀ out, finishedBytes (op, out) = none ∧ acceptedChunk key (op, out) = none := by
        intro out
        cases op with
        | handleBytes k s data => exact absurd rfl (hconsume k s data)
        | _ => exact ⟨rfl, rfl⟩
      rw [List.filterMap_cons_none (hnone _).1] at hfinished
      rw [accepted, List.filterMap_cons_none (hnone _).2]
      exact ih (h.consume hop hconsume) hframes hrest hfinished

/-- The consumer can empty the buffer. -/
theorem exists_drains {e : StreamEntry L} (he : m.streams.get? key = some e)
    (hcount : e.recvBytes = e.buffered.length) :
    ∃ ops : List (StreamOp L), (∀ op ∈ ops, op = .drainEvents key) ∧
      (streamMachine.runFrom m ops).streams.get? key =
        some { e with recvChunks := [], recvBytes := 0 } := by
  obtain ⟨consumer, chunks, bytes, recvClosed, nextRecvSeq, nextSendSeq, sendClosed, lease⟩ := e
  induction chunks generalizing m bytes with
  | nil =>
    obtain rfl : bytes = 0 := hcount
    exact ⟨[], fun op h => (nomatch h), he⟩
  | cons chunk chunks ih =>
    have hlength : bytes - chunk.length = chunks.flatten.length := by
      have hsum : bytes = (chunk ++ chunks.flatten).length := hcount
      rw [List.length_append] at hsum
      omega
    have hstep : (streamStep m (.drainEvents key)).1 = m.put key
        ⟨consumer, chunks, bytes - chunk.length, recvClosed, nextRecvSeq, nextSendSeq, sendClosed,
          lease⟩ := by
      grind [streamStep, drainEvents]
    have hget : (streamStep m (.drainEvents key)).1.streams.get? key = some
        ⟨consumer, chunks, bytes - chunk.length, recvClosed, nextRecvSeq, nextSendSeq, sendClosed,
          lease⟩ := by
      rw [hstep, get?_put_self]
    obtain ⟨ops, hops, hrun⟩ := ih _ hget hlength
    refine ⟨.drainEvents key :: ops, fun op hop => ?_, hrun⟩
    grind

theorem finished_drains {ops : List (StreamOp L)} (hops : ∀ op ∈ ops, op = .drainEvents key) :
    (streamMachine.transcriptFrom m ops).filterMap finishedBytes = [] := by
  induction ops generalizing m with
  | nil => rfl
  | cons op ops ih =>
    obtain rfl := hops op List.mem_cons_self
    rw [Machine.transcriptFrom, List.filterMap_cons_none rfl]
    grind

/-- **A frame can be handled** once the consumer has made room. -/
theorem exists_handles {e : StreamEntry L} (he : m.streams.get? key = some e)
    (hrecv : e.recvClosed = false) (hsend : e.sendClosed = false)
    (hcount : e.recvBytes = e.buffered.length) {data : Bytes}
    (hfits : data.length ≤ maxPerStreamBufferCapacity) :
    ∃ ops, Handles key m [(e.nextRecvSeq, data)] ops := by
  obtain ⟨ops, hops, hempty⟩ := exists_drains he hcount
  refine ⟨ops ++ [.handleBytes key e.nextRecvSeq data], fun op hop => ?_, ?_⟩
  · grind [ReceiverOp]
  · have hlook : (streamMachine.step (streamMachine.runFrom m ops)
        (.handleBytes key e.nextRecvSeq data)).2 = .bytes (.appended (0 + data.length)) := by
      simp only [streamMachine, streamStep, handleBytes, Prod.map_snd] at hempty ⊢
      rw [hempty]
      dsimp only
      rw [hrecv, hsend, Bool.or_false, if_neg (by decide), if_neg (not_not.mpr rfl),
        if_pos (by omega)]
    rw [Machine.transcriptFrom_snoc, List.filterMap_append, finished_drains hops, hlook]
    rfl

end Receiver

/-! ## What fits -/

variable {openerPeerId : String}

section

variable (hopener : validatePeer openerPeerId = true)

include hopener

/-- The opener of a valid peer can be encoded. -/
theorem appendStreamOpener_valid :
    appendStreamOpener openerPeerId =
      .ok (UInt8.ofNat openerPeerId.utf8ByteSize :: utf8 openerPeerId) := by
  have hvalid : (openerPeerId.isEmpty || decide (128 < openerPeerId.utf8ByteSize)) = false := by
    rw [validatePeer, Bool.and_eq_true, decide_eq_true_eq] at hopener
    rw [Bool.or_eq_false_iff, decide_eq_false_iff_not]
    exact ⟨by simpa using hopener.1, by omega⟩
  rw [appendStreamOpener, hvalid, if_neg (by decide)]

theorem encodeStreamCloseFrame_ok (streamId : UInt16) :
    ∃ payload, encodeStreamCloseFrame openerPeerId streamId = .ok payload := by
  rw [encodeStreamCloseFrame, appendStreamOpener_valid hopener]
  exact ⟨_, rfl⟩

theorem encodeStreamBytesFrame_ok (streamId : UInt16) (seq : UInt64) {data : Bytes}
    (hdata : data ≠ []) :
    ∃ payload, encodeStreamBytesFrame openerPeerId streamId seq data = .ok payload ∧
      payload.length = openerPeerId.utf8ByteSize + streamGenericBytesHeaderBytes + data.length := by
  rw [encodeStreamBytesFrame, if_neg (by simpa using hdata), appendStreamOpener_valid hopener]
  refine ⟨_, rfl, ?_⟩
  grind [length_utf8, length_beBytes, streamGenericBytesHeaderBytes]

end

/-- The bytes of the headers around the data of a frame, the opener apart. -/
def framingBytes : ℕ := streamGenericBytesHeaderBytes + genericFrameHeaderBytes

/-- **A chunk goes through** exactly when it fits the frame with all headers. -/
theorem sendChunks_cons (hopener : validatePeer openerPeerId = true) (streamId : UInt16)
    (seq : UInt64) {chunk : Bytes} (hchunk : chunk ≠ []) (chunks : List Bytes) :
    if chunk.length + openerPeerId.utf8ByteSize + framingBytes ≤ maxChannelFrameBytes then
      ∃ encoded, receiveFrame encoded = some (openerPeerId, streamId, seq, chunk) ∧
        sendChunks openerPeerId streamId seq (chunk :: chunks) =
          (encoded :: (sendChunks openerPeerId streamId (seq + 1) chunks).1,
            (sendChunks openerPeerId streamId (seq + 1) chunks).2)
    else sendChunks openerPeerId streamId seq (chunk :: chunks) =
      ([], .error (.send ConnectionError.frameTooLarge.message)) := by
  obtain ⟨payload, hpayload, hlength⟩ := encodeStreamBytesFrame_ok hopener streamId seq hchunk
  rw [framingBytes]
  split_ifs with hfits
  · have hne : payload ≠ [] := by
      grind [streamGenericBytesHeaderBytes]
    have hencoded : encodeGenericFrame .streamBytes payload =
        .ok (genericFrame .streamBytes payload) :=
      encodeGenericFrame_ok.mpr ⟨hne, by omega, rfl⟩
    have hshort : payload.length < 2 ^ 32 := by
      rw [maxChannelFrameBytes] at hfits
      omega
    have hvalid := StreamFrame.valid_of_encode (.streamBytes seq chunk) hshort hpayload
    refine ⟨genericFrame .streamBytes payload, ?_, ?_⟩
    · rw [receiveFrame, decodeGenericFrame_encode hencoded]
      dsimp only
      rw [if_neg (not_not.mpr rfl), decodeStreamBytesFrame_iff.mpr ⟨hvalid, hpayload⟩]
      rfl
    · grind [sendChunks]
  -- the frame is refused by its size, before anything is sent
  · have hrefused : encodeGenericFrame .streamBytes payload = .error .frameTooLarge := by
      rw [encodeGenericFrame, if_pos]
      grind
    grind [sendChunks]

/-- **Longer data is refused** with its first chunk. -/
theorem sendData_refused (hopener : validatePeer openerPeerId = true) (streamId : UInt16)
    (seq : UInt64) {data : Bytes}
    (hlong : maxChannelFrameBytes < data.length + openerPeerId.utf8ByteSize + framingBytes) :
    sendData openerPeerId streamId seq data =
      ([], .error (.send ConnectionError.frameTooLarge.message)) := by
  have hsize : openerPeerId.utf8ByteSize ≤ 128 := by
    grind [validatePeer]
  rw [framingBytes, streamGenericBytesHeaderBytes, genericFrameHeaderBytes,
    maxChannelFrameBytes] at hlong
  have hdata : data ≠ [] := by
    grind
  have hne : data.take maxStreamFrameBytes ≠ [] := by
    rw [Ne, List.take_eq_nil_iff, not_or]
    exact ⟨by decide, hdata⟩
  have hchunk := sendChunks_cons hopener streamId seq hne
    (chunksOf maxStreamFrameBytes (data.drop maxStreamFrameBytes))
  rw [← chunksOf_of_ne_nil (by decide) hdata, if_neg] at hchunk
  · exact hchunk
  · rw [List.length_take, framingBytes, streamGenericBytesHeaderBytes, genericFrameHeaderBytes,
      maxChannelFrameBytes, maxStreamFrameBytes]
    omega

/-- **Data on a generic route**: it is carried exactly when it fits one frame with all headers. -/
theorem carried_iff (openerPeerId : String) (hopener : validatePeer openerPeerId = true)
    (key : StreamKey) (seq : UInt64) (data : Bytes) (hdata : data ≠ []) :
    Carried L openerPeerId key seq data ↔
      data.length + openerPeerId.utf8ByteSize + framingBytes ≤ maxChannelFrameBytes := by
  constructor
  · intro hcarried
    by_contra hlong
    have hsent := hcarried.sent
    rw [sendData_refused hopener key.streamId seq (Nat.lt_of_not_le hlong)] at hsent
    cases hsent
  · intro hfits
    have hshort : data.length ≤ maxStreamFrameBytes := by
      grind [maxChannelFrameBytes, maxStreamFrameBytes]
    have hchunk := sendChunks_cons hopener key.streamId seq hdata []
    rw [if_pos hfits] at hchunk
    obtain ⟨encoded, hreceive, hsend⟩ := hchunk
    have hdataSent : sendData openerPeerId key.streamId seq data = ([encoded], .ok ()) := by
      rw [sendData, chunksOf_of_le hdata hshort, hsend]
      rfl
    refine ⟨by rw [hdataSent], [(seq, data)], ?_, fun before hawaits => ⟨?_, fun ops hops => ?_⟩⟩
    · simp_all
    -- the consumer can always make room: the chunk is smaller than the buffer
    · obtain ⟨e, he, hrecv, hopen, rfl⟩ := hawaits
      have hentry := (streamFlow_run key before).entry e he
      refine exists_handles he hrecv hopen hentry.recvBytes_eq (hshort.trans ?_)
      decide
    · have hnumbers : Consecutive seq [(seq, data)] := ⟨rfl, trivial⟩
      grind [acceptedBytes, accepted_of_handles]

theorem carried_iff_hello :
    Carried Unit "peer-a" ⟨.remote, 1⟩ 0 [104, 105] ↔
      [104, 105].length + "peer-a".utf8ByteSize + framingBytes ≤ maxChannelFrameBytes :=
  carried_iff "peer-a" (by decide) ⟨.remote, 1⟩ 0 [104, 105] (by decide)

/-- **A full chunk is refused**: the first 64 KiB of a send do not fit the route's frame. -/
theorem long_chunk_refused :
    sendData "peer-a" 1 0 (List.replicate (64 * 1024) 0) =
      ([], .error (.send "generic route frame is too large")) := by
  refine sendData_refused (by decide) 1 0 ?_
  rw [List.length_replicate]
  decide

end SshMobile.Stream
