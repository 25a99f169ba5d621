import SshMobile.Library.Chunks
import SshMobile.Library.Machine
import SshMobile.Library.Table
import SshMobile.Stream.Codec

/-!
# The stream manager

The byte streams of one peer: a bounded receive buffer and two closing marks for each stream, and
the identities of the streams that are gone. Every function here is what its source does under the
manager's lock, in one piece. A call that waits for another caller gives up the lock, waits and
looks again: its model is one look, which says `wait` when the call has to wait.

A path lease is a handle that the manager only stores, so its type is a parameter `L`; whether a
lease is still active is asked of the caller. QUIC send halves, and the counters that wake waiting
callers, are not modelled.

## Main definitions

* `StreamEntry`, `StreamManager`: the state of a stream, and of all streams of a peer
* `StreamManager.handleBytes`, `StreamManager.receive`, `StreamManager.drainEvents`: the buffer
* `StreamManager.handleClose`, `StreamManager.closeLocal`: the two halves of a stream
* `StreamManager.closeAll`, `StreamManager.closeInactive`: the sweeps over all streams
* `StreamOp`, `streamStep`, `streamMachine`: the runs of a manager

## Main results

* `streamStep_change`: what one step can do to a stream
* `streamStep_moves`: what one step can do to a manager
* `Gone.step`: a stream that is gone does not come back
-/

namespace SshMobile.Stream

open Library

variable {L : Type}

/-! ## State -/

def maxStreamFrameBytes : ℕ := 64 * 1024

def maxPerStreamBufferCapacity : ℕ := 256 * 1024

def maxConcurrentStreams : ℕ := 32

def maxRetiredStreamKeys : ℕ := 131072

inductive StreamConsumer
  | event
  | bridge
  | poll
deriving DecidableEq

inductive StreamOpener
  | local
  | remote
deriving DecidableEq

structure StreamKey where
  opener : StreamOpener
  streamId : UInt16
deriving DecidableEq

structure StreamEntry (L : Type) where
  consumer : StreamConsumer
  recvChunks : List Bytes
  recvBytes : ℕ
  recvClosed : Bool
  nextRecvSeq : UInt64
  nextSendSeq : UInt64
  sendClosed : Bool
  pathLease : Option L

structure StreamManager (L : Type) where
  streams : Table StreamKey (StreamEntry L)
  retired : Finset StreamKey

def StreamManager.new : StreamManager L := ⟨∅, ∅⟩

/-- The entry of a stream that was just opened. -/
def StreamEntry.fresh (consumer : StreamConsumer) : StreamEntry L where
  consumer := consumer
  recvChunks := []
  recvBytes := 0
  recvClosed := false
  nextRecvSeq := 0
  nextSendSeq := 0
  sendClosed := false
  pathLease := none

/-- The bytes in the receive buffer. -/
def StreamEntry.buffered (entry : StreamEntry L) : Bytes := entry.recvChunks.flatten

def validatePeer (peerId : String) : Bool :=
  !peerId.isEmpty && decide (peerId.utf8ByteSize ≤ 128)

/-! ## Looks -/

/-- One look of `handle_bytes`: it returns, or the bytes are in the buffer, which then holds
`after` bytes, or it has to wait for room. -/
inductive BytesLook
  | returned (result : Except StreamError Unit)
  | appended (after : ℕ)
  | wait

/-- One look of `drain_events`: a chunk goes out as an event, or the stream has ended, or its entry
is gone, or the drainer has to wait. -/
inductive DrainLook
  | data (chunk : Bytes)
  | closed
  | gone
  | wait

/-- One look of `receive`: it returns the bytes that it has put in the caller's buffer, or an error,
or has to wait. -/
inductive ReceiveLook
  | returned (result : Except StreamError Bytes)
  | wait

namespace StreamManager

def put (m : StreamManager L) (key : StreamKey) (entry : StreamEntry L) : StreamManager L :=
  { m with streams := m.streams.insert key entry }

/-- Removal of a stream whose two halves are closed; its identity is not used again. -/
def retire (m : StreamManager L) (key : StreamKey) : StreamManager L where
  streams := m.streams.erase key
  -- a full set takes no further key; `openStream` then refuses every stream
  retired := if m.retired.card < maxRetiredStreamKeys then insert key m.retired else m.retired

/-! ## Opening and leases -/

/-- `open`. -/
def openStream (m : StreamManager L) (key : StreamKey) (service : String)
    (consumer : StreamConsumer) : StreamManager L × Except StreamError Unit :=
  if service.isEmpty || decide (maxServiceBytes < service.utf8ByteSize) then
    (m, .error .invalidArgument)
  else if maxConcurrentStreams ≤ m.streams.size then (m, .error .capacityExceeded)
  else if m.streams.contains key then (m, .error .alreadyOpen)
  else if key ∈ m.retired then (m, .error .closed)
  -- identities could no longer be told from used ones
  else if maxRetiredStreamKeys ≤ m.retired.card then (m, .error .capacityExceeded)
  else (m.put key (.fresh consumer), .ok ())

def bindLease (m : StreamManager L) (key : StreamKey) (lease : L) :
    StreamManager L × Except StreamError Unit :=
  match m.streams.get? key with
  | none => (m, .error .notFound)
  | some entry =>
    if entry.pathLease.isSome then (m, .error .alreadyOpen)
    else (m.put key { entry with pathLease := some lease }, .ok ())

def takeLease (m : StreamManager L) (key : StreamKey) : StreamManager L × Except StreamError L :=
  match m.streams.get? key with
  | none => (m, .error .notFound)
  | some entry =>
    if entry.sendClosed then (m, .error .closed)
    else
      match entry.pathLease with
      | none => (m, .error .notConnected)
      | some lease => (m.put key { entry with pathLease := none }, .ok lease)

def restoreLease (m : StreamManager L) (key : StreamKey) (lease : L) : StreamManager L × Bool :=
  match m.streams.get? key with
  | none => (m, false)
  | some entry =>
    -- a stream that the peer has closed meanwhile does not get its lease back
    if entry.recvClosed || entry.pathLease.isSome then (m, false)
    else (m.put key { entry with pathLease := some lease }, true)

/-! ## Sending -/

/-- The check before a sender waits for its turn on the stream. -/
def sendGuard (m : StreamManager L) (key : StreamKey) : Except StreamError Unit :=
  match m.streams.get? key with
  | none => .error .notFound
  | some entry => if entry.sendClosed then .error .closed else .ok ()

def nextSendSeq (m : StreamManager L) (key : StreamKey) : Except StreamError UInt64 :=
  match m.streams.get? key with
  | none => .error .notFound
  | some entry => if entry.sendClosed then .error .closed else .ok entry.nextSendSeq

def bumpSendSeq (m : StreamManager L) (key : StreamKey) (count : UInt64) :
    StreamManager L × Except StreamError Unit :=
  match m.streams.get? key with
  | none => (m, .error .notFound)
  | some entry =>
    if entry.sendClosed then (m, .error .closed)
    else (m.put key { entry with nextSendSeq := entry.nextSendSeq + count }, .ok ())

/-! ## The receive buffer -/

/-- The first phase of `handle_bytes`. -/
def handleBytes (m : StreamManager L) (key : StreamKey) (seq : UInt64) (data : Bytes) :
    StreamManager L × BytesLook :=
  match m.streams.get? key with
  | none => (m, .returned (.error .notFound))
  | some entry =>
    -- a late packet that races the close is dropped
    if entry.recvClosed || entry.sendClosed then (m, .returned (.ok ()))
    else if seq ≠ entry.nextRecvSeq then
      -- a duplicate is dropped, a gap is an error
      if seq < entry.nextRecvSeq then (m, .returned (.ok ()))
      else (m, .returned (.error .invalidFrame))
    else if entry.recvBytes + data.length ≤ maxPerStreamBufferCapacity then
      (m.put key { entry with
        nextRecvSeq := entry.nextRecvSeq + 1
        recvBytes := entry.recvBytes + data.length
        recvChunks := entry.recvChunks ++ [data] }, .appended (entry.recvBytes + data.length))
    else (m, .wait)

def drainEvents (m : StreamManager L) (key : StreamKey) : StreamManager L × DrainLook :=
  match m.streams.get? key with
  | none => (m, .gone)
  | some entry =>
    match entry.recvChunks with
    | chunk :: chunks =>
      (m.put key { entry with
        recvChunks := chunks
        recvBytes := entry.recvBytes - chunk.length }, .data chunk)
    | [] => if entry.recvClosed then (m, .closed) else (m, .wait)

def receive (m : StreamManager L) (key : StreamKey) (bufLen : ℕ) :
    StreamManager L × ReceiveLook :=
  match m.streams.get? key with
  | none => (m, .returned (.error .notFound))
  | some entry =>
    if entry.consumer = .event then (m, .returned (.error .invalidArgument))
    else
      -- empty chunks at the front are dropped even if nothing is handed out
      let (filled, chunks) := takeFront bufLen entry.recvChunks
      let entry := { entry with recvChunks := chunks }
      if 0 < filled.length then
        (m.put key { entry with recvBytes := entry.recvBytes - filled.length },
          .returned (.ok filled))
      else if entry.recvClosed then (m.put key entry, .returned (.ok []))
      else (m.put key entry, .wait)

/-! ## Closing -/

def handleClose (m : StreamManager L) (key : StreamKey) : StreamManager L :=
  match m.streams.get? key with
  | none => m
  | some entry =>
    if entry.recvClosed then m
    -- both halves are closed now, and what is left in the buffer goes with the entry
    else if entry.sendClosed then m.retire key
    else m.put key { entry with recvClosed := true }

def closeLocal (m : StreamManager L) (key : StreamKey) : StreamManager L :=
  match m.streams.get? key with
  | none => m
  | some entry =>
    if entry.sendClosed then m
    else if entry.recvClosed then m.retire key
    else m.put key { entry with sendClosed := true }

/-- Session teardown: every stream is removed. The closed events of the keys follow. -/
def closeAll (m : StreamManager L) (order : StreamKey → ℕ) : StreamManager L × List StreamKey :=
  let keys := (m.streams.iter order).map Prod.fst
  -- unlike `retire`, without a look at the bound
  (⟨∅, m.retired ∪ keys.toFinset⟩, keys)

/-- The streams whose lease is no longer active are removed. The closed events of the keys
follow. -/
def closeInactive (m : StreamManager L) (isActive : L → Bool) (order : StreamKey → ℕ) :
    StreamManager L × List StreamKey :=
  let keys := ((m.streams.iter order).filter fun e => e.2.pathLease.any (!isActive ·)).map Prod.fst
  (keys.foldl retire m, keys)

end StreamManager

/-! ## Runs -/

inductive StreamOp (L : Type)
  | openStream (key : StreamKey) (service : String) (consumer : StreamConsumer)
  | bindLease (key : StreamKey) (lease : L)
  | takeLease (key : StreamKey)
  | restoreLease (key : StreamKey) (lease : L)
  | bumpSendSeq (key : StreamKey) (count : UInt64)
  | handleBytes (key : StreamKey) (seq : UInt64) (data : Bytes)
  | drainEvents (key : StreamKey)
  | receive (key : StreamKey) (bufLen : ℕ)
  | handleClose (key : StreamKey)
  | closeLocal (key : StreamKey)
  | closeAll (order : StreamKey → ℕ)
  | closeInactive (isActive : L → Bool) (order : StreamKey → ℕ)

inductive StreamOutput (L : Type)
  | result (result : Except StreamError Unit)
  | lease (result : Except StreamError L)
  | restored (result : Bool)
  | bytes (look : BytesLook)
  | drained (look : DrainLook)
  | received (look : ReceiveLook)
  | swept (keys : List StreamKey)

def streamStep (m : StreamManager L) : StreamOp L → StreamManager L × StreamOutput L
  | .openStream key service consumer => (m.openStream key service consumer).map id .result
  | .bindLease key lease => (m.bindLease key lease).map id .result
  | .takeLease key => (m.takeLease key).map id .lease
  | .restoreLease key lease => (m.restoreLease key lease).map id .restored
  | .bumpSendSeq key count => (m.bumpSendSeq key count).map id .result
  | .handleBytes key seq data => (m.handleBytes key seq data).map id .bytes
  | .drainEvents key => (m.drainEvents key).map id .drained
  | .receive key bufLen => (m.receive key bufLen).map id .received
  | .handleClose key => (m.handleClose key, .result (.ok ()))
  | .closeLocal key => (m.closeLocal key, .result (.ok ()))
  | .closeAll order => (m.closeAll order).map id .swept
  | .closeInactive isActive order => (m.closeInactive isActive order).map id .swept

/-- The runs of the manager of a peer, with its callers in any order. -/
def streamMachine : Machine (StreamManager L) (StreamOp L) (StreamOutput L) where
  start := .new
  step := streamStep

/-- The chunk of the stream that a step has put in the buffer, with its sequence number. -/
def acceptedChunk (key : StreamKey) : StreamOp L × StreamOutput L → Option (UInt64 × Bytes)
  | (.handleBytes k seq data, .bytes (.appended _)) => if k = key then some (seq, data) else none
  | _ => none

/-- The bytes of the stream that a step has handed to its consumer. -/
def handedBytes (key : StreamKey) : StreamOp L × StreamOutput L → Bytes
  | (.receive k _, .received (.returned (.ok bytes))) => if k = key then bytes else []
  | (.drainEvents k, .drained (.data chunk)) => if k = key then chunk else []
  | _ => []

/-! ## What a step does to a stream -/

/-- The stream's halves or its lease change, its buffer does not. -/
structure SameBuffer (e e' : StreamEntry L) : Prop where
  consumer : e'.consumer = e.consumer
  recvChunks : e'.recvChunks = e.recvChunks
  recvBytes : e'.recvBytes = e.recvBytes
  nextRecvSeq : e'.nextRecvSeq = e.nextRecvSeq
  recvClosed : e.recvClosed = true → e'.recvClosed = true

/-- A step that removes the stream with the entry `e`. -/
inductive Removes (key : StreamKey) (e : StreamEntry L) : StreamOp L → Prop
  | handleClose (h : e.sendClosed = true) (h' : e.recvClosed = false) :
    Removes key e (.handleClose key)
  | closeLocal (h : e.recvClosed = true) (h' : e.sendClosed = false) :
    Removes key e (.closeLocal key)
  | closeAll (order : StreamKey → ℕ) : Removes key e (.closeAll order)
  | closeInactive {isActive : L → Bool} (order : StreamKey → ℕ)
      (h : e.pathLease.any (!isActive ·) = true) : Removes key e (.closeInactive isActive order)

/-- **What a step can do to a stream**: by its operation and output, from the entry before the step
to the entry after it. -/
inductive Change (key : StreamKey) (op : StreamOp L) (out : StreamOutput L) :
    Option (StreamEntry L) → Option (StreamEntry L) → Prop
  | rest {e : Option (StreamEntry L)} (haccepted : acceptedChunk key (op, out) = none)
      (hhanded : handedBytes key (op, out) = []) : Change key op out e e
  | opened {service : String} {consumer : StreamConsumer}
      (hop : op = .openStream key service consumer) :
    Change key op out none (some (.fresh consumer))
  | accepted {e : StreamEntry L} {data : Bytes} {after : ℕ}
      (hop : op = .handleBytes key e.nextRecvSeq data) (hout : out = .bytes (.appended after))
      (hrecv : e.recvClosed = false) (hsend : e.sendClosed = false)
      (hroom : e.recvBytes + data.length ≤ maxPerStreamBufferCapacity) :
    Change key op out (some e) (some { e with
      nextRecvSeq := e.nextRecvSeq + 1
      recvBytes := e.recvBytes + data.length
      recvChunks := e.recvChunks ++ [data] })
  | handed {e : StreamEntry L} {bytes : Bytes} {chunks : List Bytes}
      (haccepted : acceptedChunk key (op, out) = none)
      (hhanded : handedBytes key (op, out) = bytes)
      (hbytes : bytes ++ chunks.flatten = e.recvChunks.flatten)
      (hnil : e.recvChunks = [] → chunks = []) :
    Change key op out (some e) (some { e with
      recvChunks := chunks
      recvBytes := e.recvBytes - bytes.length })
  | kept {e e' : StreamEntry L} (haccepted : acceptedChunk key (op, out) = none)
      (hhanded : handedBytes key (op, out) = []) (h : SameBuffer e e')
      (hclosed : e'.recvClosed = true → e.recvClosed = true ∨ op = .handleClose key) :
    Change key op out (some e) (some e')
  | removed {e : StreamEntry L} (haccepted : acceptedChunk key (op, out) = none)
      (hhanded : handedBytes key (op, out) = []) (h : Removes key e op) :
    Change key op out (some e) none

section Change

variable (m : StreamManager L) (key : StreamKey) (k : StreamKey)

theorem get?_put (entry : StreamEntry L) :
    (m.put k entry).streams.get? key = if key = k then some entry else m.streams.get? key :=
  Table.get?_insert k key entry m.streams

theorem get?_put_self (entry : StreamEntry L) : (m.put key entry).streams.get? key = some entry :=
  Table.get?_insert_self key entry m.streams

theorem get?_retire :
    (m.retire k).streams.get? key = if key = k then none else m.streams.get? key :=
  Table.get?_erase k key m.streams

theorem get?_foldl_retire (keys : List StreamKey) :
    (keys.foldl StreamManager.retire m).streams.get? key =
      if key ∈ keys then none else m.streams.get? key := by
  induction keys generalizing m with
  | nil => simp
  | cons k keys ih =>
    rw [List.foldl_cons, ih, get?_retire]
    by_cases hmem : key ∈ keys
    · simp [hmem]
    · by_cases hk : key = k <;> simp [hmem, hk]

theorem change_openStream (service : String) (consumer : StreamConsumer) :
    Change key (.openStream k service consumer) (.result (m.openStream k service consumer).2)
      (m.streams.get? key) ((m.openStream k service consumer).1.streams.get? key) := by
  rw [StreamManager.openStream]
  split_ifs with _ _ hcontains
  · exact .rest rfl rfl
  · exact .rest rfl rfl
  · exact .rest rfl rfl
  · exact .rest rfl rfl
  · exact .rest rfl rfl
  · rw [get?_put]
    split_ifs with hkey
    · subst hkey
      rw [Table.contains_eq_false.mp (Bool.not_eq_true _ ▸ hcontains)]
      exact .opened rfl
    · exact .rest rfl rfl

/-- A step that stores an entry with the same buffer. -/
theorem change_put {m : StreamManager L} {k : StreamKey} {entry entry' : StreamEntry L}
    {op : StreamOp L} {out : StreamOutput L} (hentry : m.streams.get? k = some entry)
    (h : SameBuffer entry entry')
    (hclosed : entry'.recvClosed = true → entry.recvClosed = true ∨ op = .handleClose k)
    (haccepted : acceptedChunk key (op, out) = none) (hhanded : handedBytes key (op, out) = []) :
    Change key op out (m.streams.get? key) ((m.put k entry').streams.get? key) := by
  rw [get?_put]
  split_ifs with hkey
  · subst hkey
    rw [hentry]
    exact .kept haccepted hhanded h hclosed
  · exact .rest haccepted hhanded

theorem change_takeLease :
    Change key (.takeLease k) (.lease (m.takeLease k).2) (m.streams.get? key)
      ((m.takeLease k).1.streams.get? key) := by
  rw [StreamManager.takeLease]
  split
  · exact .rest rfl rfl
  · rename_i entry hentry
    split_ifs
    · exact .rest rfl rfl
    · split
      · exact .rest rfl rfl
      · exact change_put key hentry ⟨rfl, rfl, rfl, rfl, id⟩ .inl rfl rfl

theorem change_handleBytes (seq : UInt64) (data : Bytes) :
    Change key (.handleBytes k seq data) (.bytes (m.handleBytes k seq data).2) (m.streams.get? key)
      ((m.handleBytes k seq data).1.streams.get? key) := by
  rw [StreamManager.handleBytes]
  split
  · exact .rest rfl rfl
  · rename_i entry hentry
    split_ifs with hclosed hseq hlt hroom
    · exact .rest rfl rfl
    · exact .rest rfl rfl
    · exact .rest rfl rfl
    · rw [get?_put]
      rw [Bool.or_eq_true, not_or, Bool.not_eq_true, Bool.not_eq_true] at hclosed
      split_ifs with hkey
      · subst hkey
        rw [hentry]
        exact .accepted (by rw [not_not.mp hseq]) rfl hclosed.1 hclosed.2 hroom
      · exact .rest (if_neg (Ne.symm hkey)) rfl
    · exact .rest rfl rfl

theorem change_drainEvents :
    Change key (.drainEvents k) (.drained (m.drainEvents k).2) (m.streams.get? key)
      ((m.drainEvents k).1.streams.get? key) := by
  rw [StreamManager.drainEvents]
  split
  · exact .rest rfl rfl
  · rename_i entry hentry
    split
    · rename_i chunk chunks hchunks
      rw [get?_put]
      split_ifs with hkey
      · subst hkey
        rw [hentry]
        refine .handed rfl (if_pos rfl) (by rw [hchunks, List.flatten_cons]) fun hnil => ?_
        rw [hchunks] at hnil
        cases hnil
      · exact .rest rfl (if_neg (Ne.symm hkey))
    · split_ifs <;> exact .rest rfl rfl

theorem change_receive (bufLen : ℕ) :
    Change key (.receive k bufLen) (.received (m.receive k bufLen).2) (m.streams.get? key)
      ((m.receive k bufLen).1.streams.get? key) := by
  rw [StreamManager.receive]
  split
  · exact .rest rfl rfl
  · rename_i entry hentry
    split_ifs
    · exact .rest rfl rfl
    have htaken := takeFront_append bufLen entry.recvChunks
    have hnil : entry.recvChunks = [] → (takeFront bufLen entry.recvChunks).2 = [] := by
      intro hnil
      rw [hnil, takeFront]
    generalize takeFront bufLen entry.recvChunks = taken at htaken hnil
    obtain ⟨filled, chunks⟩ := taken
    dsimp only at htaken hnil ⊢
    -- nothing filled is the case of no bytes handed out
    have hnone : filled.length = 0 → ∀ out, handedBytes key (.receive k bufLen, out) = [] →
        Change key (.receive k bufLen) out (m.streams.get? key)
          ((m.put k { entry with recvChunks := chunks }).streams.get? key) := by
      intro hzero out hout
      obtain rfl := List.length_eq_zero_iff.mp hzero
      rw [get?_put]
      split_ifs with hkey
      · subst hkey
        rw [hentry]
        exact .handed rfl hout htaken hnil
      · exact .rest rfl hout
    split_ifs with hpos hclosed
    · rw [get?_put]
      split_ifs with hkey
      · subst hkey
        rw [hentry]
        exact .handed rfl (if_pos rfl) htaken hnil
      · exact .rest rfl (if_neg (Ne.symm hkey))
    · exact hnone (by omega) _ (ite_self _)
    · exact hnone (by omega) _ rfl

theorem change_handleClose (out : StreamOutput L) :
    Change key (.handleClose k) out (m.streams.get? key)
      ((m.handleClose k).streams.get? key) := by
  rw [StreamManager.handleClose]
  split
  · exact .rest rfl rfl
  · rename_i entry hentry
    split_ifs with hrecv hsend
    · exact .rest rfl rfl
    · rw [get?_retire]
      split_ifs with hkey
      · subst hkey
        rw [hentry]
        exact .removed rfl rfl (.handleClose hsend (Bool.not_eq_true _ ▸ hrecv))
      · exact .rest rfl rfl
    · exact change_put key hentry ⟨rfl, rfl, rfl, rfl, fun _ => rfl⟩ (fun _ => .inr rfl) rfl rfl

theorem change_closeLocal (out : StreamOutput L) :
    Change key (.closeLocal k) out (m.streams.get? key)
      ((m.closeLocal k).streams.get? key) := by
  rw [StreamManager.closeLocal]
  split
  · exact .rest rfl rfl
  · rename_i entry hentry
    split_ifs with hsend hrecv
    · exact .rest rfl rfl
    · rw [get?_retire]
      split_ifs with hkey
      · subst hkey
        rw [hentry]
        exact .removed rfl rfl (.closeLocal hrecv (Bool.not_eq_true _ ▸ hsend))
      · exact .rest rfl rfl
    · exact change_put key hentry ⟨rfl, rfl, rfl, rfl, id⟩ .inl rfl rfl

theorem change_closeAll (order : StreamKey → ℕ) (out : StreamOutput L) :
    Change key (.closeAll order) out (m.streams.get? key)
      ((m.closeAll order).1.streams.get? key) := by
  cases m.streams.get? key with
  | none => exact .rest rfl rfl
  | some e => exact .removed rfl rfl (.closeAll order)

/-- The keys that the sweep over inactive leases takes. -/
theorem mem_closeInactive {isActive : L → Bool} {order : StreamKey → ℕ} :
    key ∈ (m.closeInactive isActive order).2 ↔
      ∃ e, m.streams.get? key = some e ∧ e.pathLease.any (!isActive ·) = true := by
  rw [StreamManager.closeInactive]
  simp only [List.mem_map, List.mem_filter, Table.mem_iter, Prod.exists, exists_and_right,
    exists_eq_right, Table.mem_toList]

theorem change_closeInactive (isActive : L → Bool) (order : StreamKey → ℕ) (out : StreamOutput L) :
    Change key (.closeInactive isActive order) out (m.streams.get? key)
      ((m.closeInactive isActive order).1.streams.get? key) := by
  have hget : (m.closeInactive isActive order).1.streams.get? key =
      if key ∈ (m.closeInactive isActive order).2 then none else m.streams.get? key :=
    get?_foldl_retire m key _
  rw [hget]
  split_ifs with hmem
  · obtain ⟨e, he, hlease⟩ := (mem_closeInactive m key).mp hmem
    rw [he]
    exact .removed rfl rfl (.closeInactive order hlease)
  · exact .rest rfl rfl

/-- **One step** of a manager, seen from a stream. -/
theorem streamStep_change (op : StreamOp L) :
    Change key op (streamStep m op).2 (m.streams.get? key)
      ((streamStep m op).1.streams.get? key) := by
  cases op with
  | openStream k service consumer => exact change_openStream m key k service consumer
  | bindLease k lease | restoreLease k lease | bumpSendSeq k count =>
    simp only [streamStep, StreamManager.bindLease, StreamManager.restoreLease,
      StreamManager.bumpSendSeq, Prod.map_fst, Prod.map_snd, id_eq]
    split
    · exact .rest rfl rfl
    · rename_i entry hentry
      split_ifs
      · exact .rest rfl rfl
      · exact change_put key hentry ⟨rfl, rfl, rfl, rfl, id⟩ .inl rfl rfl
  | takeLease k => exact change_takeLease m key k
  | handleBytes k seq data => exact change_handleBytes m key k seq data
  | drainEvents k => exact change_drainEvents m key k
  | receive k bufLen => exact change_receive m key k bufLen
  | handleClose k => exact change_handleClose m key k _
  | closeLocal k => exact change_closeLocal m key k _
  | closeAll order => exact change_closeAll m key order _
  | closeInactive isActive order => exact change_closeInactive m key isActive order _

end Change

/-! ## Streams that are gone -/

/-- **A stream that is gone**: its identity is retired, or no further stream can be opened. -/
def Gone (m : StreamManager L) (key : StreamKey) : Prop :=
  m.streams.get? key = none ∧ (key ∈ m.retired ∨ maxRetiredStreamKeys ≤ m.retired.card)

/-- The identities that `m` has retired are also retired in `m'`. -/
def Retains (m m' : StreamManager L) : Prop := m.retired ⊆ m'.retired

theorem Retains.refl (m : StreamManager L) : Retains m m := Finset.Subset.refl _

theorem retains_retire (m : StreamManager L) (key : StreamKey) : Retains m (m.retire key) := by
  rw [Retains, StreamManager.retire]
  split_ifs
  · exact Finset.subset_insert _ _
  · exact Finset.Subset.refl _

theorem retains_foldl_retire (m : StreamManager L) (keys : List StreamKey) :
    Retains m (keys.foldl StreamManager.retire m) := by
  induction keys generalizing m with
  | nil => exact .refl m
  | cons k keys ih => exact (retains_retire m k).trans (ih (m.retire k))

/-- **What a step can do to a manager**: nothing, open a stream, replace the entry of one, or remove
some. -/
inductive Moves (m : StreamManager L) : StreamManager L → Prop
  | rest : Moves m m
  | opened {key : StreamKey} (consumer : StreamConsumer)
      (hroom : m.streams.size < maxConcurrentStreams) (hnone : m.streams.get? key = none)
      (hretired : key ∉ m.retired) : Moves m (m.put key (.fresh consumer))
  | updated {key : StreamKey} {entry : StreamEntry L} (entry' : StreamEntry L)
      (h : m.streams.get? key = some entry) : Moves m (m.put key entry')
  | retired (keys : List StreamKey) : Moves m (keys.foldl StreamManager.retire m)
  | cleared (order : StreamKey → ℕ) : Moves m (m.closeAll order).1

theorem moves_openStream (m : StreamManager L) (key : StreamKey) (service : String)
    (consumer : StreamConsumer) : Moves m (m.openStream key service consumer).1 := by
  rw [StreamManager.openStream]
  split_ifs with _ hsize hcontains hretired
  · exact .rest
  · exact .rest
  · exact .rest
  · exact .rest
  · exact .rest
  · refine .opened consumer (Nat.lt_of_not_le hsize) ?_ hretired
    exact Table.contains_eq_false.mp (Bool.not_eq_true _ ▸ hcontains)

theorem moves_receive (m : StreamManager L) (key : StreamKey) (bufLen : ℕ) :
    Moves m (m.receive key bufLen).1 := by
  rw [StreamManager.receive]
  split
  · exact .rest
  · rename_i entry hentry
    split_ifs
    · exact .rest
    generalize takeFront bufLen entry.recvChunks = taken
    obtain ⟨filled, chunks⟩ := taken
    dsimp only
    split_ifs
    · exact .updated _ hentry
    · exact .updated _ hentry
    · exact .updated _ hentry

/-- **One step** of a manager. -/
theorem streamStep_moves (m : StreamManager L) (op : StreamOp L) : Moves m (streamStep m op).1 := by
  cases op with
  | openStream k service consumer => exact moves_openStream m k service consumer
  | bindLease k lease | restoreLease k lease | bumpSendSeq k count =>
    simp only [streamStep, StreamManager.bindLease, StreamManager.restoreLease,
      StreamManager.bumpSendSeq, Prod.map_fst, id_eq]
    split
    · exact .rest
    · rename_i entry hentry
      split_ifs
      · exact .rest
      · exact .updated _ hentry
  | takeLease k =>
    simp only [streamStep, StreamManager.takeLease, Prod.map_fst, id_eq]
    split
    · exact .rest
    · rename_i entry hentry
      split_ifs
      · exact .rest
      · split
        · exact .rest
        · exact .updated _ hentry
  | handleBytes k seq data =>
    simp only [streamStep, StreamManager.handleBytes, Prod.map_fst, id_eq]
    split
    · exact .rest
    · rename_i entry hentry
      split_ifs
      · exact .rest
      · exact .rest
      · exact .rest
      · exact .updated _ hentry
      · exact .rest
  | drainEvents k =>
    simp only [streamStep, StreamManager.drainEvents, Prod.map_fst, id_eq]
    split
    · exact .rest
    · rename_i entry hentry
      split
      · exact .updated _ hentry
      · split_ifs <;> exact .rest
  | receive k bufLen => exact moves_receive m k bufLen
  | handleClose k | closeLocal k =>
    simp only [streamStep, StreamManager.handleClose, StreamManager.closeLocal]
    split
    · exact .rest
    · rename_i entry hentry
      split_ifs
      · exact .rest
      · exact .retired [k]
      · exact .updated _ hentry
  | closeAll order => exact .cleared order
  | closeInactive isActive order => exact .retired _

theorem streamStep_retains (m : StreamManager L) (op : StreamOp L) :
    Retains m (streamStep m op).1 := by
  have hmoves := streamStep_moves m op
  generalize (streamStep m op).1 = m' at hmoves ⊢
  cases hmoves with
  | rest | opened | updated => exact .refl m
  | retired keys => exact retains_foldl_retire m keys
  | cleared order => exact Finset.subset_union_left

variable {m : StreamManager L} {key : StreamKey}

/-- A stream that is gone cannot be opened. -/
theorem Gone.openStream (h : Gone m key) (service : String) (consumer : StreamConsumer) :
    (m.openStream key service consumer).1 = m := by
  rw [StreamManager.openStream]
  split_ifs with _ _ _ hretired hcard
  · rfl
  · rfl
  · rfl
  · rfl
  · rfl
  · rcases h.2 with hmem | hfull
    · exact absurd hmem hretired
    · exact absurd hfull hcard

/-- **A stream that is gone stays gone.** -/
theorem Gone.step (h : Gone m key) (op : StreamOp L) :
    Gone (streamStep m op).1 key := by
  have hretains := streamStep_retains m op
  refine ⟨?_, ?_⟩
  · have hchange := streamStep_change m key op
    rw [h.1] at hchange
    generalize hafter : (streamStep m op).1.streams.get? key = after at hchange
    generalize (streamStep m op).2 = out at hchange
    -- only `openStream` makes an entry where there was none
    cases hchange with
    | rest => rfl
    | opened hop =>
      subst hop
      have hsame := h.openStream
      simp only [streamStep, Prod.map_fst, id_eq, hsame, h.1] at hafter
      cases hafter
  -- the set only grows, so it stays full
  · rcases h.2 with hmem | hfull
    · exact .inl (hretains hmem)
    · exact .inr (hfull.trans (Finset.card_le_card hretains))

/-- A removed stream is gone. -/
theorem gone_retire (m : StreamManager L) (key : StreamKey) : Gone (m.retire key) key := by
  refine ⟨(get?_retire m key key).trans (if_pos rfl), ?_⟩
  rw [StreamManager.retire]
  split_ifs with hroom
  · exact .inl (Finset.mem_insert_self _ _)
  · exact .inr (Nat.le_of_not_lt hroom)

theorem Gone.retire (h : Gone m key) (k : StreamKey) :
    Gone (m.retire k) key := by
  refine ⟨?_, ?_⟩
  · rw [get?_retire, h.1, ite_self]
  · rcases h.2 with hmem | hfull
    · exact .inl (retains_retire m k hmem)
    · exact .inr (hfull.trans (Finset.card_le_card (retains_retire m k)))

theorem gone_foldl_retire {keys : List StreamKey}
    (h : key ∈ keys ∨ Gone m key) : Gone (keys.foldl StreamManager.retire m) key := by
  induction keys generalizing m with
  | nil => exact h.resolve_left List.not_mem_nil
  | cons k keys ih =>
    refine ih ?_
    rcases h with hmem | hgone
    · rcases List.mem_cons.mp hmem with rfl | hmem
      · exact .inr (gone_retire m key)
      · exact .inl hmem
    · exact .inr (hgone.retire k)

/-- **A step that removes a stream** leaves it gone. -/
theorem gone_of_removed {op : StreamOp L}
    {e : StreamEntry L} (he : m.streams.get? key = some e) (h : Removes key e op) :
    Gone (streamStep m op).1 key := by
  cases h with
  | handleClose hsend hrecv =>
    simp only [streamStep, StreamManager.handleClose, he, hrecv, hsend, if_true]
    exact gone_retire m key
  | closeLocal hrecv hsend =>
    simp only [streamStep, StreamManager.closeLocal, he, hrecv, hsend, if_true]
    exact gone_retire m key
  | closeAll order =>
    refine ⟨rfl, .inl (Finset.mem_union_right _ ?_)⟩
    rw [List.mem_toFinset, List.mem_map]
    exact ⟨(key, e), Table.mem_iter.mpr (Table.mem_toList.mpr he), rfl⟩
  | closeInactive order hlease =>
    exact gone_foldl_retire (.inl ((mem_closeInactive m key).mpr ⟨e, he, hlease⟩))

end SshMobile.Stream
