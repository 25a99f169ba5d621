import SshMobile.Library.Machine
import SshMobile.Relay.DataFrame
import SshMobile.Transfer.Manager

/-!
# A file transfer over a relay

One file on its way from a sender to a receiver, over a relay connection that may be lost. The
sender offers the file and waits for the acceptance, which names the offset from which the receiver
wants it; then it hands chunk after chunk to its socket and records its progress after each. The
receiver writes the chunks to a partial file and records its progress after each. A lost connection
takes a suffix of what is in flight with it; both sides pause their sessions, and the next
connection starts with a new offer.

The steps of the two sides are interleaved at the points where the code waits. Reads of the file
return full chunks, chunks are decrypted as they were sent, and what was written is on disk.

## Main definitions

* `FileTransfer`: the file and its manifest
* `ResumeState`: the two sides, the connection and what was lost
* `ResumeState.dispatch`, `ResumeState.accept`, `ResumeState.send`, …: the steps of the sender
* `ResumeState.deliver`, `ResumeState.record`, `ResumeState.approve`, …: the steps of the receiver
* `resumeMachine`: all runs
-/

namespace SshMobile.Relay

open Library Transfer

/-! ## Offers and acceptances -/

/-- **A file that is sent** from one device to another, under a valid manifest. -/
structure FileTransfer where
  manifest : FileManifest
  file : Bytes
  sourcePath : String
  senderId : String
  receiverId : String
  fileSize_eq : manifest.fileSize = file.length
  valid : manifest.validate = .ok ()

def FileTransfer.id (t : FileTransfer) : String := t.manifest.transferId

/-- The offsets at which a transfer may start: the ends of the file and the bounds of chunks. -/
def validRelayOffset (offset totalBytes : ℕ) : Bool :=
  decide (offset ≤ totalBytes) &&
    (offset == 0 || offset == totalBytes || offset % relayFileChunkBytes == 0)

structure RelayAcceptance where
  v : ℕ
  transferId : String
  manifestHash : String
  fileHash : String
  offset : ℕ
deriving DecidableEq

def toAsciiLowercase (byte : UInt8) : UInt8 := if isAsciiUppercase byte then byte + 32 else byte

def eqIgnoreAsciiCase (a b : String) : Bool :=
  (utf8 a).map toAsciiLowercase == (utf8 b).map toAsciiLowercase

/-- The sender's check of an acceptance for the attempt that starts at `offset`. -/
def acceptanceMatches (relayManifestHash : FileManifest → String) (manifest : FileManifest)
    (offset : ℕ) (acceptance : RelayAcceptance) : Bool :=
  !(acceptance.transferId != manifest.transferId || acceptance.v != 1 ||
    acceptance.manifestHash != relayManifestHash manifest ||
    !eqIgnoreAsciiCase acceptance.fileHash manifest.contentHash ||
    !validRelayOffset acceptance.offset manifest.fileSize ||
    decide (acceptance.offset < offset))

/-- The length of the partial file; a file that is too long counts as empty. -/
def existingPartialOffset (manifest : FileManifest) (partFile : Option Bytes) : ℕ :=
  match partFile with
  | none => 0
  | some content => if content.length ≤ manifest.fileSize then content.length else 0

/-! ## The two sides and the connection -/

/-- A chunk of the file, with its number. -/
structure Chunk where
  sequence : ℕ
  bytes : Bytes
deriving DecidableEq

def Chunk.offset (chunk : Chunk) : ℕ := chunk.sequence * relayFileChunkBytes

inductive Envelope
  | offer
  | chunk (chunk : Chunk)
deriving DecidableEq

/-- The chunks among envelopes. -/
def chunks (envelopes : List Envelope) : List Chunk :=
  envelopes.filterMap fun
    | .offer => none
    | .chunk chunk => some chunk

/-- What the sender's worker is about to do: read the acceptance; read the next chunk; record that
the socket took the last one. -/
inductive Phase
  | waiting
  | sending (sequence transferred : ℕ)
  | recording (sequence transferred : ℕ)
deriving DecidableEq

/-- A worker of the sender, with the offset at which the session was when it started. -/
structure Attempt where
  offset : ℕ
  phase : Phase
deriving DecidableEq

/-- A file that is being received. -/
structure Receiving where
  nextSequence : ℕ
  receivedBytes : ℕ
deriving DecidableEq

structure ResumeState where
  sender : TransferManager
  attempt : Option Attempt
  /-- How far the sender has handed the file to its sockets, after the last acceptance. -/
  handed : ℕ
  connected : Bool
  toReceiver : List Envelope
  toSender : List RelayAcceptance
  /-- The chunks that were handed over and will not arrive, after the last acceptance. -/
  lost : List Chunk
  receiver : TransferManager
  /-- An offer waits for the user. -/
  pending : Bool
  active : Option Receiving
  /-- A chunk is written and not recorded yet. -/
  recording : Bool
  partFile : Option Bytes
  /-- The receiver has cancelled the transfer and removed its partial file. -/
  cancelled : Bool

section Machine

variable (relayManifestHash : FileManifest → String) (t : FileTransfer)

/-! ### The sender -/

/-- The end of an attempt with an error of the protocol. -/
def ResumeState.fail (s : ResumeState) (reason : TransferFailureReason) : ResumeState :=
  { s with sender := removeTransfer (failTransfer s.sender t.id reason).1 t.id, attempt := none }

/-- The offer on a new connection. What is left of the last one is lost. -/
def ResumeState.start (s : ResumeState) (offset : ℕ) : ResumeState :=
  if !validRelayOffset offset t.manifest.fileSize then s.fail t .sourceChanged
  else
    { s with
        attempt := some ⟨offset, .waiting⟩
        connected := true
        toReceiver := [.offer]
        toSender := []
        lost := chunks s.toReceiver ++ s.lost }

/-- A new connection claims the transfer; the workers of the last one are gone. -/
def ResumeState.dispatch (s : ResumeState) : ResumeState :=
  if s.connected || s.attempt.isSome then s
  else
    match s.sender.get? t.id with
    | none => s
    | some item =>
      if item.state = .offering then s.start t 0
      else if item.state = .paused then
        ResumeState.start t
          { s with sender := (takeResumableForPeer (fun _ => 0) s.sender t.receiverId "").1 }
          item.confirmedOffset
      else s

/-- The sender reads the acceptance. -/
def ResumeState.accept (s : ResumeState) : ResumeState :=
  match s.attempt, s.toSender with
  | some ⟨offset, .waiting⟩, acceptance :: rest =>
    if !acceptanceMatches relayManifestHash t.manifest offset acceptance then
      ResumeState.fail t { s with toSender := rest } .sourceChanged
    else
      match markTransferring s.sender t.id with
      | (_, false) => ResumeState.fail t { s with toSender := rest } .io
      | (sender, true) =>
        { s with
            sender := (updateProgress sender t.id acceptance.offset).1
            attempt := some ⟨offset,
              .sending (acceptance.offset / relayFileChunkBytes) acceptance.offset⟩
            handed := acceptance.offset
            toSender := rest
            lost := [] }
  | _, _ => s

/-- The next chunk is read and handed to the socket. -/
def ResumeState.send (s : ResumeState) : ResumeState :=
  match s.attempt with
  | some ⟨offset, .sending sequence transferred⟩ =>
    if s.connected ∧ transferred < t.manifest.fileSize then
      let bytes := (t.file.drop transferred).take relayFileChunkBytes
      { s with
          attempt := some ⟨offset, .recording (sequence + 1) (transferred + bytes.length)⟩
          handed := transferred + bytes.length
          toReceiver := s.toReceiver ++ [.chunk ⟨sequence, bytes⟩] }
    else s
  | _ => s

def ResumeState.recordSent (s : ResumeState) : ResumeState :=
  match s.attempt with
  | some ⟨offset, .recording sequence transferred⟩ =>
    { s with
        sender := (updateProgress s.sender t.id transferred).1
        attempt := some ⟨offset, .sending sequence transferred⟩ }
  | _ => s

/-- The worker finds the connection lost. It pauses the session, or fails it if that is paused
already. -/
def ResumeState.workerFails (s : ResumeState) : ResumeState :=
  match s.connected, s.attempt with
  | false, some ⟨_, .waiting⟩ | false, some ⟨_, .sending _ _⟩ =>
    match pauseForNetwork s.sender t.id with
    | (sender, true) => { s with sender := sender, attempt := none }
    | (_, false) => s.fail t .io
  | _, _ => s

/-- The end of the session at the sender pauses the transfers of the receiver. -/
def ResumeState.teardown (s : ResumeState) : ResumeState :=
  if s.connected then s else { s with sender := pausePeerTransfers s.sender t.receiverId }

/-- The workers of a session that has ended are joined. -/
def ResumeState.joinTasks (s : ResumeState) : ResumeState :=
  if s.connected || (s.sender.get? t.id).any (fun item => item.state.isRunning) then s
  else { s with attempt := none }

/-! ### The receiver -/

/-- The partial file is opened at the offset; at the start it is created or emptied. -/
def openPartFile (partFile : Option Bytes) (offset : ℕ) : Option Bytes :=
  if offset = 0 then some [] else partFile

/-- The record of a session that is being resumed is not the offset. -/
def checkpointDiffers (receiver : TransferManager) (id : String) (offset : ℕ) : Bool :=
  (receiver.get? id).any fun item => decide (item.state = .resuming ∧ item.confirmedOffset ≠ offset)

def relayAcceptance (offset : ℕ) : RelayAcceptance :=
  ⟨1, t.id, relayManifestHash t.manifest, t.manifest.contentHash, offset⟩

/-- The receiver accepts the offer; the flag is whether that went well. -/
def ResumeState.acceptPending (s : ResumeState) : ResumeState × Bool :=
  let offset := existingPartialOffset t.manifest s.partFile
  let opened := { s with pending := false, partFile := openPartFile s.partFile offset }
  if !validRelayOffset offset t.manifest.fileSize then ({ s with pending := false }, false)
  else if checkpointDiffers s.receiver t.id offset then (opened, false)
  else
    match markTransferring (updateProgress s.receiver t.id offset).1 t.id with
    | (receiver, false) => ({ opened with receiver := receiver }, false)
    | (receiver, true) =>
      if !s.connected then
        ({ opened with receiver := (pauseForNetwork receiver t.id).1, pending := true }, false)
      else
        ({ opened with
            receiver := receiver
            active := some ⟨offset / relayFileChunkBytes, offset⟩
            toSender := s.toSender ++ [relayAcceptance relayManifestHash t offset] }, true)

def ResumeState.receiveOffer (s : ResumeState) : ResumeState :=
  if s.active.isSome then s
  else
    match claimIncomingResume s.receiver t.manifest t.senderId with
    | (receiver, some _) =>
      (ResumeState.acceptPending relayManifestHash t
        { s with receiver := receiver, pending := true }).1
    | (_, none) =>
      if s.pending then s
      else
        match registerIncoming s.receiver t.manifest t.senderId with
        | (receiver, true) => { s with receiver := receiver, pending := true }
        | (_, false) => s

def ResumeState.receiveChunk (s : ResumeState) (chunk : Chunk) : ResumeState :=
  match s.active with
  | none => { s with lost := s.lost ++ [chunk] }
  | some active =>
    if chunk.sequence ≠ active.nextSequence ∨ chunk.bytes = [] ∨
        t.manifest.fileSize < active.receivedBytes + chunk.bytes.length then
      { s with lost := s.lost ++ [chunk] }
    else
      { s with
          partFile := some (s.partFile.getD [] ++ chunk.bytes)
          active := some ⟨active.nextSequence + 1, active.receivedBytes + chunk.bytes.length⟩
          recording := true }

/-- The receiver takes the next envelope, when it is done with the last one. -/
def ResumeState.deliver (s : ResumeState) : ResumeState :=
  if s.recording then s
  else
    match s.toReceiver with
    | [] => s
    | .offer :: rest => ResumeState.receiveOffer relayManifestHash t { s with toReceiver := rest }
    | .chunk chunk :: rest => ResumeState.receiveChunk t { s with toReceiver := rest } chunk

def ResumeState.record (s : ResumeState) : ResumeState :=
  match s.recording, s.active with
  | true, some active =>
    { s with
        receiver := (updateProgress s.receiver t.id active.receivedBytes).1
        recording := false }
  | _, _ => s

/-- The user accepts the offer. If the receiver cannot accept it any more, the transfer is
cancelled. -/
def ResumeState.approve (s : ResumeState) : ResumeState :=
  if !s.pending then s
  else if !s.connected then { s with pending := false }
  else
    match s.acceptPending relayManifestHash t with
    | (accepted, true) => accepted
    | (refused, false) =>
      { refused with
          receiver := removeTransfer (cancelTransfer refused.receiver t.id).1 t.id
          pending := false
          active := none
          partFile := none
          cancelled := true }

/-- The end of the session at the receiver pauses the transfers of the sender, whatever is being
done with a chunk. -/
def ResumeState.pauseReceiver (s : ResumeState) : ResumeState :=
  if s.connected then s else { s with receiver := pausePeerTransfers s.receiver t.senderId }

/-- The receiver gives up the connection: it takes no more envelopes, and pauses what it was
receiving. It waits for a chunk that is being written. -/
def ResumeState.cleanup (s : ResumeState) : ResumeState :=
  if s.connected || s.recording then s
  else
    { s with
        toReceiver := []
        lost := chunks s.toReceiver ++ s.lost
        active := none
        receiver := if s.active.isSome then (pauseForNetwork s.receiver t.id).1 else s.receiver }

/-! ### Runs -/

inductive ResumeOp
  | dispatch
  | accept
  | send
  | recordSent
  | workerFails
  | teardown
  | joinTasks
  | deliver
  | record
  | approve
  | pauseReceiver
  | cleanup
  /-- The connection is lost, with the last envelopes and acceptances in flight. -/
  | lose (envelopes acceptances : ℕ)

/-- The connection is lost, and with it a suffix of what is in flight. -/
def ResumeState.lose (s : ResumeState) (envelopes acceptances : ℕ) : ResumeState :=
  if !s.connected then s
  else
    { s with
        connected := false
        toReceiver := s.toReceiver.take (s.toReceiver.length - envelopes)
        toSender := s.toSender.take (s.toSender.length - acceptances)
        lost := chunks (s.toReceiver.drop (s.toReceiver.length - envelopes)) ++ s.lost }

def ResumeState.step (s : ResumeState) : ResumeOp → ResumeState
  | .dispatch => s.dispatch t
  | .accept => s.accept relayManifestHash t
  | .send => s.send t
  | .recordSent => s.recordSent t
  | .workerFails => s.workerFails t
  | .teardown => s.teardown t
  | .joinTasks => s.joinTasks t
  | .deliver => s.deliver relayManifestHash t
  | .record => s.record t
  | .approve => s.approve relayManifestHash t
  | .pauseReceiver => s.pauseReceiver t
  | .cleanup => s.cleanup t
  | .lose envelopes acceptances => s.lose envelopes acceptances

/-- The sender has registered the transfer; the receiver knows nothing of it. -/
def ResumeState.initial : ResumeState where
  sender := (registerOutgoing ∅ t.manifest t.sourcePath t.receiverId).1
  attempt := none
  handed := 0
  connected := false
  toReceiver := []
  toSender := []
  lost := []
  receiver := ∅
  pending := false
  active := none
  recording := false
  partFile := none
  cancelled := false

/-- **All runs of a transfer**, to the point where the receiver cancels it. -/
def resumeMachine : Machine ResumeState ResumeOp Unit where
  start := .initial t
  step s op := (if s.cancelled then s else s.step relayManifestHash t op, ())

end Machine

end SshMobile.Relay
