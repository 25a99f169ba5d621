import SshMobile.Connection.Session
import SshMobile.Library.Files
import SshMobile.Relay.FileTransfer
import SshMobile.Relay.Transfers

/-!
# Receiving files over a relay

The part of the runtime that the file envelopes of the data plane work on: offers are decrypted,
checked and recorded, files are opened, chunks are decrypted and written, and a complete file is
moved to its place.

The libraries behind the code are parameters: the codecs of `RelayCodec` are pure, and the rest of
the runtime (the store of session keys, the paths of the peers, channels and streams) has a state of
its own that is only reached through the calls of `RelayServices`. `CallEnv` is what one call meets:
the iteration order of the tables, the locations that paths lead to, and the faults of the file
system.

## Main definitions

* `RelayRuntime`: the state
* `decodeOffer`, `receiveRelayOffer`: an offer arrives
* `openIncoming`, `acceptPendingRelayIncoming`: a file is opened and the offer accepted
* `receiveRelayChunk`, `completeRelayIncoming`, `cancelRelayIncoming`: the file arrives, and its end

## Main results

* `sent_offer_refused`: the receiver refuses every offer that is sent
-/

namespace SshMobile.Relay

open Library Transfer Crypto Connection

/-! ## Errors -/

def maxPendingIncomingTransfers : ℕ := 64

/-- The errors of the data plane; those of the libraries are not told apart. -/
inductive RelayDataError
  | envelopeEmpty
  | notAdmitted
  | cryptoTruncated
  | chunkTruncated
  | unknownKind (kind : UInt8)
  | senderNotRegistered
  | offerTruncated
  | offerSessionInvalid
  | identityUnavailable
  | transferIdMissing
  | fileNameMissing
  | fileSizeInvalid
  | modifiedTimeInvalid
  | contentHashMissing
  | manifestHashMissing
  | offerMetadataInvalid
  | cryptoSessionInvalid
  | manifest (error : ManifestError)
  | manifestHashMismatch
  | alreadyReceiving
  | tooManyPending
  | boundToOtherManifest
  | alreadyActive
  | notPending
  | receiveDirectoryUnavailable
  | destinationNotRegular
  | destinationDiffers
  | partFileNotRegular
  | partFileUnaligned
  | checkpointDiffers
  | noLongerActive
  | dataPlaneUnavailable
  | sessionNotAccepted
  | chunkReplayed
  | chunkTooLong
  | completedEarly
  | contentHashMismatch
  | fileUnavailable
  | handshakeNotBound
  | e2eeRequired
  | noInitiator
  | initiatorGone
  | responderQueueFull
  | noResponder
  | identityMismatch
  | confirmerQueueFull
  | noConfirmer
  | confirmationMismatch
  | policyNotRequired
  | bindingInvalid
  | capabilityMissing
  | admissionStale
  | installStale
  | installFailed
  | closedBeforeCommit
  | relay (error : RelayError)
  | library
deriving DecidableEq

/-! ## The libraries and the rest of the runtime -/

def applicationCryptoSuite : String := "hkdf-sha256-aes256gcm-v1"

/-- The identity of the device, as far as offers need it. -/
structure Identity where
  deviceId : String
  e2eKey : Key
deriving DecidableEq

/-- The fields of a decrypted offer; a field of another type counts as missing. -/
structure OfferValue where
  v : Option UInt64
  cryptoSuite : Option String
  sessionId : Option String
  cryptoSessionId : Option String
  transferId : Option String
  manifestHash : Option String
  senderId : Option String
  receiverId : Option String
  fileName : Option String
  fileSize : Option UInt64
  modifiedAt : Option Int64
  contentHash : Option String
deriving DecidableEq

/-- **The codecs**: hashes, texts and the encryption of offers. -/
structure RelayCodec where
  sha256 : Bytes → Bytes
  decodeBase64 : String → Option Bytes
  /-- The offer under the device's key and the session, which is given by its text. -/
  decryptApplicationOffer : Bytes → Key → String → Option Bytes
  parseOffer : Bytes → Option OfferValue
  parseAcceptance : String → Option RelayAcceptance
  encodeAcceptance : RelayAcceptance → Bytes

/-- How a lease on the data connection of a peer is answered. -/
inductive LeaseOutcome
  | refused
  | withoutData
  | granted
deriving DecidableEq

/-- **The rest of the runtime** as file envelopes use it. -/
structure RelayServices (σ : Type) where
  acquirePathLeaseForRelayData : σ → String → σ × LeaseOutcome
  sendDataEnvelope : σ → UInt8 → Bytes → σ × Bool
  decryptApplicationPayload :
    σ → String → String → Bytes → Bytes → σ × Except CryptoError Bytes
  receiveRelayChannelMessage : σ → String → String → Bytes → σ × Except RelayDataError Unit
  receiveRelayDeliveryAck : σ → String → String → Bytes → σ × Except RelayDataError Unit
  receiveRelayStreamFrame : σ → String → String → Bytes → σ × Except RelayDataError Unit

/-- The calls of the file system that fail in one call of the data plane; a write that fails has
written some of the bytes. -/
structure FileFaults where
  createDirectory : Bool
  lookCompleted : Bool
  lookCompletedAgain : Bool
  lookDestination : Bool
  lookPartFile : Bool
  readPartFile : Bool
  openPartFile : Bool
  seek : Bool
  write : Option ℕ
  rename : Bool
  remove : Bool
deriving DecidableEq

/-- **What a call meets**: the iteration order of the tables, the locations of paths, the faults of
the file system, and the identity that is drawn for a new session. -/
structure CallEnv (L : Type) where
  order : String → ℕ
  locate : String → L
  faults : FileFaults
  fresh : SessionId

/-- **The runtime**, as far as the file envelopes of the data plane can reach it. -/
structure RelayRuntime (σ L : Type) [DecidableEq L] where
  transfers : RelayTransfers
  files : FileStore L
  receiveDirectory : Option String
  peers : Finset String
  identity : Option Identity
  services : σ

/-! ## Offers -/

def isSha256Hash (value : String) : Bool :=
  decide (value.utf8ByteSize = 64) && (utf8 value).all isAsciiHexdigit

def isSafeFileName (value : String) : Bool :=
  !value.isEmpty && decide (value.utf8ByteSize ≤ 255) &&
    !((utf8 value).contains 47 || (utf8 value).contains 92 || (utf8 value).contains 0) &&
    isPlainComponent value

/-- A text of 32 lower-case hexadecimal digits. -/
def isSessionToken (value : String) : Bool :=
  decide (value.utf8ByteSize = 32) &&
    (utf8 value).all fun byte => isAsciiHexdigit byte && !isAsciiUppercase byte

def relayManifestHash (sha256 : Bytes → Bytes) (manifest : FileManifest) : String :=
  hexEncode (sha256 (utf8 "ssh-mobile/relay-manifest/V2" ++ 0 :: utf8 manifest.transferId ++
    0 :: utf8 manifest.fileName ++ 0 :: beBytes 8 manifest.fileSize ++
    beBytes 8 manifest.modifiedAt.toUInt64.toNat ++ utf8 manifest.contentHash ++
    beBytes 4 manifest.protocolVersion.toNat))

def relayHashMatches (sha256 : Bytes → Bytes) (content : Bytes) (expected : String) : Bool :=
  eqIgnoreAsciiCase (hexEncode (sha256 content)) expected

/-- The fields of an offer that must be there. -/
structure OfferFields where
  transferId : String
  fileName : String
  totalBytes : UInt64
  modifiedAt : Int64
  contentHash : String
  manifestHash : String

def OfferValue.fields (value : OfferValue) : Except RelayDataError OfferFields :=
  match value.transferId with
  | none => .error .transferIdMissing
  | some transferId =>
  match value.fileName with
  | none => .error .fileNameMissing
  | some fileName =>
  match value.fileSize with
  | none => .error .fileSizeInvalid
  | some totalBytes =>
  match value.modifiedAt with
  | none => .error .modifiedTimeInvalid
  | some modifiedAt =>
  match value.contentHash with
  | none => .error .contentHashMissing
  | some contentHash =>
  match value.manifestHash with
  | none => .error .manifestHashMissing
  | some manifestHash =>
    .ok ⟨transferId, fileName, totalBytes, modifiedAt, contentHash, manifestHash⟩

def OfferFields.manifest (fields : OfferFields) : FileManifest where
  transferId := fields.transferId
  fileName := fields.fileName
  fileSize := fields.totalBytes.toNat
  modifiedAt := fields.modifiedAt
  contentHash := fields.contentHash
  protocolVersion := networkTransferProtocolVersion

/-- The offer names the sender, the receiver, the session and a suite and version that are known,
and its hashes and its file name are well formed. -/
def OfferValue.isBound (value : OfferValue) (fields : OfferFields) (sessionId senderId : String)
    (identity : Identity) : Bool :=
  value.v == some 1 && value.cryptoSuite == some applicationCryptoSuite &&
    value.sessionId == some sessionId && value.transferId == some fields.transferId &&
    value.senderId == some senderId && value.receiverId == some identity.deviceId &&
    isSha256Hash fields.contentHash && isSha256Hash fields.manifestHash &&
    isSafeFileName fields.fileName

def isCryptoSessionId (value : String) : Bool :=
  decide (value.utf8ByteSize = 16) && (utf8 value).all isAsciiHexdigit

/-- The record of an offer. -/
def OfferFields.pending (fields : OfferFields) (sessionId senderId cryptoSessionId : String) :
    PendingRelayIncoming where
  transferId := fields.transferId
  sessionId := sessionId
  senderId := senderId
  manifest := fields.manifest
  manifestHash := fields.manifestHash
  cryptoSessionId := cryptoSessionId

/-- The checks of a decrypted offer. -/
def checkOffer (codec : RelayCodec) (identity : Identity) (senderId sessionId : String)
    (value : OfferValue) : Except RelayDataError PendingRelayIncoming :=
  match value.fields with
  | .error error => .error error
  | .ok fields =>
    if !value.isBound fields sessionId senderId identity then .error .offerMetadataInvalid
    else
      match value.cryptoSessionId.filter isCryptoSessionId with
      | none => .error .cryptoSessionInvalid
      | some cryptoSessionId =>
        match fields.manifest.validate with
        | .error error => .error (.manifest error)
        | .ok () =>
          if relayManifestHash codec.sha256 fields.manifest ≠ fields.manifestHash then
            .error .manifestHashMismatch
          else .ok (fields.pending sessionId senderId cryptoSessionId)

/-- **An offer is decoded**: the session's text, the encrypted fields, and their checks. -/
def decodeOffer (codec : RelayCodec) (identity : Option Identity) (senderId : String)
    (body : Bytes) : Except RelayDataError PendingRelayIncoming :=
  if body.length < 32 then .error .offerTruncated
  else
    match decodeUtf8 (body.take 32) with
    | none => .error .library
    | some sessionId =>
      if !isSessionToken sessionId then .error .offerSessionInvalid
      else
        match (decodeUtf8 (body.drop 32)).bind codec.decodeBase64 with
        | none => .error .library
        | some envelope =>
          match identity with
          | none => .error .identityUnavailable
          | some identity =>
            match (codec.decryptApplicationOffer envelope identity.e2eKey sessionId).bind
                codec.parseOffer with
            | none => .error .library
            | some value => checkOffer codec identity senderId sessionId value

/-! ## Files -/

section Files

variable {L : Type} [DecidableEq L] (codec : RelayCodec) (env : CallEnv L) (files : FileStore L)

/-- The path before its last separator. -/
def parent (path : String) : String :=
  String.ofList (path.toList.reverse.dropWhile (· ≠ '/')).tail.reverse

def finalPath (directory : String) (manifest : FileManifest) : String :=
  directory ++ "/" ++ manifest.fileName

/-- Whether the file is in its place already, with the hash of the manifest. -/
def existingCompletedFile (fault : Bool) (manifest : FileManifest) (directory : String) :
    Except RelayDataError Bool :=
  match manifest.validate with
  | .error error => .error (.manifest error)
  | .ok () =>
    if fault then .error .library
    else
      match files.entries.get? (env.locate (finalPath directory manifest)) with
      | none => .ok false
      | some (.file id) =>
        .ok ((files.content id).length == manifest.fileSize &&
          relayHashMatches codec.sha256 (files.content id) manifest.contentHash)
      | some .directory => .error .destinationNotRegular
      | some .link => .error .destinationNotRegular

/-- The contents of the partial file; anything else at its path is an error. -/
def lookPartFile (manifest : FileManifest) (directory : String) :
    Except RelayDataError (Option Bytes) :=
  match manifest.validate with
  | .error error => .error (.manifest error)
  | .ok () =>
    if env.faults.lookPartFile then .error .library
    else
      match files.entries.get? (env.locate (relayPartialPath directory manifest.transferId)) with
      | none => .ok none
      | some (.file id) => .ok (some (files.content id))
      | some .directory => .error .partFileNotRegular
      | some .link => .error .partFileNotRegular

/-- A file that was opened for an offer. -/
structure Opened where
  file : Option OpenFile
  offset : ℕ
  hasher : Bytes
  alreadyCompleted : Bool
deriving DecidableEq

/-- The number of the file that is open after the path was opened for writing. -/
def openedId (path : String) : ℕ :=
  match files.entries.get? (env.locate path) with
  | some (.file id) => id
  | some .directory => files.nextId
  | some .link => files.nextId
  | none => files.nextId

/-- The partial file is hashed up to the offset, opened, and emptied if the offset is 0. -/
def openPartialFile (pending : PendingRelayIncoming) (directory : String) (offset : ℕ)
    (content : Option Bytes) : Action L × Except RelayDataError Opened :=
  let path := relayPartialPath directory pending.manifest.transferId
  if env.faults.readPartFile && (offset != 0 || content.isSome) then (.keep, .error .library)
  else if env.faults.openPartFile then (.keep, .error .library)
  else
    let action := if offset = 0 then Action.truncate (env.locate path) else .keep
    if env.faults.seek then (action, .error .library)
    else
      (action, .ok
        { file := some ⟨openedId env files path, offset, false⟩
          offset := offset
          hasher := (content.getD []).take offset
          alreadyCompleted := false })

/-- **The file of an offer is opened**: nothing is opened if it is in its place already. -/
def openIncoming (pending : PendingRelayIncoming) (directory : String) :
    Action L × Except RelayDataError Opened :=
  if env.faults.createDirectory then (.keep, .error .library)
  else
    match existingCompletedFile codec env files env.faults.lookCompletedAgain pending.manifest
        directory with
    | .error error => (.keep, .error error)
    | .ok true => (.keep, .ok ⟨none, pending.manifest.fileSize, [], true⟩)
    | .ok false =>
      -- a destination that cannot be looked at counts as free
      if !env.faults.lookDestination &&
          (files.entries.get? (env.locate (finalPath directory pending.manifest))).isSome then
        (.keep, .error .destinationDiffers)
      else
        match lookPartFile env files pending.manifest directory with
        | .error error => (.keep, .error error)
        | .ok content =>
          let offset := existingPartialOffset pending.manifest content
          if !validRelayOffset offset pending.manifest.fileSize then
            (.keep, .error .partFileUnaligned)
          else openPartialFile env files pending directory offset content

end Files

/-! ## Offers are accepted -/

section Incoming

variable {σ L : Type} [DecidableEq L] (codec : RelayCodec) (services : RelayServices σ)
  (env : CallEnv L)

/-- The acceptance of an offer from an offset on. -/
def acceptanceOf (pending : PendingRelayIncoming) (offset : ℕ) : RelayAcceptance where
  v := 1
  transferId := pending.transferId
  manifestHash := pending.manifestHash
  fileHash := pending.manifest.contentHash
  offset := offset

/-- The record of a file that was opened. -/
def activeOf (pending : PendingRelayIncoming) (directory : String) (opened : Opened) :
    ActiveRelayIncoming where
  offer := pending
  file := opened.file
  temporaryPath := relayPartialPath directory pending.manifest.transferId
  finalPath := finalPath directory pending.manifest
  nextSequence := opened.offset / relayFileChunkBytes
  receivedBytes := opened.offset
  hasher := opened.hasher
  alreadyCompleted := opened.alreadyCompleted

/-- The session is paused and the offer waits again. -/
def RelayTransfers.backToPending (transfers : RelayTransfers) (pending : PendingRelayIncoming) :
    RelayTransfers :=
  { transfers with
      pendingIncoming := transfers.pendingIncoming.put pending
      manager := (pauseForNetwork transfers.manager pending.transferId).1 }

/-- The session starts, and the acceptance is sent. -/
def startIncoming (s : RelayRuntime σ L) (pending : PendingRelayIncoming) (directory : String)
    (opened : Opened) : RelayRuntime σ L × Except RelayDataError Unit :=
  let manager := s.transfers.manager
  -- a resumed session must have recorded what the partial file holds
  if ((manager.get? pending.transferId).filter (·.state == .resuming)).any
      (·.confirmedOffset != opened.offset) then
    (s, .error .checkpointDiffers)
  else
    -- the result of `update_progress` is ignored
    let progressed := (updateProgress manager pending.transferId opened.offset).1
    match markTransferring progressed pending.transferId with
    | (started, false) =>
      ({ s with transfers := { s.transfers with manager := started } }, .error .noLongerActive)
    | (started, true) =>
      let transfers := { s.transfers with manager := started }
      match services.acquirePathLeaseForRelayData s.services pending.senderId with
      | (rest, .refused) =>
        ({ s with transfers := transfers.backToPending pending, services := rest },
          .error .library)
      -- here nothing is taken back: the session stays as started, and the offer is gone
      | (rest, .withoutData) =>
        ({ s with transfers := transfers, services := rest }, .error .dataPlaneUnavailable)
      | (rest, .granted) =>
        match services.sendDataEnvelope rest dataEnvFileAccept
            (codec.encodeAcceptance (acceptanceOf pending opened.offset)) with
        | (rest, true) =>
          ({ s with
              transfers := { transfers with
                activeIncoming := transfers.activeIncoming.put
                  (activeOf pending directory opened) }
              services := rest }, .ok ())
        | (rest, false) =>
          ({ s with
              transfers := { transfers with
                activeIncoming := transfers.activeIncoming.erase pending.transferId
                }.backToPending pending
              services := rest }, .error .library)

/-- **A pending offer is accepted**: its file is opened, its session started. -/
def acceptPendingRelayIncoming (s : RelayRuntime σ L) (transferId : String) :
    RelayRuntime σ L × Except RelayDataError Unit :=
  match s.transfers.pendingIncoming.get? transferId with
  | none => (s, .error .notPending)
  | some pending =>
    -- the offer leaves the pending ones before anything can fail
    let s := { s with
      transfers := { s.transfers with
        pendingIncoming := s.transfers.pendingIncoming.erase transferId } }
    match s.receiveDirectory with
    | none => (s, .error .receiveDirectoryUnavailable)
    | some directory =>
      match openIncoming codec env s.files pending directory with
      | (action, .error error) => ({ s with files := action.apply s.files }, .error error)
      | (action, .ok opened) =>
        startIncoming codec services { s with files := action.apply s.files } pending directory
          opened

/-! ## Offers arrive -/

/-- Whether the file of an offer is in its place; without a directory it is not. -/
def completedPath (s : RelayRuntime σ L) (manifest : FileManifest) : Except RelayDataError Bool :=
  match s.receiveDirectory with
  | none => .ok false
  | some directory =>
    existingCompletedFile codec env s.files env.faults.lookCompleted manifest directory

/-- A new offer that resumes nothing is registered. -/
def registerOffer (manager : TransferManager) (pending : PendingRelayIncoming) (isNewOffer : Bool)
    (resumeOffset : Option ℕ) : TransferManager × Bool :=
  if isNewOffer && resumeOffset.isNone then
    registerIncoming manager pending.manifest pending.senderId
  else (manager, true)

/-- An offer that was recorded is resumed, registered, or accepted because its file is there. -/
def admitOffer (s : RelayRuntime σ L) (pending : PendingRelayIncoming) (isNewOffer : Bool) :
    RelayRuntime σ L × Except RelayDataError Unit :=
  match claimIncomingResume s.transfers.manager pending.manifest pending.senderId with
  | (claimed, resumeOffset) =>
    let s := { s with transfers := { s.transfers with manager := claimed } }
    match completedPath codec env s pending.manifest with
    -- the record of the offer stays
    | .error error => (s, .error error)
    | .ok completed =>
      match registerOffer claimed pending isNewOffer resumeOffset with
      -- the claim of a paused session is not taken back
      | (registered, false) =>
        ({ s with
            transfers := { s.transfers with
              pendingIncoming := s.transfers.pendingIncoming.erase pending.transferId
              manager := registered } }, .error .alreadyActive)
      | (registered, true) =>
        let s := { s with transfers := { s.transfers with manager := registered } }
        if resumeOffset.isSome || completed then
          acceptPendingRelayIncoming codec services env s pending.transferId
        else (s, .ok ())

/-- The offer may replace the one that is recorded for its transfer. -/
def sameOffer (previous pending : PendingRelayIncoming) : Bool :=
  previous.senderId == pending.senderId && previous.manifest == pending.manifest &&
    previous.manifestHash == pending.manifestHash

/-- **An offer arrives.** The task that ends an offer without an answer starts here; it is no part
of the call. -/
def receiveRelayOffer (s : RelayRuntime σ L) (senderId : String) (body : Bytes) :
    RelayRuntime σ L × Except RelayDataError Unit :=
  if senderId ∉ s.peers then (s, .error .senderNotRegistered)
  else
    match decodeOffer codec s.identity senderId body with
    | .error error => (s, .error error)
    | .ok pending =>
      if s.transfers.activeIncoming.contains pending.transferId then (s, .error .alreadyReceiving)
      else
        -- a repeated offer replaces the recorded one, with its new session
        let recorded := { s with
          transfers := { s.transfers with
            pendingIncoming := s.transfers.pendingIncoming.put pending } }
        match s.transfers.pendingIncoming.get? pending.transferId with
        | none =>
          if maxPendingIncomingTransfers ≤ s.transfers.pendingIncoming.size then
            (s, .error .tooManyPending)
          else admitOffer codec services env recorded pending true
        | some previous =>
          if !sameOffer previous pending then (s, .error .boundToOtherManifest)
          else admitOffer codec services env recorded pending false

/-! ## Chunks -/

/-- The file that a chunk of a session belongs to. -/
def chunkTarget (s : RelayRuntime σ L) (sessionId : String) :
    Option (String × ActiveRelayIncoming) :=
  s.transfers.activeIncoming.find? env.order fun _ active => active.offer.sessionId == sessionId

/-- What is written of the bytes that a write was given. -/
def FileFaults.written (faults : FileFaults) (clear : Bytes) : Bytes :=
  match faults.write with
  | some n => clear.take n
  | none => clear

/-- The file after a write was handed to it. -/
def OpenFile.after (file : OpenFile) (faults : FileFaults) (clear : Bytes) : OpenFile :=
  { file with
      position := file.position + (faults.written clear).length
      failed := faults.write.isSome }

/-- The record after a chunk was handed to its file. -/
def ActiveRelayIncoming.absorb (active : ActiveRelayIncoming) (file : OpenFile) (clear : Bytes) :
    ActiveRelayIncoming :=
  { active with
      file := some file
      hasher := active.hasher ++ clear
      receivedBytes := active.receivedBytes + clear.length
      nextSequence :=
        if active.nextSequence < u64Max then active.nextSequence + 1 else active.nextSequence }

/-- The decrypted bytes of a chunk are handed to the file. -/
def writeChunk (s : RelayRuntime σ L) (active : ActiveRelayIncoming) (file : OpenFile)
    (clear : Bytes) : RelayRuntime σ L × Except RelayDataError Unit :=
  if file.failed then
    -- `write_all` reports that the write before has failed, and writes nothing
    ({ s with
        transfers := { s.transfers with
          activeIncoming := s.transfers.activeIncoming.put
            { active with file := some { file with failed := false } } } },
      .error .library)
  else
    -- `write_all` succeeds before the bytes are written, and the hash and the counters take them
    let absorbed := active.absorb (file.after env.faults clear) clear
    let s := { s with
      files := (Action.write file.id file.position (env.faults.written clear)).apply s.files
      transfers := { s.transfers with
        activeIncoming := s.transfers.activeIncoming.put absorbed } }
    -- `checked_add` comes after the write, so the bytes stay in the file
    if active.nextSequence < u64Max then
      ({ s with
          transfers := { s.transfers with
            manager := (updateProgress s.transfers.manager active.offer.transferId
              absorbed.receivedBytes).1 } }, .ok ())
    else (s, .error .library)

/-- **A chunk arrives**: it is looked up by its session alone, whoever sent it. -/
def receiveRelayChunk (s : RelayRuntime σ L) (sessionId : String) (sequence : UInt64)
    (ciphertext : Bytes) : RelayRuntime σ L × Except RelayDataError Unit :=
  match chunkTarget env s sessionId with
  | none => (s, .error .sessionNotAccepted)
  | some (_, active) =>
    match active.file with
    | none => (s, .error .chunkReplayed)
    | some file =>
      -- 16 bytes are the tag of an empty text
      if active.alreadyCompleted || sequence.toNat != active.nextSequence ||
          decide (ciphertext.length < 16) then
        (s, .error .chunkReplayed)
      else
        let aad := fileChunkAad active.offer.cryptoSessionId active.offer.transferId
          active.offer.manifestHash sequence
        match services.decryptApplicationPayload s.services active.offer.senderId
            active.offer.cryptoSessionId aad ciphertext with
        | (rest, .error _) => ({ s with services := rest }, .error .library)
        | (rest, .ok clear) =>
          if clear.isEmpty ||
              decide (active.offer.manifest.fileSize < active.receivedBytes + clear.length) then
            ({ s with services := rest }, .error .chunkTooLong)
          else writeChunk env { s with services := rest } active file clear

/-! ## Completion -/

/-- The file that a completion names, by its transfer or by its session. -/
def completionTarget (s : RelayRuntime σ L) (sessionOrTransferId : String) :
    Option (String × ActiveRelayIncoming) :=
  s.transfers.activeIncoming.find? env.order fun transferId active =>
    transferId == sessionOrTransferId || active.offer.sessionId == sessionOrTransferId

/-- How a completion ends. -/
inductive Completion
  /-- The partial file is removed and the transfer fails. -/
  | failed (reason : TransferFailureReason) (error : RelayDataError)
  /-- Only the record of the file is gone. -/
  | abandoned (error : RelayDataError)
  /-- The file was in its place when the offer was accepted. -/
  | alreadyCompleted
  /-- The same file has come to its place meanwhile; the partial file is removed. -/
  | identical
  | renamed
deriving DecidableEq

/-- **The verdict on a completion** by `senderId`. -/
def completion (files : FileStore L) (active : ActiveRelayIncoming) (senderId : Option String) :
    Completion :=
  -- the sender is compared only now, when the record is out of the table
  if senderId ≠ some active.offer.senderId ∨
      active.receivedBytes ≠ active.offer.manifest.fileSize then
    .failed .protocol .completedEarly
  else if active.alreadyCompleted then .alreadyCompleted
  else if !relayHashMatches codec.sha256 active.hasher active.offer.manifest.contentHash then
    .failed .hashMismatch .contentHashMismatch
  -- from here on errors of the look-ups leave the session and the partial file behind
  else if active.file.isNone then .abandoned .fileUnavailable
  -- `flush` reports the failure of the last write
  else if active.file.any (·.failed) then .failed .io .library
  else if !env.faults.lookDestination &&
      (files.entries.get? (env.locate active.finalPath)).isSome then
    match existingCompletedFile codec env files env.faults.lookCompleted active.offer.manifest
        (parent active.finalPath) with
    | .error error => .abandoned error
    | .ok false => .failed .io .destinationDiffers
    | .ok true => .identical
  else if env.faults.rename ||
      !decide (files.Movable (env.locate active.temporaryPath) (env.locate active.finalPath)) then
    .failed .io .library
  else .renamed

/-- What a completion does to the files. -/
def completionAction (active : ActiveRelayIncoming) : Completion → Action L
  | .failed _ _ | .identical =>
    if env.faults.remove then .keep else .remove (env.locate active.temporaryPath)
  | .abandoned _ | .alreadyCompleted => .keep
  | .renamed => .move (env.locate active.temporaryPath) (env.locate active.finalPath)

/-- What a completion does to the session. -/
def completionManager (manager : TransferManager) (transferId : String) :
    Completion → TransferManager
  | .failed reason _ => removeTransfer (failTransfer manager transferId reason).1 transferId
  | .abandoned _ => manager
  | .alreadyCompleted | .identical | .renamed =>
    removeTransfer (markCompleted (markVerifying manager transferId).1 transferId).1 transferId

/-- The acknowledgement of a completion is sent. -/
def acknowledgeCompletion (s : RelayRuntime σ L) (transferId senderId : String) :
    RelayRuntime σ L × Except RelayDataError Unit :=
  match services.acquirePathLeaseForRelayData s.services senderId with
  | (rest, .refused) => ({ s with services := rest }, .error .library)
  | (rest, .withoutData) => ({ s with services := rest }, .error .dataPlaneUnavailable)
  | (rest, .granted) =>
    match services.sendDataEnvelope rest dataEnvFileCompleteAck (utf8 transferId) with
    | (rest, true) => ({ s with services := rest }, .ok ())
    | (rest, false) => ({ s with services := rest }, .error .library)

/-- **A completion arrives.** The record of the file is gone whatever the verdict is. -/
def completeRelayIncoming (s : RelayRuntime σ L) (sessionOrTransferId : String)
    (senderId : Option String) : RelayRuntime σ L × Except RelayDataError Unit :=
  match completionTarget env s sessionOrTransferId with
  | none => (s, .error .sessionNotAccepted)
  | some (transferId, active) =>
    let verdict := completion codec env s.files active senderId
    let ended := { s with
      files := (completionAction env active verdict).apply s.files
      transfers := { s.transfers with
        activeIncoming := s.transfers.activeIncoming.erase transferId
        manager := completionManager s.transfers.manager transferId verdict } }
    match verdict with
    | .failed _ error | .abandoned error => (ended, .error error)
    | .alreadyCompleted | .identical | .renamed =>
      acknowledgeCompletion services ended transferId active.offer.senderId

/-! ## Cancellation -/

/-- What a cancellation does to the files. -/
def cancelAction (s : RelayRuntime σ L) (sessionOrTransferId : String) : Action L :=
  match (s.transfers.cancelRelayIncoming env.order s.receiveDirectory sessionOrTransferId).2 with
  | none => .keep
  | some path => if env.faults.remove then .keep else .remove (env.locate path)

/-- **A transfer is cancelled** by its identifier or its session, whoever asks for it. -/
def cancelRelayIncoming (s : RelayRuntime σ L) (sessionOrTransferId : String) :
    RelayRuntime σ L :=
  { s with
      transfers :=
        (s.transfers.cancelRelayIncoming env.order s.receiveDirectory sessionOrTransferId).1
      files := (cancelAction env s sessionOrTransferId).apply s.files }

end Incoming

/-! ## Samples -/

/-- Codecs that hash everything to zeros and read nothing. -/
def zeroCodec : RelayCodec where
  sha256 _ := List.replicate 32 0
  decodeBase64 _ := none
  decryptApplicationOffer _ _ _ := none
  parseOffer _ := none
  parseAcceptance _ := none
  encodeAcceptance _ := []

/-- Services that grant everything, and decrypt every chunk to one byte. -/
def grantingServices : RelayServices Unit where
  acquirePathLeaseForRelayData rest _ := (rest, .granted)
  sendDataEnvelope rest _ _ := (rest, true)
  decryptApplicationPayload rest _ _ _ _ := (rest, .ok [7])
  receiveRelayChannelMessage rest _ _ _ := (rest, .ok ())
  receiveRelayDeliveryAck rest _ _ _ := (rest, .ok ())
  receiveRelayStreamFrame rest _ _ _ := (rest, .ok ())

/-- A call without faults, on paths that name their own locations. -/
def faultlessEnv : CallEnv String where
  order _ := 0
  locate := id
  faults := ⟨false, false, false, false, false, false, false, false, none, false, false⟩
  fresh := Vector.replicate _ 0

/-! ## Offers that no receiver accepts -/

/-- The transfer that `start_file_send` dispatches. -/
def startedTransfer (sessions : ConnectionSessionStore) (peerId sourcePath : String)
    (manifest : FileManifest) : ResumableTransfer where
  transferId := manifest.transferId
  peerId := peerId
  sessionId := ((currentSessionId sessions peerId).map wireKey).getD
    ("transfer:" ++ manifest.transferId)
  sourcePath := sourcePath
  manifest := manifest
  offset := 0

/-- **The transfers that are dispatched**: started, or resumed for a peer with a session. -/
inductive Dispatched : ResumableTransfer → Prop
  | started (sessions : ConnectionSessionStore) (peerId sourcePath : String)
    (manifest : FileManifest) : Dispatched (startedTransfer sessions peerId sourcePath manifest)
  | resumed {order : String → ℕ} {manager : TransferManager} {peerId : String}
    {session : SessionId} {transfer : ResumableTransfer}
    (h : transfer ∈ (takeResumableForPeer order manager peerId (wireKey session)).2) :
    Dispatched transfer

/-- The fields of the offer that `send_file_over_relay` encrypts. -/
def relayOffer (sha256 : Bytes → Bytes) (deviceId sessionId : String)
    (transfer : ResumableTransfer) : OfferValue where
  v := some 1
  cryptoSuite := some applicationCryptoSuite
  sessionId := some sessionId
  cryptoSessionId := some transfer.sessionId
  transferId := some transfer.manifest.transferId
  manifestHash := some (relayManifestHash sha256 transfer.manifest)
  senderId := some deviceId
  receiverId := some transfer.peerId
  fileName := some transfer.manifest.fileName
  fileSize := some (.ofNat transfer.manifest.fileSize)
  modifiedAt := some transfer.manifest.modifiedAt
  contentHash := some transfer.manifest.contentHash

/-- The key of a device opens the envelope, and the fields are `value`. -/
def Opens (codec : RelayCodec) (identity : Identity) (body : Bytes) (value : OfferValue) : Prop :=
  ∃ sessionId envelope, decodeUtf8 (body.take 32) = some sessionId ∧
    (decodeUtf8 (body.drop 32)).bind codec.decodeBase64 = some envelope ∧
    (codec.decryptApplicationOffer envelope identity.e2eKey sessionId).bind codec.parseOffer =
      some value

/-- What is accepted names the peer that sent the offer, one transfer, and a key session. -/
theorem checkOffer_ok {codec : RelayCodec} {identity : Identity} {senderId sessionId : String}
    {value : OfferValue} {pending : PendingRelayIncoming}
    (h : checkOffer codec identity senderId sessionId value = .ok pending) :
    (pending.senderId = senderId ∧ pending.manifest.transferId = pending.transferId) ∧
      ∃ key, value.cryptoSessionId = some key ∧ isCryptoSessionId key = true := by
  rw [checkOffer] at h
  repeat' split at h
  any_goals cases h
  rename_i key hkey _ _ _
  exact ⟨⟨rfl, rfl⟩, key, Option.filter_eq_some_iff.mp hkey⟩

theorem decodeOffer_ok {codec : RelayCodec} {identity : Option Identity} {senderId : String}
    {body : Bytes} {pending : PendingRelayIncoming}
    (h : decodeOffer codec identity senderId body = .ok pending) :
    (pending.senderId = senderId ∧ pending.manifest.transferId = pending.transferId) ∧
      ∃ identity value key, Opens codec identity body value ∧
        value.cryptoSessionId = some key ∧ isCryptoSessionId key = true := by
  rw [decodeOffer] at h
  repeat' split at h
  any_goals cases h
  obtain ⟨hnames, key, hkey⟩ := checkOffer_ok h
  exact ⟨hnames, _, _, key, ⟨_, _, by assumption, by assumption, by assumption⟩, hkey⟩

/-- A transfer is named by a wire key, which has 32 digits, or by a text that is no number. -/
theorem Dispatched.not_cryptoSessionId {transfer : ResumableTransfer} (h : Dispatched transfer) :
    isCryptoSessionId transfer.sessionId = false := by
  have hwire : ∀ session, isCryptoSessionId (wireKey session) = false := by
    intro session
    rw [isCryptoSessionId, utf8ByteSize_wireKey]
    rfl
  cases h with
  | started sessions peerId sourcePath manifest =>
    rw [startedTransfer]
    cases currentSessionId sessions peerId with
    | none =>
      have happend : utf8 ("transfer:" ++ manifest.transferId) =
          utf8 "transfer:" ++ utf8 manifest.transferId := by
        simp [utf8]
      have hletter : 116 ∈ utf8 ("transfer:" ++ manifest.transferId) :=
        happend ▸ List.mem_append_left _ (by decide)
      exact Bool.and_eq_false_iff.mpr (.inr (List.all_eq_false.mpr ⟨116, hletter, by decide⟩))
    | some session => exact hwire session
  | resumed h =>
    obtain ⟨-, -, -, -, hkey⟩ := paused_of_mem_takeResumable h
    rw [hkey]
    exact hwire _

/-- **Every offer that is sent is refused**, and changes nothing: where the receiver opens it as it
was encrypted, it names its key session by a text that is not the 16 digits it should be. -/
theorem sent_offer_refused (codec : RelayCodec) {transfer : ResumableTransfer}
    (hsent : Dispatched transfer) {body : Bytes} {deviceId sessionId : String}
    (hopens : ∀ identity value, Opens codec identity body value →
      value = relayOffer codec.sha256 deviceId sessionId transfer)
    {σ L : Type} [DecidableEq L] (services : RelayServices σ) (env : CallEnv L)
    (s : RelayRuntime σ L) (senderId : String) :
    ∃ error, receiveRelayOffer codec services env s senderId body = (s, .error error) := by
  rw [receiveRelayOffer]
  by_cases hpeer : senderId ∈ s.peers
  swap
  · exact ⟨_, if_pos hpeer⟩
  rw [if_neg (not_not.mpr hpeer)]
  cases hdecode : decodeOffer codec s.identity senderId body with
  | error error => exact ⟨error, rfl⟩
  | ok pending =>
    obtain ⟨-, identity, value, key, hopened, hkey, hvalid⟩ := decodeOffer_ok hdecode
    rw [hopens identity value hopened] at hkey
    cases hkey
    cases hsent.not_cryptoSessionId.symm.trans hvalid

/-- A codec without encryption, which reads the offer in every text. -/
def plainCodec (offer : OfferValue) : RelayCodec :=
  { zeroCodec with
    decodeBase64 text := some (utf8 text)
    decryptApplicationOffer envelope _ _ := some envelope
    parseOffer _ := some offer }

theorem sent_offer_refused_notes :
    let transfer := startedTransfer ∅ "laptop" "/notes.txt" ⟨"t1", "notes.txt", 4, 0, "", 1⟩
    Dispatched transfer ∧ ∀ {σ L : Type} [DecidableEq L] (services : RelayServices σ)
      (env : CallEnv L) (s : RelayRuntime σ L) (senderId : String) (body : Bytes),
      ∃ error, receiveRelayOffer (plainCodec (relayOffer zeroCodec.sha256 "phone" "00" transfer))
        services env s senderId body = (s, .error error) := by
  intro transfer
  refine ⟨.started .., fun services env s senderId body => ?_⟩
  have hopens : ∀ identity value,
      Opens (plainCodec (relayOffer zeroCodec.sha256 "phone" "00" transfer)) identity body value →
        value = relayOffer zeroCodec.sha256 "phone" "00" transfer := by
    rintro identity value ⟨_, _, -, -, hvalue⟩
    exact (Option.some.inj hvalue).symm
  exact sent_offer_refused _ (.started ..) hopens services env s senderId

end SshMobile.Relay
