import SshMobile.Library.Bytes
import SshMobile.Library.Keyed

/-!
# Transfer sessions

The manager of file transfers keeps one session for every transfer, whatever connection it runs on.
A lost connection pauses the sessions of its peer; the next connection claims them again.

Every operation on one session is a transition: it looks the session up, checks its state and
replaces it. The sessions of other transfers stay as they are (`get?_transition_of_ne`), and the
operations on a whole peer leave the sessions of other peers alone (`get?_pausePeerTransfers`,
`get?_takeResumableForPeer`).

## Main definitions

* `FileManifest`, `FileManifest.validate`: what is transferred
* `TransferSession`, `TransferManager`: the sessions
* `registerIncoming`, `claimIncomingResume`, `markTransferring`, …: the operations
-/

namespace SshMobile.Transfer

open Library

/-! ## Manifests -/

def networkTransferProtocolVersion : UInt32 := 1

structure FileManifest where
  transferId : String
  fileName : String
  fileSize : ℕ
  modifiedAt : Int64
  contentHash : String
  protocolVersion : UInt32
deriving DecidableEq

inductive ManifestError
  | unsafeTransferId
  | unsafeFileName
  | invalidContentHash
  | unsupportedVersion
deriving DecidableEq

def isAsciiDigit (byte : UInt8) : Bool := decide (48 ≤ byte ∧ byte ≤ 57)

def isAsciiUppercase (byte : UInt8) : Bool := decide (65 ≤ byte ∧ byte ≤ 90)

def isAsciiLowercase (byte : UInt8) : Bool := decide (97 ≤ byte ∧ byte ≤ 122)

def isAsciiAlphanumeric (byte : UInt8) : Bool :=
  isAsciiDigit byte || isAsciiUppercase byte || isAsciiLowercase byte

def isAsciiHexdigit (byte : UInt8) : Bool :=
  isAsciiDigit byte || decide (65 ≤ byte ∧ byte ≤ 70) || decide (97 ≤ byte ∧ byte ≤ 102)

/-- A single path component that is neither the directory itself nor its parent. -/
def isPlainComponent (name : String) : Bool :=
  -- 47 is `/`
  !(utf8 name).contains 47 && name != "." && name != ".."

def FileManifest.validate (manifest : FileManifest) : Except ManifestError Unit :=
  -- 45 is `-` and 95 is `_`
  if manifest.transferId.isEmpty || decide (128 < manifest.transferId.utf8ByteSize) ||
      !(utf8 manifest.transferId).all fun byte =>
        isAsciiAlphanumeric byte || byte == 45 || byte == 95 then
    .error .unsafeTransferId
  else if manifest.fileName.isEmpty || decide (255 < manifest.fileName.utf8ByteSize) ||
      -- both separators, whatever the platform: 47 is `/` and 92 is `\`
      (utf8 manifest.fileName).contains 47 || (utf8 manifest.fileName).contains 92 ||
      !isPlainComponent manifest.fileName then
    .error .unsafeFileName
  else if decide (manifest.contentHash.utf8ByteSize ≠ 64) ||
      !(utf8 manifest.contentHash).all isAsciiHexdigit then
    .error .invalidContentHash
  else if manifest.protocolVersion ≠ networkTransferProtocolVersion then
    .error .unsupportedVersion
  else .ok ()

/-! ## Sessions -/

inductive TransferFailureReason
  | hashMismatch
  | sourceChanged
  | userRejected
  | protocol
  | permission
  | retryBudgetExhausted
  | io
  | sessionReplaced
deriving DecidableEq

inductive TransferState
  | offering
  | waitingApproval
  | transferring
  | paused
  | resuming
  | verifying
  | completed
  | cancelled
  | failed (reason : TransferFailureReason)
deriving DecidableEq

namespace TransferState

/-- The states from which nothing follows. -/
def isTerminal : TransferState → Bool
  | .completed | .cancelled | .failed _ => true
  | .offering | .waitingApproval | .transferring | .paused | .resuming | .verifying => false

/-- The states of a session that a connection is working on. -/
def isRunning : TransferState → Bool
  | .offering | .waitingApproval | .transferring | .resuming | .verifying => true
  | .paused | .completed | .cancelled | .failed _ => false

/-- The states from which a transfer may start. -/
def mayStart : TransferState → Bool
  | .offering | .waitingApproval | .resuming => true
  | .transferring | .paused | .verifying | .completed | .cancelled | .failed _ => false

end TransferState

structure TransferSession where
  transferId : String
  peerId : String
  manifest : FileManifest
  confirmedOffset : ℕ
  state : TransferState
  /-- Whether the cancellation that the workers of the transfer watch has been raised. -/
  cancellation : Bool
  sourcePath : Option String
deriving DecidableEq

/-- What a dispatcher needs to start an outgoing transfer again. -/
structure ResumableTransfer where
  transferId : String
  peerId : String
  sessionId : String
  sourcePath : String
  manifest : FileManifest
  offset : ℕ
deriving DecidableEq

abbrev TransferManager := Keyed TransferSession.transferId

def newSession (manifest : FileManifest) (peerId : String) (sourcePath : Option String)
    (state : TransferState) : TransferSession where
  transferId := manifest.transferId
  peerId := peerId
  manifest := manifest
  confirmedOffset := 0
  state := state
  cancellation := false
  sourcePath := sourcePath

/-! ## The operations -/

/-- The session is paused, and belongs to the peer and the manifest. -/
def TransferSession.isPausedFor (item : TransferSession) (manifest : FileManifest)
    (peerId : String) : Bool :=
  decide (item.state = .paused ∧ item.peerId = peerId ∧ item.manifest = manifest)

def registerIncoming (manager : TransferManager) (manifest : FileManifest) (peerId : String) :
    TransferManager × Bool :=
  match manager.get? manifest.transferId with
  | none => (manager.put (newSession manifest peerId none .waitingApproval), true)
  | some item =>
    if item.isPausedFor manifest peerId then
      (manager.put { item with state := .waitingApproval }, true)
    else (manager, false)

/-- The confirmed offset of the session that is claimed. -/
def claimIncomingResume (manager : TransferManager) (manifest : FileManifest) (peerId : String) :
    TransferManager × Option ℕ :=
  match manager.get? manifest.transferId with
  | none => (manager, none)
  | some item =>
    if item.isPausedFor manifest peerId then
      (manager.put { item with state := .resuming }, some item.confirmedOffset)
    else (manager, none)

def registerOutgoing (manager : TransferManager) (manifest : FileManifest) (sourcePath : String)
    (peerId : String) : TransferManager × Bool :=
  match manager.get? manifest.transferId with
  | none => (manager.put (newSession manifest peerId (some sourcePath) .offering), true)
  | some _ => (manager, false)

/-- An operation on one session: if its state allows it, `update` replaces the session. -/
def transition (allowed : TransferState → Bool) (update : TransferSession → TransferSession)
    (manager : TransferManager) (transferId : String) : TransferManager × Bool :=
  match manager.get? transferId with
  | none => (manager, false)
  | some item =>
    if allowed item.state then (manager.put (update item), true) else (manager, false)

def markTransferring : TransferManager → String → TransferManager × Bool :=
  transition TransferState.mayStart fun item => { item with state := .transferring }

def markVerifying : TransferManager → String → TransferManager × Bool :=
  transition (· == .transferring) fun item => { item with state := .verifying }

def markCompleted : TransferManager → String → TransferManager × Bool :=
  transition (fun state => state == .transferring || state == .verifying) fun item =>
    { item with state := .completed }

def updateProgress (manager : TransferManager) (transferId : String) (bytes : ℕ) :
    TransferManager × Bool :=
  transition TransferState.isRunning (fun item => { item with confirmedOffset := bytes }) manager
    transferId

def pauseForNetwork : TransferManager → String → TransferManager × Bool :=
  transition TransferState.isRunning fun item => { item with state := .paused }

def failTransfer (manager : TransferManager) (transferId : String)
    (reason : TransferFailureReason) : TransferManager × Bool :=
  transition (fun state => !state.isTerminal) (fun item => { item with state := .failed reason })
    manager transferId

def cancelTransfer : TransferManager → String → TransferManager × Bool :=
  transition (fun state => !state.isTerminal) fun item =>
    { item with cancellation := true, state := .cancelled }

/-- The session after a new connection has claimed the paused transfers of its peer. -/
def TransferSession.takenFor (item : TransferSession) (peerId : String) : TransferSession :=
  if item.state = .paused ∧ item.peerId = peerId ∧ item.sourcePath.isSome then
    { item with state := .resuming }
  else item

open TransferSession

theorem transferId_takenFor (item : TransferSession) (peerId : String) :
    (item.takenFor peerId).transferId = item.transferId := by
  rw [takenFor]
  split_ifs <;> rfl

/-- The transfers that a new connection starts again, in the iteration order `order`. -/
def takeResumableForPeer (order : String → ℕ) (manager : TransferManager) (peerId : String)
    (sessionId : String) : TransferManager × List ResumableTransfer :=
  (manager.modify (fun item => item.takenFor peerId) (transferId_takenFor · peerId),
    (manager.iter order).filterMap fun entry =>
      match entry.2.sourcePath with
      | none => none
      | some sourcePath =>
        -- incoming transfers have no source path: the peer has to offer them again
        if entry.2.state = .paused ∧ entry.2.peerId = peerId then
          some ⟨entry.2.transferId, entry.2.peerId, sessionId, sourcePath, entry.2.manifest,
            entry.2.confirmedOffset⟩
        else none)

/-- The session after the connection of a peer was lost. -/
def TransferSession.pausedFor (item : TransferSession) (peerId : String) : TransferSession :=
  if item.peerId = peerId ∧ item.state.isRunning then { item with state := .paused } else item

theorem transferId_pausedFor (item : TransferSession) (peerId : String) :
    (item.pausedFor peerId).transferId = item.transferId := by
  rw [pausedFor]
  split_ifs <;> rfl

def pausePeerTransfers (manager : TransferManager) (peerId : String) : TransferManager :=
  manager.modify (fun item => item.pausedFor peerId) (transferId_pausedFor · peerId)

/-- The transfers that `pausePeerTransfers` pauses, in the iteration order `order`. -/
def pausedIds (order : String → ℕ) (manager : TransferManager) (peerId : String) : List String :=
  (manager.iter order).filterMap fun entry =>
    if entry.2.peerId = peerId ∧ entry.2.state.isRunning then some entry.2.transferId else none

def removeTransfer (manager : TransferManager) (transferId : String) : TransferManager :=
  manager.erase transferId

/-! ## What the operations leave alone -/

section Frames

variable {manager : TransferManager} {transferId id : String}

variable {allowed : TransferState → Bool} {update : TransferSession → TransferSession}
  {manifest : FileManifest} {order : String → ℕ}

/-- **A transition** replaces one session, if its state allows it. -/
theorem get?_transition (hupdate : ∀ item, (update item).transferId = item.transferId) :
    (transition allowed update manager transferId).1.get? id =
      if id = transferId then
        (manager.get? id).map fun item => if allowed item.state then update item else item
      else manager.get? id := by
  rw [transition]
  rcases hitem : manager.get? transferId with _ | item
  · split_ifs with hid
    · rw [hid, hitem, Option.map_none]
    · rfl
  -- the session keeps its identifier, so it is stored where it was found
  · have hkey : (update item).transferId = transferId := by
      rw [hupdate, Keyed.key_of_get? hitem]
    rw [apply_ite Prod.fst, Keyed.get?_ite_put hitem hkey]
    by_cases hid : id = transferId
    · rw [if_pos hid, if_pos hid, hid, hitem, Option.map_some]
    · rw [if_neg hid, if_neg hid]

variable {item : TransferSession}

theorem transition_of_allowed (hitem : manager.get? transferId = some item)
    (hallowed : allowed item.state = true) :
    transition allowed update manager transferId = (manager.put (update item), true) := by
  rw [transition, hitem]
  exact if_pos hallowed

/-- A transition that was done. -/
theorem transition_true {manager' : TransferManager}
    (h : transition allowed update manager transferId = (manager', true)) :
    ∃ item, manager.get? transferId = some item ∧ allowed item.state = true ∧
      manager' = manager.put (update item) := by
  rw [transition] at h
  rcases hitem : manager.get? transferId with _ | item
  · rw [hitem] at h
    exact absurd (Prod.mk.inj h).2 Bool.false_ne_true
  · rw [hitem] at h
    dsimp only at h
    split_ifs at h with hallowed
    · exact ⟨item, rfl, hallowed, (Prod.mk.inj h).1.symm⟩
    · exact absurd (Prod.mk.inj h).2 Bool.false_ne_true

theorem get?_markTransferring :
    (markTransferring manager transferId).1.get? id =
      if id = transferId then
        (manager.get? id).map fun item =>
          if item.state.mayStart then { item with state := .transferring } else item
      else manager.get? id :=
  get?_transition fun _ => rfl

theorem get?_updateProgress {bytes : ℕ} :
    (updateProgress manager transferId bytes).1.get? id =
      if id = transferId then
        (manager.get? id).map fun item =>
          if item.state.isRunning then { item with confirmedOffset := bytes } else item
      else manager.get? id :=
  get?_transition fun _ => rfl

theorem get?_pauseForNetwork :
    (pauseForNetwork manager transferId).1.get? id =
      if id = transferId then
        (manager.get? id).map fun item =>
          if item.state.isRunning then { item with state := .paused } else item
      else manager.get? id :=
  get?_transition fun _ => rfl

/-- **A transition leaves other transfers alone.** -/
theorem get?_transition_of_ne (hupdate : ∀ item, (update item).transferId = item.transferId)
    (hne : id ≠ transferId) :
    (transition allowed update manager transferId).1.get? id = manager.get? id := by
  rw [get?_transition hupdate, if_neg hne]

variable {peerId : String}

/-- **Registering an incoming transfer** makes its session, or lets a paused one wait again. -/
theorem get?_registerIncoming :
    (registerIncoming manager manifest peerId).1.get? id =
      if id = manifest.transferId then
        match manager.get? id with
        | none => some (newSession manifest peerId none .waitingApproval)
        | some item =>
          some (if item.isPausedFor manifest peerId then { item with state := .waitingApproval }
            else item)
      else manager.get? id := by
  rw [registerIncoming]
  rcases hitem : manager.get? manifest.transferId with _ | item
  · have hkey : (newSession manifest peerId none .waitingApproval).transferId =
        manifest.transferId := rfl
    rw [Keyed.get?_put, hkey]
    split_ifs with hid
    · rw [hid, hitem]
    · rfl
  · rw [apply_ite Prod.fst]
    refine Eq.trans (Keyed.get?_ite_put hitem (Keyed.key_of_get? (v := item) hitem)) ?_
    by_cases hid : id = manifest.transferId
    · rw [if_pos hid, if_pos hid, hid, hitem]
    · rw [if_neg hid, if_neg hid]

/-- **Claiming an incoming transfer** resumes its session if it is paused. -/
theorem get?_claimIncomingResume :
    (claimIncomingResume manager manifest peerId).1.get? id =
      if id = manifest.transferId then
        (manager.get? id).map fun item =>
          if item.isPausedFor manifest peerId then { item with state := .resuming } else item
      else manager.get? id := by
  rw [claimIncomingResume]
  rcases hitem : manager.get? manifest.transferId with _ | item
  · split_ifs with hid
    · rw [hid, hitem, Option.map_none]
    · rfl
  · rw [apply_ite Prod.fst]
    refine Eq.trans (Keyed.get?_ite_put hitem (Keyed.key_of_get? (v := item) hitem)) ?_
    by_cases hid : id = manifest.transferId
    · rw [if_pos hid, if_pos hid, hid, hitem, Option.map_some]
    · rw [if_neg hid, if_neg hid]

theorem get?_registerIncoming_of_ne (hne : id ≠ manifest.transferId) :
    (registerIncoming manager manifest peerId).1.get? id = manager.get? id := by
  rw [get?_registerIncoming, if_neg hne]

theorem get?_claimIncomingResume_of_ne (hne : id ≠ manifest.transferId) :
    (claimIncomingResume manager manifest peerId).1.get? id = manager.get? id := by
  rw [get?_claimIncomingResume, if_neg hne]

theorem isPausedFor_of_peer_ne
    (h : item.peerId ≠ peerId) : item.isPausedFor manifest peerId = false := by
  simp [isPausedFor, h]

section

variable (hitem : manager.get? manifest.transferId = some item) (h : item.peerId ≠ peerId)

include hitem h

/-- A session of another peer is neither claimed nor registered again. -/
theorem claimIncomingResume_of_peer_ne :
    claimIncomingResume manager manifest peerId = (manager, none) := by
  simp only [claimIncomingResume, hitem, isPausedFor_of_peer_ne h]
  rfl

theorem registerIncoming_of_peer_ne :
    registerIncoming manager manifest peerId = (manager, false) := by
  simp only [registerIncoming, hitem, isPausedFor_of_peer_ne h]
  rfl

end

theorem get?_removeTransfer_of_ne (hne : id ≠ transferId) :
    (removeTransfer manager transferId).get? id = manager.get? id :=
  Keyed.get?_erase_of_ne hne _

/-- **Pausing the transfers of a peer** pauses its running sessions and no others. -/
theorem get?_pausePeerTransfers (manager : TransferManager) (peerId id : String) :
    (pausePeerTransfers manager peerId).get? id =
      (manager.get? id).map fun item => item.pausedFor peerId :=
  Keyed.get?_modify _ (transferId_pausedFor · peerId) _ _

theorem mem_pausedIds :
    id ∈ pausedIds order manager peerId ↔
      ∃ item, manager.get? id = some item ∧ item.peerId = peerId ∧ item.state.isRunning := by
  exact Keyed.mem_keys_iter (t := manager)
    (p := fun item : TransferSession => item.peerId = peerId ∧ item.state.isRunning)

theorem get?_takeResumableForPeer (order : String → ℕ) (manager : TransferManager)
    (peerId sessionId id : String) :
    (takeResumableForPeer order manager peerId sessionId).1.get? id =
      (manager.get? id).map fun item => item.takenFor peerId :=
  Keyed.get?_modify _ (transferId_takenFor · peerId) _ _

theorem pausedFor_of_peer_ne (h : item.peerId ≠ peerId) :
    item.pausedFor peerId = item := by
  rw [pausedFor, if_neg (fun hif => h hif.1)]

theorem takenFor_of_peer_ne (h : item.peerId ≠ peerId) :
    item.takenFor peerId = item := by
  rw [takenFor, if_neg (fun hif => h hif.2.1)]

/-- Every transfer that is started again is a paused one of the peer, for the session. -/
theorem paused_of_mem_takeResumable {sessionId : String} {transfer : ResumableTransfer}
    (h : transfer ∈ (takeResumableForPeer order manager peerId sessionId).2) :
    ∃ item, manager.get? transfer.transferId = some item ∧ item.state = .paused ∧
      item.peerId = peerId ∧ transfer.sessionId = sessionId := by
  simp only [takeResumableForPeer, List.mem_filterMap, Prod.exists] at h
  obtain ⟨key, item, hmem, hsome⟩ := h
  rw [Keyed.mem_iter] at hmem
  split at hsome
  · cases hsome
  · split_ifs at hsome with hpaused
    cases hsome
    refine ⟨item, ?_, hpaused.1, hpaused.2, rfl⟩
    rwa [Keyed.key_of_get? hmem]

end Frames

/-! ## Paused sessions -/

section Sessions

variable (item : TransferSession) (peerId : String)

theorem pausedFor_idem : (item.pausedFor peerId).pausedFor peerId = item.pausedFor peerId := by
  simp only [pausedFor]
  split_ifs <;> rfl

@[simp] theorem peerId_pausedFor : (item.pausedFor peerId).peerId = item.peerId := by
  rw [pausedFor]
  split_ifs <;> rfl

variable {state : TransferState}

theorem isTerminal_of_isRunning (h : state.isRunning = true) : state.isTerminal = false := by
  cases state <;> first | rfl | exact absurd h Bool.false_ne_true

theorem isRunning_of_mayStart (h : state.mayStart = true) : state.isRunning = true := by
  cases state <;> first | rfl | exact absurd h Bool.false_ne_true

@[simp] theorem isTerminal_pausedFor :
    (item.pausedFor peerId).state.isTerminal = item.state.isTerminal := by
  rw [pausedFor]
  split_ifs with h
  · rw [isTerminal_of_isRunning h.2]
    rfl
  · rfl

/-- A session of the peer is not running once it was paused. -/
theorem isRunning_pausedFor {item : TransferSession} {peerId : String} (h : item.peerId = peerId) :
    (item.pausedFor peerId).state.isRunning = false := by
  rw [pausedFor]
  split_ifs with hif
  · rfl
  · exact Bool.eq_false_iff.mpr fun hrun => hif ⟨h, hrun⟩

end Sessions

end SshMobile.Transfer
