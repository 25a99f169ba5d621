import SshMobile.Delivery.Incoming
import SshMobile.Relay.Runtime

/-!
# The handshake over a relay

Two devices agree on keys by a handshake whose messages travel in envelopes of the data plane. The
responder reads the greeting, answers it, and admits a session for the peer that the final message
authenticates; the confirmation completes the admission, publishes the relay path and resumes what
the peer's last connection left paused.

The messages themselves are made and read by a library (`RelayNoise`). A session that is replaced or
fails takes its connection with it, and pauses the transfers of its peer.

## Main definitions

* `DataPlane`: the runtime with the sessions and the handshakes
* `handleRelayCryptoHandshake`: a message of the handshake arrives
* `OnlyPeer`: only the sessions of one peer's transfers may differ

## Main results

* `handshake_keepsOthers`: a message that replaces no connection leaves the transfers of other peers
  alone
* `handshake_replaces`: one that does pauses the transfers of the peer that it authenticates, which
  need not be the one that sent it
-/

namespace SshMobile.Relay

open Library Transfer Crypto Connection

/-! ## The library and the sessions -/

/-- What a handshake leaves to the two sides. -/
structure SessionCryptoMaterial where
  rootKey : Key
  localSessionBinding : String
  remoteSessionBinding : String
  initiator : Bool
  e2eePolicy : E2eePolicy
  hasApplicationE2ee : Bool
deriving DecidableEq

/-- **The library of the handshake**; `R` is a responder that has answered a greeting, `X` one that
waits for the confirmation. -/
structure RelayNoise (R X : Type) where
  acceptHello : Identity → Bytes → Option (R × Bytes)
  sessionBinding : R → String
  /-- The peer and the key that a final message proves, unless it is bound to another session. -/
  readFinal : R → Bytes → Option (String × Key)
  verifyProof : R → Bytes → String → Key → Bool
  /-- The responder with its own binding, and the encrypted seed. -/
  beginResponder : R → Bytes → String → Option (X × Bytes)
  acceptConfirm : X → Bytes → Option (Bytes × SessionCryptoMaterial)

/-- A responder that has admitted a session and waits for the confirmation. -/
structure RelayResponderConfirmation (X : Type) where
  peerId : String
  exchange : X
  admission : ConnectionAdmission

/-- The rest of the runtime as sessions use it. -/
structure SessionServices (σ : Type) where
  closeTransportPath : σ → String → σ
  closeTransportPathForSession : σ → String → SessionId → σ
  /-- The keys, streams, calls and tasks of a session end. -/
  retireSessionResources : σ → String → SessionId → σ
  installCryptoMaterial : σ → String → String → SessionCryptoMaterial → σ × Bool
  removeCryptoSession : σ → String → String → σ
  publishRelayPath : σ → String → SessionId → σ × Bool
  recoverSession : σ → String → σ
  selectAttempt : σ → String → String → σ × Bool
  dispatchOutgoing : σ → ResumableTransfer → σ
  /-- Whether the initiator still waits for the message. -/
  notifyInitiator : σ → String → UInt8 → Bytes → σ × Bool

/-- **The data plane**: the runtime, the sessions of the peers and the handshakes. -/
structure DataPlane (σ L R X : Type) [DecidableEq L] extends RelayRuntime σ L where
  relayPathReady : Finset String
  relayAuthorized : String → Bool
  e2eePolicy : String → E2eePolicy
  trustedPeerKeys : Table String Key
  sessions : ConnectionSessionStore
  cryptoWaiters : Finset String
  cryptoResponders : Table String R
  cryptoConfirmers : Table String (RelayResponderConfirmation X)

def maxPendingRelayCryptoHandshakes : ℕ := 64

def relayCryptoKey (peerId sessionToken : String) : String := peerId ++ "/" ++ sessionToken

/-! ## Messages -/

inductive RelayCryptoStep
  | hello
  | response
  | final
  | rootSeed
  | rootConfirm
  | accept
deriving DecidableEq

def RelayCryptoStep.code : RelayCryptoStep → UInt8
  | .hello => 1
  | .response => 2
  | .final => 3
  | .rootSeed => 4
  | .rootConfirm => 5
  | .accept => 6

def RelayCryptoStep.tryFrom (value : UInt8) : Option RelayCryptoStep :=
  match value with
  | 1 => some .hello
  | 2 => some .response
  | 3 => some .final
  | 4 => some .rootSeed
  | 5 => some .rootConfirm
  | 6 => some .accept
  | _ => none

def maxHandshakeFrameBytes : ℕ := 64 * 1024

def encodeRelayFrame (step : RelayCryptoStep) (payload : Bytes) : Option Bytes :=
  if payload.isEmpty || decide (maxHandshakeFrameBytes < payload.length) then none
  else some (step.code :: payload)

def decodeRelayFrame (frame : Bytes) : Option (RelayCryptoStep × Bytes) :=
  match frame with
  | [] => none
  | code :: payload =>
    match RelayCryptoStep.tryFrom code with
    | none => none
    | some step =>
      if payload.isEmpty || decide (maxHandshakeFrameBytes < payload.length) then none
      else some (step, payload)

/-! ## Sessions end, and transfers resume -/

section Sessions

variable {σ L R X : Type} [DecidableEq L] (ports : SessionServices σ) (env : CallEnv L)

/-- The resources of a session end, and the transfers of its peer are paused. -/
def cancelSessionTasks (s : DataPlane σ L R X) (peerId : String) (sessionId : SessionId) :
    DataPlane σ L R X :=
  { s with
      services := ports.retireSessionResources s.services peerId sessionId
      transfers := { s.transfers with manager := pausePeerTransfers s.transfers.manager peerId } }

def failSession (s : DataPlane σ L R X) (peerId : String) (sessionId : SessionId) :
    DataPlane σ L R X :=
  let s := { s with
    services := ports.closeTransportPathForSession s.services peerId sessionId }
  -- only the owner of the current session ends its tasks
  match retireSession s.sessions peerId sessionId with
  | (sessions, true) => cancelSessionTasks ports { s with sessions := sessions } peerId sessionId
  | (_, false) => s

/-- **A session is admitted** for an authenticated peer; the one it replaces ends. -/
def DataPlane.admitSession (s : DataPlane σ L R X) (peerId remoteSessionBinding : String) :
    DataPlane σ L R X × Except ConnectionAdmissionError ConnectionAdmission :=
  match admitAuthenticatedSession s.sessions env.fresh peerId none remoteSessionBinding with
  | (sessions, .error error) => ({ s with sessions := sessions }, .error error)
  | (sessions, .ok admission) =>
    let s := { s with sessions := sessions }
    match admission.replacedSessionId with
    | none => (s, .ok admission)
    | some replaced =>
      (cancelSessionTasks ports
        { s with services := ports.closeTransportPath s.services peerId } peerId replaced,
        .ok admission)

/-- One transfer is given a path, or paused again. -/
def resumeTransfer (s : DataPlane σ L R X) (transfer : ResumableTransfer) : DataPlane σ L R X :=
  match ports.selectAttempt s.services transfer.peerId transfer.transferId with
  | (rest, true) => { s with services := ports.dispatchOutgoing rest transfer }
  | (rest, false) =>
    { s with
        services := rest
        transfers := { s.transfers with
          manager := (pauseForNetwork s.transfers.manager transfer.transferId).1 } }

/-- **The paused transfers of a peer resume** on its new connection. -/
def resumeTransfersForPeer (s : DataPlane σ L R X) (peerId : String) : DataPlane σ L R X :=
  if !Delivery.isValidPeerId peerId then s
  else
    match currentSessionId s.sessions peerId with
    | none => s
    | some sessionId =>
      -- all of them are claimed at once, and those without a path are paused again one by one
      match takeResumableForPeer env.order s.transfers.manager peerId (wireKey sessionId) with
      | (manager, transfers) =>
        transfers.foldl (resumeTransfer ports)
          { s with transfers := { s.transfers with manager := manager } }

/-! ## The responder -/

variable (services : RelayServices σ) (noise : RelayNoise R X)

/-- A message of the handshake is sent. -/
def sendRelayCryptoRaw (s : DataPlane σ L R X) (sessionToken : String) (frame : Bytes) :
    DataPlane σ L R X × Except RelayDataError Unit :=
  match services.sendDataEnvelope s.services dataEnvCrypto (utf8 sessionToken ++ frame) with
  | (rest, true) => ({ s with services := rest }, .ok ())
  | (rest, false) => ({ s with services := rest }, .error .library)

/-- A step of the handshake is encoded and sent. -/
def sendRelayCrypto (s : DataPlane σ L R X) (sessionToken : String) (step : RelayCryptoStep)
    (payload : Bytes) : DataPlane σ L R X × Except RelayDataError Unit :=
  match encodeRelayFrame step payload with
  | none => (s, .error .library)
  | some frame => sendRelayCryptoRaw services s sessionToken frame

/-- A message for the side that started the handshake. -/
def forwardToInitiator (s : DataPlane σ L R X) (key : String) (step : RelayCryptoStep)
    (payload : Bytes) : DataPlane σ L R X × Except RelayDataError Unit :=
  if key ∉ s.cryptoWaiters then (s, .error .noInitiator)
  else
    match ports.notifyInitiator s.services key step.code payload with
    | (rest, true) => ({ s with services := rest }, .ok ())
    | (rest, false) => ({ s with services := rest }, .error .initiatorGone)

/-- A greeting is answered. -/
def acceptHello (s : DataPlane σ L R X) (sessionToken key : String) (payload : Bytes) :
    DataPlane σ L R X × Except RelayDataError Unit :=
  -- a new greeting ends the handshake that waits for its confirmation
  let s := { s with cryptoConfirmers := s.cryptoConfirmers.erase key }
  match s.identity with
  | none => (s, .error .identityUnavailable)
  | some identity =>
    match noise.acceptHello identity payload with
    | none => (s, .error .library)
    | some (responder, response) =>
      if maxPendingRelayCryptoHandshakes ≤ s.cryptoResponders.size &&
          !s.cryptoResponders.contains key then
        (s, .error .responderQueueFull)
      else
        sendRelayCrypto services
          { s with cryptoResponders := s.cryptoResponders.insert key responder } sessionToken
          .response response

/-- The peer that a final message authenticates: its proof is under the key that is trusted. -/
def authenticatedPeer (s : DataPlane σ L R X) (responder : R) (payload : Bytes) : Option String :=
  match noise.readFinal responder payload with
  | none => none
  | some (peerId, peerKey) =>
    if s.trustedPeerKeys.get? peerId = some peerKey ∧
        noise.verifyProof responder payload peerId peerKey then
      some peerId
    else none

/-- **The final message**: a session is admitted for the peer that it authenticates, and only then
that peer is compared with the one whose envelope it was. -/
def acceptFinal (s : DataPlane σ L R X) (sessionToken peerId key : String) (payload : Bytes) :
    DataPlane σ L R X × Except RelayDataError Unit :=
  match s.cryptoResponders.get? key with
  | none => (s, .error .noResponder)
  | some responder =>
    -- the responder is used up, whatever comes of the message
    let s := { s with cryptoResponders := s.cryptoResponders.erase key }
    match authenticatedPeer noise s responder payload with
    | none => (s, .error .library)
    | some authenticatedPeerId =>
      match s.admitSession ports env authenticatedPeerId (noise.sessionBinding responder) with
      | (s, .error _) => (s, .error .library)
      | (s, .ok admission) =>
        match noise.beginResponder responder payload (wireKey admission.sessionId) with
        | none => (s, .error .library)
        | some (exchange, encryptedSeed) =>
          if authenticatedPeerId ≠ peerId then (s, .error .identityMismatch)
          else if maxPendingRelayCryptoHandshakes ≤ s.cryptoConfirmers.size &&
              !s.cryptoConfirmers.contains key then
            (s, .error .confirmerQueueFull)
          else
            sendRelayCrypto services
              { s with
                  cryptoConfirmers := s.cryptoConfirmers.insert key
                    ⟨authenticatedPeerId, exchange, admission⟩ } sessionToken .rootSeed
              encryptedSeed

/-- The keys of an admitted session are installed. -/
def installAdmittedCrypto (s : DataPlane σ L R X) (peerId : String)
    (admission : ConnectionAdmission) (material : SessionCryptoMaterial) :
    DataPlane σ L R X × Except RelayDataError Unit :=
  if !material.hasApplicationE2ee then (s, .ok ())
  else if currentSessionId s.sessions peerId ≠ some admission.sessionId then
    (failSession ports s peerId admission.sessionId, .error .installStale)
  else
    match ports.installCryptoMaterial s.services peerId (wireKey admission.sessionId) material with
    | (rest, true) => ({ s with services := rest }, .ok ())
    | (rest, false) =>
      (failSession ports { s with services := rest } peerId admission.sessionId,
        .error .installFailed)

def markRelayRouteConnected (s : DataPlane σ L R X) (peerId : String) (sessionId : SessionId) :
    DataPlane σ L R X × Bool :=
  if currentSessionId s.sessions peerId ≠ some sessionId ∨ s.relayAuthorized peerId = false then
    (s, false)
  else
    match ports.publishRelayPath s.services peerId sessionId with
    | (rest, published) => ({ s with services := rest }, published)

/-- **The admission is completed**: the keys are installed, the path is published, and what was
paused resumes. -/
def completeRelayAdmission (s : DataPlane σ L R X) (sessionToken peerId : String)
    (material : SessionCryptoMaterial) (admission : ConnectionAdmission) :
    DataPlane σ L R X × Except RelayDataError Unit :=
  let sessionId := admission.sessionId
  if s.e2eePolicy peerId ≠ .required ∨ material.e2eePolicy ≠ .required then
    (failSession ports s peerId sessionId, .error .policyNotRequired)
  else if material.localSessionBinding ≠ wireKey sessionId ∨
      material.remoteSessionBinding ≠ sessionToken then
    (failSession ports s peerId sessionId, .error .bindingInvalid)
  -- the profile of a relay has every capability that is asked for here
  else if currentSessionId s.sessions peerId ≠ some sessionId then
    (failSession ports s peerId sessionId, .error .capabilityMissing)
  else
    match finalizeAuthenticatedSession s.sessions peerId sessionId
        material.remoteSessionBinding with
    | (_, .error _) => (failSession ports s peerId sessionId, .error .admissionStale)
    | (sessions, .ok ()) =>
      match installAdmittedCrypto ports { s with sessions := sessions } peerId admission
          material with
      | (s, .error error) => (s, .error error)
      | (s, .ok ()) =>
        match markRelayRouteConnected ports s peerId sessionId with
        | (s, false) =>
          (failSession ports
            { s with
                services := ports.removeCryptoSession s.services peerId (wireKey sessionId) }
            peerId sessionId, .error .closedBeforeCommit)
        | (s, true) =>
          (resumeTransfersForPeer ports env
            { s with
                relayPathReady := insert peerId s.relayPathReady
                services := ports.recoverSession s.services peerId } peerId, .ok ())

/-- **The confirmation** of the handshake. -/
def acceptRootConfirm (s : DataPlane σ L R X) (sessionToken peerId key : String)
    (payload : Bytes) : DataPlane σ L R X × Except RelayDataError Unit :=
  match s.cryptoConfirmers.get? key with
  | none => (s, .error .noConfirmer)
  | some confirmer =>
    let s := { s with cryptoConfirmers := s.cryptoConfirmers.erase key }
    match noise.acceptConfirm confirmer.exchange payload with
    | none => (s, .error .library)
    | some (encryptedAccept, material) =>
      if confirmer.peerId ≠ peerId then (s, .error .confirmationMismatch)
      else
        match sendRelayCrypto services s sessionToken .accept encryptedAccept with
        | (s, .error error) => (s, .error error)
        | (s, .ok ()) =>
          completeRelayAdmission ports env s sessionToken peerId material confirmer.admission

/-- **A message of the handshake arrives.** -/
def handleRelayCryptoHandshake (s : DataPlane σ L R X) (sessionToken peerId : String)
    (frameBytes : Bytes) : DataPlane σ L R X × Except RelayDataError Unit :=
  if !isSessionToken sessionToken || peerId.isEmpty || decide (peerId ∉ s.peers) ||
      !s.relayAuthorized peerId then
    (s, .error .handshakeNotBound)
  else if s.e2eePolicy peerId ≠ .required then (s, .error .e2eeRequired)
  else
    let key := relayCryptoKey peerId sessionToken
    match decodeRelayFrame frameBytes with
    | none => (s, .error .library)
    | some (.response, payload) => forwardToInitiator ports s key .response payload
    | some (.rootSeed, payload) => forwardToInitiator ports s key .rootSeed payload
    | some (.accept, payload) => forwardToInitiator ports s key .accept payload
    | some (.hello, payload) => acceptHello services noise s sessionToken key payload
    | some (.final, payload) =>
      acceptFinal ports env services noise s sessionToken peerId key payload
    | some (.rootConfirm, payload) =>
      acceptRootConfirm ports env services noise s sessionToken peerId key payload

end Sessions

/-! ## What a handshake leaves alone -/

/-- **Only the sessions of one peer's transfers differ.** -/
def OnlyPeer (peerId : String) (manager manager' : TransferManager) : Prop :=
  ∀ id, (∀ item, manager.get? id = some item → item.peerId ≠ peerId) →
    manager'.get? id = manager.get? id

theorem OnlyPeer.refl (peerId : String) (manager : TransferManager) :
    OnlyPeer peerId manager manager :=
  fun _ _ => rfl

theorem OnlyPeer.trans {peerId : String} {m₁ m₂ m₃ : TransferManager} (h : OnlyPeer peerId m₁ m₂)
    (h' : OnlyPeer peerId m₂ m₃) : OnlyPeer peerId m₁ m₃ := by
  grind [OnlyPeer]

theorem onlyPeer_pausePeerTransfers (manager : TransferManager) (peerId : String) :
    OnlyPeer peerId manager (pausePeerTransfers manager peerId) := by
  intro id hother
  rw [get?_pausePeerTransfers]
  rcases hitem : manager.get? id with _ | item
  · rfl
  · grind [pausedFor_of_peer_ne]

theorem onlyPeer_takeResumableForPeer (order : String → ℕ) (manager : TransferManager)
    (peerId sessionId : String) :
    OnlyPeer peerId manager (takeResumableForPeer order manager peerId sessionId).1 := by
  intro id hother
  rw [get?_takeResumableForPeer]
  rcases hitem : manager.get? id with _ | item
  · rfl
  · grind [takenFor_of_peer_ne]

section Handshake

variable {σ L R X : Type} [DecidableEq L]

/-- **The transfers of other peers are as they were**: the files and the tables are the same, and so
are the sessions of the transfers that are not with `peerId`. -/
structure KeepsOthers (peerId : String) (s s' : DataPlane σ L R X) : Prop where
  files : s'.files = s.files
  pendingIncoming : s'.transfers.pendingIncoming = s.transfers.pendingIncoming
  activeIncoming : s'.transfers.activeIncoming = s.transfers.activeIncoming
  acceptances : s'.transfers.acceptances = s.transfers.acceptances
  completions : s'.transfers.completions = s.transfers.completions
  manager : OnlyPeer peerId s.transfers.manager s'.transfers.manager

variable {s s' s'' : DataPlane σ L R X} {peerId : String}

/-- A step that has not touched the transfers. -/
theorem KeepsOthers.of_eq (hfiles : s'.files = s.files) (htransfers : s'.transfers = s.transfers) :
    KeepsOthers peerId s s' := by
  refine ⟨hfiles, ?_, ?_, ?_, ?_, ?_⟩
  all_goals rw [htransfers]
  exact OnlyPeer.refl _ _

theorem KeepsOthers.trans (h : KeepsOthers peerId s s') (h' : KeepsOthers peerId s' s'') :
    KeepsOthers peerId s s'' where
  files := h'.files.trans h.files
  pendingIncoming := h'.pendingIncoming.trans h.pendingIncoming
  activeIncoming := h'.activeIncoming.trans h.activeIncoming
  acceptances := h'.acceptances.trans h.acceptances
  completions := h'.completions.trans h.completions
  manager := h.manager.trans h'.manager

/-- A step that has only touched the sessions of the peer. -/
theorem KeepsOthers.of_manager {manager : TransferManager} {rest : σ}
    (h : OnlyPeer peerId s.transfers.manager manager) :
    KeepsOthers peerId s
      { s with services := rest, transfers := { s.transfers with manager := manager } } :=
  ⟨rfl, rfl, rfl, rfl, rfl, h⟩

variable {ports : SessionServices σ} {env : CallEnv L} {services : RelayServices σ}
  {noise : RelayNoise R X}

theorem keepsOthers_cancelSessionTasks (sessionId : SessionId) :
    KeepsOthers peerId s (cancelSessionTasks ports s peerId sessionId) :=
  .of_manager (onlyPeer_pausePeerTransfers _ _)

theorem keepsOthers_failSession (sessionId : SessionId) :
    KeepsOthers peerId s (failSession ports s peerId sessionId) := by
  rw [failSession]
  generalize retireSession s.sessions peerId sessionId = retired
  obtain ⟨sessions, _ | _⟩ := retired
  · exact .of_eq rfl rfl
  · refine KeepsOthers.trans ?_ (keepsOthers_cancelSessionTasks sessionId)
    exact .of_eq rfl rfl

/-- One transfer that is resumed leaves the others alone. -/
theorem get?_resumeTransfer {transfer : ResumableTransfer} {id : String}
    (hne : id ≠ transfer.transferId) :
    (resumeTransfer ports s transfer).transfers.manager.get? id = s.transfers.manager.get? id := by
  grind [resumeTransfer, get?_pauseForNetwork]

/-- Resuming transfers touches nothing but their sessions. -/
theorem keepsOthers_foldl_resumeTransfer {transfers : List ResumableTransfer} :
    ∀ {s : DataPlane σ L R X},
      (∀ transfer ∈ transfers, ∃ item, s.transfers.manager.get? transfer.transferId = some item ∧
        item.peerId = peerId) →
      KeepsOthers peerId s (transfers.foldl (resumeTransfer ports) s) := by
  induction transfers with
  | nil => exact fun _ => .of_eq rfl rfl
  | cons transfer transfers ih =>
    intro s hpeer
    have hstep : KeepsOthers peerId s (resumeTransfer ports s transfer) := by
      have honly : OnlyPeer peerId s.transfers.manager
          (resumeTransfer ports s transfer).transfers.manager := by
        grind [get?_resumeTransfer, List.mem_cons_self, OnlyPeer]
      rw [resumeTransfer] at honly ⊢
      generalize ports.selectAttempt s.services transfer.peerId transfer.transferId = attempt
        at honly ⊢
      obtain ⟨rest, _ | _⟩ := attempt
      · exact .of_manager honly
      · exact .of_eq rfl rfl
    refine hstep.trans (ih fun other hmem => ?_)
    -- a session that was paused again is still the peer's
    obtain ⟨item, hitem, hitemPeer⟩ := hpeer other (List.mem_cons_of_mem _ hmem)
    by_cases hid : other.transferId = transfer.transferId
    · rw [resumeTransfer]
      generalize ports.selectAttempt s.services transfer.peerId transfer.transferId = attempt
      obtain ⟨rest, _ | _⟩ := attempt
      · refine ⟨if item.state.isRunning then { item with state := .paused } else item,
          get?_pauseForNetwork.trans ?_, ?_⟩
        · rw [if_pos hid, hitem, Option.map_some]
        · split_ifs
          · exact hitemPeer
          · exact hitemPeer
      · exact ⟨item, hitem, hitemPeer⟩
    · exact ⟨item, (get?_resumeTransfer hid).trans hitem, hitemPeer⟩

theorem keepsOthers_resumeTransfersForPeer :
    KeepsOthers peerId s (resumeTransfersForPeer ports env s peerId) := by
  rw [resumeTransfersForPeer]
  split_ifs
  · exact .of_eq rfl rfl
  · rcases currentSessionId s.sessions peerId with _ | sessionId
    · exact .of_eq rfl rfl
    · have hclaim := onlyPeer_takeResumableForPeer env.order s.transfers.manager peerId
        (wireKey sessionId)
      refine KeepsOthers.trans (.of_manager hclaim)
        (keepsOthers_foldl_resumeTransfer fun transfer hmem => ?_)
      obtain ⟨item, hitem, -, hpeer, -⟩ := paused_of_mem_takeResumable hmem
      grind [get?_takeResumableForPeer, TransferSession.takenFor]

theorem sendRelayCrypto_transfers (sessionToken : String) (step : RelayCryptoStep)
    (payload : Bytes) :
    (sendRelayCrypto services s sessionToken step payload).1.files = s.files ∧
      (sendRelayCrypto services s sessionToken step payload).1.transfers = s.transfers := by
  rw [sendRelayCrypto]
  rcases encodeRelayFrame step payload with _ | frame
  · exact ⟨rfl, rfl⟩
  · grind [sendRelayCryptoRaw]

theorem keepsOthers_sendRelayCrypto (sessionToken : String) (step : RelayCryptoStep)
    (payload : Bytes) :
    KeepsOthers peerId s (sendRelayCrypto services s sessionToken step payload).1 :=
  have hsame := sendRelayCrypto_transfers sessionToken step payload
  .of_eq hsame.1 hsame.2

theorem keepsOthers_forwardToInitiator (key : String) (step : RelayCryptoStep) (payload : Bytes) :
    KeepsOthers peerId s (forwardToInitiator ports s key step payload).1 := by
  rw [forwardToInitiator]
  split
  · exact .of_eq rfl rfl
  · generalize ports.notifyInitiator s.services key step.code payload = notified
    obtain ⟨rest, _ | _⟩ := notified
    · exact .of_eq rfl rfl
    · exact .of_eq rfl rfl

theorem keepsOthers_acceptHello (sessionToken key : String) (payload : Bytes) :
    KeepsOthers peerId s (acceptHello services noise s sessionToken key payload).1 := by
  rw [acceptHello]
  split
  · exact .of_eq rfl rfl
  · split
    · exact .of_eq rfl rfl
    · split
      · exact .of_eq rfl rfl
      · refine KeepsOthers.trans ?_ (keepsOthers_sendRelayCrypto _ _ _)
        exact .of_eq rfl rfl

theorem keepsOthers_installAdmittedCrypto (admission : ConnectionAdmission)
    (material : SessionCryptoMaterial) :
    KeepsOthers peerId s (installAdmittedCrypto ports s peerId admission material).1 := by
  rw [installAdmittedCrypto]
  split_ifs
  · exact .of_eq rfl rfl
  · exact keepsOthers_failSession _
  · generalize ports.installCryptoMaterial s.services peerId (wireKey admission.sessionId)
      material = installed
    obtain ⟨rest, _ | _⟩ := installed
    · refine KeepsOthers.trans ?_ (keepsOthers_failSession _)
      exact .of_eq rfl rfl
    · exact .of_eq rfl rfl

theorem keepsOthers_markRelayRouteConnected (sessionId : SessionId) :
    KeepsOthers peerId s (markRelayRouteConnected ports s peerId sessionId).1 := by
  rw [markRelayRouteConnected]
  split_ifs
  · exact .of_eq rfl rfl
  · exact .of_eq rfl rfl

/-- **Completing an admission** concerns its own peer alone. -/
theorem keepsOthers_completeRelayAdmission (sessionToken : String)
    (material : SessionCryptoMaterial) (admission : ConnectionAdmission) :
    KeepsOthers peerId s
      (completeRelayAdmission ports env s sessionToken peerId material admission).1 := by
  rw [completeRelayAdmission]
  split_ifs
  · exact keepsOthers_failSession _
  · exact keepsOthers_failSession _
  · exact keepsOthers_failSession _
  -- each call concerns the peer alone, and a failure ends its session and no other
  generalize finalizeAuthenticatedSession s.sessions peerId admission.sessionId
    material.remoteSessionBinding = finalized
  obtain ⟨sessions, _ | _⟩ := finalized
  · exact keepsOthers_failSession _
  · dsimp only
    have hinstall : KeepsOthers peerId s (installAdmittedCrypto ports
        { s with sessions := sessions } peerId admission material).1 := by
      refine KeepsOthers.trans ?_ (keepsOthers_installAdmittedCrypto admission material)
      exact .of_eq rfl rfl
    generalize installAdmittedCrypto ports { s with sessions := sessions } peerId admission
      material = installed at hinstall ⊢
    obtain ⟨s₁, _ | _⟩ := installed
    · exact hinstall
    · dsimp only at hinstall ⊢
      have hmark : KeepsOthers peerId s
          (markRelayRouteConnected ports s₁ peerId admission.sessionId).1 :=
        hinstall.trans (keepsOthers_markRelayRouteConnected admission.sessionId)
      generalize markRelayRouteConnected ports s₁ peerId admission.sessionId = marked at hmark ⊢
      obtain ⟨s₂, _ | _⟩ := marked
      · refine hmark.trans (KeepsOthers.trans ?_ (keepsOthers_failSession _))
        exact .of_eq rfl rfl
      · refine hmark.trans (KeepsOthers.trans ?_ keepsOthers_resumeTransfersForPeer)
        exact .of_eq rfl rfl

theorem keepsOthers_acceptRootConfirm (sessionToken key : String) (payload : Bytes) :
    KeepsOthers peerId s
      (acceptRootConfirm ports env services noise s sessionToken peerId key payload).1 := by
  rw [acceptRootConfirm]
  split
  · exact .of_eq rfl rfl
  · dsimp only
    split
    · exact .of_eq rfl rfl
    · rename_i encryptedAccept material _
      split
      · exact .of_eq rfl rfl
      · have hsend : KeepsOthers peerId s (sendRelayCrypto services
            { s with cryptoConfirmers := s.cryptoConfirmers.erase key } sessionToken .accept
            encryptedAccept).1 := by
          refine KeepsOthers.trans ?_ (keepsOthers_sendRelayCrypto _ _ _)
          exact .of_eq rfl rfl
        generalize sendRelayCrypto services
          { s with cryptoConfirmers := s.cryptoConfirmers.erase key } sessionToken .accept
            encryptedAccept = sent at hsend ⊢
        obtain ⟨s₁, _ | _⟩ := sent
        · exact hsend
        · exact hsend.trans (keepsOthers_completeRelayAdmission _ _ _)

/-! ## Replaced connections -/

theorem admitSession_files (authenticatedPeerId binding : String) :
    (s.admitSession ports env authenticatedPeerId binding).1.files = s.files := by
  rw [DataPlane.admitSession]
  generalize admitAuthenticatedSession s.sessions env.fresh authenticatedPeerId none binding =
    outcome
  obtain ⟨sessions, _ | admission⟩ := outcome
  · rfl
  · dsimp only
    rcases admission.replacedSessionId with _ | replaced
    · rfl
    · rfl

variable {authenticatedPeerId sessionToken : String} {frameBytes : Bytes}

/-- **An admission that replaces a connection** pauses the transfers of its peer. -/
theorem admitSession_replaces {binding : String}
    (h : Replaces s.sessions authenticatedPeerId binding) :
    (s.admitSession ports env authenticatedPeerId binding).1.transfers =
      { s.transfers with
          manager := pausePeerTransfers s.transfers.manager authenticatedPeerId } := by
  obtain ⟨admission, hok, hreplaced⟩ := admitAuthenticatedSession_replaced.mpr h
  rw [DataPlane.admitSession]
  generalize admitAuthenticatedSession s.sessions env.fresh authenticatedPeerId none binding =
    outcome at hok ⊢
  obtain ⟨sessions, result⟩ := outcome
  obtain rfl : result = .ok admission := hok
  obtain ⟨replaced, heq⟩ := Option.isSome_iff_exists.mp hreplaced
  dsimp only
  rw [heq]
  rfl

theorem admitSession_not_replaces {binding : String}
    (h : ¬ Replaces s.sessions authenticatedPeerId binding) :
    (s.admitSession ports env authenticatedPeerId binding).1.transfers = s.transfers := by
  have hnone : ∀ admission,
      (admitAuthenticatedSession s.sessions env.fresh authenticatedPeerId none binding).2 =
        .ok admission → admission.replacedSessionId = none := by
    intro admission hok
    by_contra hsome
    exact h (admitAuthenticatedSession_replaced.mp
      ⟨admission, hok, Option.isSome_iff_ne_none.mpr hsome⟩)
  grind [DataPlane.admitSession]

/-- What follows the admission in the answer to a final message does not touch the transfers. -/
theorem acceptFinal_admitted {key : String} {payload : Bytes} {responder : R}
    (hresponder : s.cryptoResponders.get? key = some responder)
    (hpeer : authenticatedPeer noise s responder payload = some authenticatedPeerId) :
    ∃ admitted, admitted = DataPlane.admitSession ports env
        { s with cryptoResponders := s.cryptoResponders.erase key } authenticatedPeerId
        (noise.sessionBinding responder) ∧
      (acceptFinal ports env services noise s sessionToken peerId key payload).1.files =
        admitted.1.files ∧
      (acceptFinal ports env services noise s sessionToken peerId key payload).1.transfers =
        admitted.1.transfers := by
  have hpeer' : authenticatedPeer noise
      { s with cryptoResponders := s.cryptoResponders.erase key } responder payload =
        some authenticatedPeerId := hpeer
  refine ⟨_, rfl, ?_⟩
  rw [acceptFinal, hresponder]
  dsimp only
  rw [hpeer']
  dsimp only
  generalize DataPlane.admitSession ports env
    { s with cryptoResponders := s.cryptoResponders.erase key } authenticatedPeerId
    (noise.sessionBinding responder) = outcome
  grind [sendRelayCrypto_transfers]

/-- The checks that come before the message of a handshake is read. -/
def HandshakeBound (s : DataPlane σ L R X) (sessionToken peerId : String) : Prop :=
  isSessionToken sessionToken = true ∧ peerId.isEmpty = false ∧ peerId ∈ s.peers ∧
    s.relayAuthorized peerId = true ∧ s.e2eePolicy peerId = .required

/-- **A message replaces the connection of a peer**: it is a final message that authenticates
`replacedPeerId` to a responder of `peerId`, and admits a session in the place of another. -/
def ReplacesConnection (noise : RelayNoise R X) (s : DataPlane σ L R X)
    (sessionToken peerId : String) (frameBytes : Bytes) (replacedPeerId : String) : Prop :=
  HandshakeBound s sessionToken peerId ∧
    ∃ payload responder, decodeRelayFrame frameBytes = some (.final, payload) ∧
      s.cryptoResponders.get? (relayCryptoKey peerId sessionToken) = some responder ∧
      authenticatedPeer noise s responder payload = some replacedPeerId ∧
      Replaces s.sessions replacedPeerId (noise.sessionBinding responder)

theorem handleRelayCryptoHandshake_of_bound (h : HandshakeBound s sessionToken peerId) :
    handleRelayCryptoHandshake ports env services noise s sessionToken peerId frameBytes =
      match decodeRelayFrame frameBytes with
      | none => (s, .error .library)
      | some (.response, payload) =>
        forwardToInitiator ports s (relayCryptoKey peerId sessionToken) .response payload
      | some (.rootSeed, payload) =>
        forwardToInitiator ports s (relayCryptoKey peerId sessionToken) .rootSeed payload
      | some (.accept, payload) =>
        forwardToInitiator ports s (relayCryptoKey peerId sessionToken) .accept payload
      | some (.hello, payload) =>
        acceptHello services noise s sessionToken (relayCryptoKey peerId sessionToken) payload
      | some (.final, payload) =>
        acceptFinal ports env services noise s sessionToken peerId
          (relayCryptoKey peerId sessionToken) payload
      | some (.rootConfirm, payload) =>
        acceptRootConfirm ports env services noise s sessionToken peerId
          (relayCryptoKey peerId sessionToken) payload := by
  obtain ⟨htoken, hempty, hpeer, hroute, hpolicy⟩ := h
  rw [handleRelayCryptoHandshake, if_neg, if_neg (not_not.mpr hpolicy)]
  rw [htoken, hempty, hroute, decide_eq_false (not_not.mpr hpeer)]
  decide

theorem handleRelayCryptoHandshake_of_not_bound (h : ¬ HandshakeBound s sessionToken peerId) :
    (handleRelayCryptoHandshake ports env services noise s sessionToken peerId frameBytes).1 =
      s := by
  rw [handleRelayCryptoHandshake]
  split
  · rfl
  · rename_i hchecks
    split
    · rfl
    · rename_i hpolicy
      simp only [Bool.or_eq_true, Bool.not_eq_true', decide_eq_true_eq, not_or, not_not,
        Bool.not_eq_false, Bool.not_eq_true] at hchecks
      obtain ⟨⟨⟨htoken, hempty⟩, hpeer⟩, hroute⟩ := hchecks
      exact absurd ⟨htoken, hempty, hpeer, hroute, not_not.mp hpolicy⟩ h

/-- **A replaced connection** pauses the transfers of its peer, whoever sent the message. -/
theorem handshake_replaces (ports : SessionServices σ) (env : CallEnv L)
    (services : RelayServices σ) {replacedPeerId : String}
    (h : ReplacesConnection noise s sessionToken peerId frameBytes replacedPeerId) :
    (handleRelayCryptoHandshake ports env services noise s sessionToken peerId
        frameBytes).1.files = s.files ∧
      (handleRelayCryptoHandshake ports env services noise s sessionToken peerId
        frameBytes).1.transfers =
        { s.transfers with manager := pausePeerTransfers s.transfers.manager replacedPeerId } := by
  obtain ⟨hbound, payload, responder, hframe, hresponder, hpeer, hreplaces⟩ := h
  rw [handleRelayCryptoHandshake_of_bound hbound, hframe]
  obtain ⟨admitted, rfl, hfiles, htransfers⟩ := acceptFinal_admitted hresponder hpeer
  rw [hfiles, htransfers]
  exact ⟨admitSession_files _ _, admitSession_replaces hreplaces⟩

/-- **A message that replaces no connection** leaves the transfers of other peers alone. -/
theorem handshake_keepsOthers (ports : SessionServices σ) (env : CallEnv L)
    (services : RelayServices σ) (h : ∀ replacedPeerId,
      ¬ ReplacesConnection noise s sessionToken peerId frameBytes replacedPeerId) :
    KeepsOthers peerId s (handleRelayCryptoHandshake ports env services noise s sessionToken peerId
      frameBytes).1 := by
  by_cases hbound : HandshakeBound s sessionToken peerId
  · rw [handleRelayCryptoHandshake_of_bound hbound]
    split
    · exact .of_eq rfl rfl
    · exact keepsOthers_forwardToInitiator _ _ _
    · exact keepsOthers_forwardToInitiator _ _ _
    · exact keepsOthers_forwardToInitiator _ _ _
    · exact keepsOthers_acceptHello _ _ _
    -- a FINAL can authenticate another peer than the one it came from, and is admitted before the
    -- two are compared
    · rename_i payload hframe
      rcases hresponder : s.cryptoResponders.get? (relayCryptoKey peerId sessionToken) with
        _ | responder
      · rw [acceptFinal, hresponder]
        exact .of_eq rfl rfl
      · rcases hpeer : authenticatedPeer noise s responder payload with _ | authenticatedPeerId
        · rw [acceptFinal, hresponder]
          dsimp only
          have hpeer' : authenticatedPeer noise { s with
              cryptoResponders := s.cryptoResponders.erase (relayCryptoKey peerId sessionToken) }
                responder payload = none := hpeer
          rw [hpeer']
          exact .of_eq rfl rfl
        · obtain ⟨admitted, rfl, hfiles, htransfers⟩ := acceptFinal_admitted hresponder hpeer
          have hkept : ¬ Replaces s.sessions authenticatedPeerId (noise.sessionBinding responder) :=
            fun hreplaces => h authenticatedPeerId
              ⟨hbound, payload, responder, hframe, hresponder, hpeer, hreplaces⟩
          exact .of_eq (hfiles.trans (admitSession_files _ _))
            (htransfers.trans (admitSession_not_replaces hkept))
    · exact keepsOthers_acceptRootConfirm _ _ _
  · rw [handleRelayCryptoHandshake_of_not_bound hbound]
    exact .of_eq rfl rfl

end Handshake

end SshMobile.Relay
