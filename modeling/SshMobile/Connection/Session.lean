import SshMobile.Library.Bytes
import SshMobile.Library.Table

/-!
# Admission of connection sessions

Every transport connection gets a fresh session identity. The store records for every peer the
session that is reserved or admitted, and lets one authenticated candidate claim it: an
unaffiliated candidate that brings a new remote binding replaces a session that was claimed before.

## Main definitions

* `SessionId`, `wireKey`: the identity of a session
* `ConnectionSessionStore`: the sessions of the peers
* `admitAuthenticatedSession`, `finalizeAuthenticatedSession`, …: the operations
* `Replaces`: the admissions that replace a session

## Main results

* `admitAuthenticatedSession_replaced`: which session an admission replaces
-/

namespace SshMobile.Connection

open Library

/-! ## Identities -/

def sessionIdBytes : ℕ := 16

abbrev SessionId := Vector UInt8 sessionIdBytes

def wireKey (sessionId : SessionId) : String := hexEncode sessionId.toList

theorem utf8ByteSize_wireKey (sessionId : SessionId) : (wireKey sessionId).utf8ByteSize = 32 := by
  rw [wireKey, utf8ByteSize_hexEncode, sessionId.length_toList]
  rfl

/-- Whether the application data of a peer is encrypted end to end. -/
inductive E2eePolicy
  | required
  | disabled
deriving DecidableEq

/-! ## Admission -/

inductive SessionCryptoDecision
  | initializeContext
  | replaceWithNew
deriving DecidableEq

structure ConnectionAdmission where
  sessionId : SessionId
  decision : SessionCryptoDecision
  replacedSessionId : Option SessionId
deriving DecidableEq

inductive ConnectionAdmissionError
  | staleSession
  | invalidRemoteBinding
deriving DecidableEq

/-- A session is reserved for an attempt, then claimed by the candidate that won, and authenticated
once the exchange after the handshake is complete. -/
inductive AdmissionPhase
  | reserved
  | claimed
  | authenticated
deriving DecidableEq

structure SessionAdmission where
  id : SessionId
  remoteSessionBinding : Option String
  phase : AdmissionPhase
deriving DecidableEq

/-- The session of every peer that has one. -/
abbrev ConnectionSessionStore := Table String SessionAdmission

def registerPendingSession (sessions : ConnectionSessionStore) (peerId : String)
    (sessionId : SessionId) : ConnectionSessionStore × Except ConnectionAdmissionError Unit :=
  if sessions.contains peerId then (sessions, .error .staleSession)
  else (sessions.insert peerId ⟨sessionId, none, .reserved⟩, .ok ())

def currentSessionId (sessions : ConnectionSessionStore) (peerId : String) : Option SessionId :=
  (sessions.get? peerId).map SessionAdmission.id

/-- Whether the claim of an unaffiliated or expected candidate replaces the current session; `none`
when the claim is refused. -/
def replacesExisting (current : SessionAdmission) (expected : Option SessionId) : Option Bool :=
  match expected with
  | some _ =>
    match current.phase with
    | .reserved => some false
    | .authenticated => some true
    | .claimed => none
  | none => some (current.phase ≠ .reserved || current.remoteSessionBinding.isSome)

/-- `fresh` is the identity that is drawn when a new session is needed. -/
def admitAuthenticatedSession (sessions : ConnectionSessionStore) (fresh : SessionId)
    (peerId : String) (expected : Option SessionId) (newRemoteBinding : String) :
    ConnectionSessionStore × Except ConnectionAdmissionError ConnectionAdmission :=
  if newRemoteBinding.isEmpty then (sessions, .error .invalidRemoteBinding)
  else
    match sessions.get? peerId with
    | none =>
      if expected.isSome then (sessions, .error .staleSession)
      else
        (sessions.insert peerId ⟨fresh, some newRemoteBinding, .claimed⟩,
          .ok ⟨fresh, .initializeContext, none⟩)
    | some current =>
      if expected.any (· ≠ current.id) then (sessions, .error .staleSession)
      -- Once a candidate has claimed the binding, every later one loses.
      else if current.remoteSessionBinding = some newRemoteBinding then
        (sessions, .error .staleSession)
      else
        match replacesExisting current expected with
        | none => (sessions, .error .staleSession)
        | some true =>
          (sessions.insert peerId ⟨fresh, some newRemoteBinding, .claimed⟩,
            .ok ⟨fresh, .replaceWithNew, some current.id⟩)
        | some false =>
          (sessions.insert peerId
              { current with remoteSessionBinding := some newRemoteBinding, phase := .claimed },
            .ok ⟨current.id, .initializeContext, none⟩)

def finalizeAuthenticatedSession (sessions : ConnectionSessionStore) (peerId : String)
    (expected : SessionId) (remoteBinding : String) :
    ConnectionSessionStore × Except ConnectionAdmissionError Unit :=
  if remoteBinding.isEmpty then (sessions, .error .invalidRemoteBinding)
  else
    match sessions.get? peerId with
    | none => (sessions, .error .staleSession)
    | some session =>
      if session.id ≠ expected then (sessions, .error .staleSession)
      else if session.remoteSessionBinding.any (· ≠ remoteBinding) then
        (sessions, .error .staleSession)
      else if session.phase = .reserved then (sessions, .error .staleSession)
      else
        (sessions.insert peerId
            { session with remoteSessionBinding := some remoteBinding, phase := .authenticated },
          .ok ())

def releaseAuthenticatedSession (sessions : ConnectionSessionStore) (peerId : String)
    (expected : SessionId) (remoteBinding : String) : ConnectionSessionStore × Bool :=
  match sessions.get? peerId with
  | none => (sessions, false)
  | some session =>
    if session.id ≠ expected ∨ session.phase ≠ .claimed ∨
        session.remoteSessionBinding ≠ some remoteBinding then (sessions, false)
    else
      (sessions.insert peerId { session with remoteSessionBinding := none, phase := .reserved },
        true)

def retireSession (sessions : ConnectionSessionStore) (peerId : String) (expected : SessionId) :
    ConnectionSessionStore × Bool :=
  if (sessions.get? peerId).any (·.id = expected) then (sessions.erase peerId, true)
  else (sessions, false)

/-! ## Replaced sessions -/

/-- **An unaffiliated candidate replaces the peer's session**: the session is no bare reservation,
and the candidate brings a binding of its own. -/
def Replaces (sessions : ConnectionSessionStore) (peerId newRemoteBinding : String) : Prop :=
  newRemoteBinding.isEmpty = false ∧
    ∃ current, sessions.get? peerId = some current ∧
      current.remoteSessionBinding ≠ some newRemoteBinding ∧
      (current.phase ≠ .reserved ∨ current.remoteSessionBinding.isSome = true)

theorem admitAuthenticatedSession_replaced {sessions : ConnectionSessionStore} {fresh : SessionId}
    {peerId newRemoteBinding : String} :
    (∃ admission,
      (admitAuthenticatedSession sessions fresh peerId none newRemoteBinding).2 = .ok admission ∧
        admission.replacedSessionId.isSome = true) ↔
      Replaces sessions peerId newRemoteBinding := by
  rw [admitAuthenticatedSession, Replaces]
  by_cases hempty : newRemoteBinding.isEmpty = true
  · simp [hempty]
  rw [if_neg hempty]
  rcases sessions.get? peerId with _ | current
  · simp
  · by_cases hbinding : current.remoteSessionBinding = some newRemoteBinding
    · simp [hbinding]
    · by_cases hreplaces : current.phase ≠ .reserved ∨ current.remoteSessionBinding.isSome = true
      · have : replacesExisting current none = some true := by
          simpa [replacesExisting] using hreplaces
        simp [hbinding, this, hempty, hreplaces]
      · have : replacesExisting current none = some false := by
          simpa [replacesExisting] using hreplaces
        simp [hbinding, this, hreplaces]

end SshMobile.Connection
