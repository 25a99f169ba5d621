import SshMobile.Library.Machine
import SshMobile.Library.Table

/-!
# Enrollments, revocations and credentials

A device enrolls with its public key; the time of enrollment, in microseconds, is the generation
of the enrollment. A credential names the device, its key and the generation, and expires a fixed
time after it was issued. Revoking a device removes its enrollment and leaves a tombstone that
lives for the lifetime of a credential; the tombstone keeps the generation from which a later
enrollment goes on. Tombstones are dropped lazily once they have expired.

This is the memory store. Instants are nanoseconds since 1970, durations nanoseconds. An enroll
request stores the enrollment under the device's lock and issues its credential after the lock is
released, so the two are separate steps here; a refresh issues its credential under the lock. The
signature over a credential is an arbitrary code `mac` of its claims, and a public key is the text
of its canonical encoding.

## Main definitions

* `DeviceStore`, `putEnrollment`, `revokeEnrollment`, `isRevoked`: the durable store
* `issueCredential`, `verifyCredential`, `enrollmentClaimsCurrent`: credentials
* `enrollmentMachine`: any sequence of enroll, issue, refresh, revoke, check and cleanup steps
-/

namespace SshMobile.Server

open Library

/-! ## Time -/

def microsecond : ℕ := 1000
def second : ℕ := 1000000000

def unixMicro (time : ℕ) : ℕ := time / microsecond
def unixSeconds (time : ℕ) : ℕ := time / second
def truncateMicro (time : ℕ) : ℕ := time / microsecond * microsecond

theorem unixSeconds_mono {s t : ℕ} (h : s ≤ t) : unixSeconds s ≤ unixSeconds t :=
  Nat.div_le_div_right h

/-! ## The store -/

structure EnrolledDevice where
  deviceId : String
  publicKey : String
  platform : String
  protocolVersion : ℕ
  enrolledAt : ℕ
deriving DecidableEq

/-- The generation of an enrollment. -/
def EnrolledDevice.generation (device : EnrolledDevice) : ℕ := unixMicro device.enrolledAt

/-- A tombstone. Its floor is unset (the zero time) until a revocation sets it. -/
structure RevokedDevice where
  expiresAt : ℕ
  generationFloor : Option ℕ
deriving DecidableEq

inductive EnrollmentResult
  | ok
  | identityConflict
  | resourceLimit
  | unavailable
deriving DecidableEq

inductive RevokeResult
  | notEnrolled
  | capacity
  | ok
deriving DecidableEq

/-- The part of `memoryStore` that `deviceMu` guards, the proof nonces apart. -/
structure DeviceStore where
  enrolledDevices : Table String EnrolledDevice
  revokedDevices : Table String RevokedDevice
  maxEnrolled : ℕ
  maxRevoked : ℕ

/-- The next generation: the candidate, but at least a microsecond after the one it follows. -/
def nextEnrollmentTime (candidate : ℕ) (existing : Option ℕ) : ℕ :=
  match existing with
  | none => truncateMicro candidate
  | some current =>
    if truncateMicro current < truncateMicro candidate then truncateMicro candidate
    else truncateMicro current + microsecond

namespace DeviceStore

/-- What the next generation of a device follows: its enrollment, or the floor of its
tombstone. -/
def generationBase (store : DeviceStore) (deviceId : String) : Option ℕ :=
  match store.enrolledDevices.get? deviceId with
  | some existing => some existing.enrolledAt
  | none => (store.revokedDevices.get? deviceId).bind RevokedDevice.generationFloor

/-- The enrollment as `putEnrollment` stores it. -/
def stamped (store : DeviceStore) (device : EnrolledDevice) : EnrolledDevice :=
  { device with
    enrolledAt := nextEnrollmentTime device.enrolledAt (store.generationBase device.deviceId) }

def write (store : DeviceStore) (device : EnrolledDevice) : DeviceStore :=
  { store with
    enrolledDevices := store.enrolledDevices.insert device.deviceId (store.stamped device)
    revokedDevices := store.revokedDevices.erase device.deviceId }

/-- `PutEnrollment`. The generation of the stored enrollment is returned with success. -/
def putEnrollment (store : DeviceStore) (device : EnrolledDevice) :
    DeviceStore × EnrollmentResult × ℕ :=
  match store.enrolledDevices.get? device.deviceId with
  | some existing =>
    if existing.publicKey ≠ device.publicKey then (store, .identityConflict, 0)
    -- A device that enrolled at a higher protocol version does not go back.
    else if device.protocolVersion < existing.protocolVersion then (store, .identityConflict, 0)
    else (store.write device, .ok, (store.stamped device).generation)
  | none =>
    if store.maxEnrolled ≤ store.enrolledDevices.size then (store, .resourceLimit, 0)
    else (store.write device, .ok, (store.stamped device).generation)

def pruneExpiredRevocations (store : DeviceStore) (now : ℕ) : DeviceStore :=
  { store with
    revokedDevices := store.revokedDevices.retain fun _ entry => decide (now < entry.expiresAt) }

/-- `writeRevocationLocked`: writes or extends the tombstone of a device, unless the store is
full of tombstones in force. -/
def writeRevocationLocked (store : DeviceStore) (deviceId : String) (validUntil now : ℕ) :
    DeviceStore × Bool :=
  let store := store.pruneExpiredRevocations now
  match store.revokedDevices.get? deviceId with
  | some existing =>
    ({ store with
        revokedDevices := store.revokedDevices.insert deviceId
          { existing with expiresAt := max existing.expiresAt validUntil } }, true)
  | none =>
    if store.maxRevoked ≤ store.revokedDevices.size then (store, false)
    else
      ({ store with revokedDevices := store.revokedDevices.insert deviceId ⟨validUntil, none⟩ },
        true)

/-- The tombstone takes the floor the next enrollment goes on from, and the enrollment goes. -/
def entomb (store : DeviceStore) (deviceId : String) (floor : ℕ) : DeviceStore :=
  match store.revokedDevices.get? deviceId with
  | some entry =>
    { store with
      revokedDevices := store.revokedDevices.insert deviceId
        { entry with generationFloor := some floor }
      enrolledDevices := store.enrolledDevices.erase deviceId }
  | none => { store with enrolledDevices := store.enrolledDevices.erase deviceId }

/-- `RevokeEnrollment`. The clock is read three times: for the end of the tombstone, for the
cleanup of expired tombstones, and for the floor. -/
def revokeEnrollment (store : DeviceStore) (deviceId : String)
    (credentialTtl now pruneAt floorAt : ℕ) : DeviceStore × RevokeResult × ℕ :=
  match store.enrolledDevices.get? deviceId with
  | none => (store, .notEnrolled, 0)
  | some enrolled =>
    match store.writeRevocationLocked deviceId (now + credentialTtl) pruneAt with
    | (store, false) => (store, .capacity, 0)
    | (store, true) =>
      (store.entomb deviceId (nextEnrollmentTime floorAt (some enrolled.enrolledAt)), .ok,
        enrolled.generation)

/-- `IsRevoked`: an expired tombstone is dropped. -/
def isRevoked (store : DeviceStore) (deviceId : String) (now : ℕ) : DeviceStore × Bool :=
  match store.revokedDevices.get? deviceId with
  | none => (store, false)
  | some entry =>
    if now < entry.expiresAt then (store, true)
    else ({ store with revokedDevices := store.revokedDevices.erase deviceId }, false)

end DeviceStore

/-! ## Credentials -/

structure CredentialClaims where
  deviceId : String
  publicKey : String
  enrollmentGeneration : ℕ
  /-- In seconds. -/
  expiresAt : ℕ
deriving DecidableEq

structure EnrollmentConfig where
  credentialTtl : ℕ
  protocolVersion : ℕ
  maxEnrolled : ℕ
  maxRevoked : ℕ
  /-- `withConfigDefaults` replaces a lifetime that is not positive. -/
  ttl_pos : 0 < credentialTtl

/-- The claims of `issueCredential`; a generation that is not positive is refused. -/
def issueCredential (config : EnrollmentConfig) (deviceId publicKey : String) (generation now : ℕ) :
    Option CredentialClaims :=
  if generation = 0 then none
  else some ⟨deviceId, publicKey, generation, unixSeconds (now + config.credentialTtl)⟩

inductive CredentialError
  | signature
  | invalid
  | expired
  | publicKey
deriving DecidableEq

/-- A credential on the wire: claims with a code over them. -/
structure Credential (Tag : Type) where
  claims : CredentialClaims
  tag : Tag

/-- `verifyCredential`, from a token that parses. `validKey` tells whether a text encodes a public
key. -/
def verifyCredential {Tag : Type} [DecidableEq Tag] (mac : CredentialClaims → Tag)
    (validKey : String → Bool) (credential : Credential Tag) (now : ℕ) :
    Except CredentialError CredentialClaims :=
  if credential.tag ≠ mac credential.claims then .error .signature
  else if credential.claims.deviceId = "" ∨ credential.claims.enrollmentGeneration = 0 then
    .error .invalid
  else if credential.claims.expiresAt ≤ unixSeconds now then .error .expired
  else if !validKey credential.claims.publicKey then .error .publicKey
  else .ok credential.claims

inductive ClaimsCheck
  | current
  | credentialExpired
  | authenticationFailed
deriving DecidableEq

/-- The enrollment still is the one the claims name. -/
def EnrolledDevice.matchesClaims (config : EnrollmentConfig) (claims : CredentialClaims)
    (publicKey : String) (device : EnrolledDevice) : Bool :=
  decide (device.publicKey = publicKey) &&
    decide (claims.enrollmentGeneration = device.generation) &&
    decide (device.protocolVersion = config.protocolVersion)

/-- **The durable half of an admission**: `enrollmentClaimsCurrent`. The clock is read for the
expiry of the claims and again for the tombstone. -/
def enrollmentClaimsCurrent (config : EnrollmentConfig) (store : DeviceStore)
    (claims : CredentialClaims) (publicKey : String) (now revokedAt : ℕ) :
    DeviceStore × ClaimsCheck :=
  if claims.expiresAt ≤ unixSeconds now then (store, .credentialExpired)
  else
    match store.isRevoked claims.deviceId revokedAt with
    | (store, revoked) =>
      match store.enrolledDevices.get? claims.deviceId with
      | none => (store, .authenticationFailed)
      | some device =>
        if revoked || !device.matchesClaims config claims publicKey then
          (store, .authenticationFailed)
        else (store, .current)

/-! ## Sequences of operations -/

/-- An enroll request between storing its enrollment and issuing its credential. -/
structure PendingIssue where
  deviceId : String
  publicKey : String
  generation : ℕ
deriving DecidableEq

structure EnrollmentState where
  store : DeviceStore
  clock : ℕ
  pending : List PendingIssue

inductive EnrollmentOp
  | tick (elapsed : ℕ)
  /-- A checked enroll request up to the release of the device's lock; it read the clock at
  `readAt`, before it waited for the lock. -/
  | enroll (deviceId publicKey platform : String) (protocolVersion readAt : ℕ)
  /-- The request at this place of the waiting ones issues its credential. -/
  | issue (place : ℕ)
  /-- A refresh whose freshness check read the clock at `readAt`, with the results of the
  signature check and of the nonce. -/
  | refresh (deviceId publicKey : String) (readAt : ℕ) (proof replayed : Bool)
  /-- A revocation; time passes between the readings of the clock. -/
  | revoke (deviceId : String) (toPrune toFloor : ℕ)
  | isRevoked (deviceId : String) (readAt : ℕ)
  /-- `enrollmentClaimsCurrent`; time passes between the readings of the clock. -/
  | check (claims : CredentialClaims) (publicKey : String) (elapsed : ℕ)
deriving DecidableEq

inductive EnrollmentOutput
  | none
  | enrolled (result : EnrollmentResult) (deviceId : String) (generation : ℕ)
  | issued (claims : CredentialClaims)
  | refused
  | revoked (result : RevokeResult) (deviceId : String) (generation : ℕ)
  | checked (result : ClaimsCheck)
deriving DecidableEq

/-- `replaceEnrollmentContext` with the clock reading of the request. The stored generation is not
positive only before 1970; the request then fails although the enrollment is stored. -/
def replaceEnrollment (s : EnrollmentState) (device : EnrolledDevice) :
    EnrollmentState × EnrollmentOutput :=
  match s.store.putEnrollment device with
  | (store, .ok, generation) =>
    if generation = 0 then ({ s with store }, .enrolled .unavailable device.deviceId 0)
    else
      ({ s with store, pending := s.pending ++ [⟨device.deviceId, device.publicKey, generation⟩] },
        .enrolled .ok device.deviceId generation)
  | (store, result, _) => ({ s with store }, .enrolled result device.deviceId 0)

/-- `refreshWithExpectedTranscriptPath` from the acquisition of the device's lock on. -/
def refreshCredential (config : EnrollmentConfig) (s : EnrollmentState)
    (deviceId publicKey : String) (readAt : ℕ) (proof replayed : Bool) :
    EnrollmentState × EnrollmentOutput :=
  match s.store.enrolledDevices.get? deviceId with
  | none => (s, .refused)
  | some device =>
    if device.protocolVersion ≠ config.protocolVersion then (s, .refused)
    else
      match s.store.isRevoked deviceId readAt with
      | (store, revoked) =>
        if revoked || decide (publicKey ≠ device.publicKey) || !proof || replayed then
          ({ s with store }, .refused)
        else
          match issueCredential config deviceId device.publicKey device.generation s.clock with
          | some claims => ({ s with store }, .issued claims)
          | none => ({ s with store }, .refused)

def enrollmentStep (config : EnrollmentConfig) (s : EnrollmentState) :
    EnrollmentOp → EnrollmentState × EnrollmentOutput
  | .tick elapsed => ({ s with clock := s.clock + elapsed }, .none)
  | .enroll deviceId publicKey platform protocolVersion readAt =>
    replaceEnrollment s ⟨deviceId, publicKey, platform, protocolVersion, min readAt s.clock⟩
  | .issue place =>
    match s.pending[place]? with
    | none => (s, .none)
    | some request =>
      match issueCredential config request.deviceId request.publicKey request.generation
          s.clock with
      | some claims => ({ s with pending := s.pending.eraseIdx place }, .issued claims)
      | none => ({ s with pending := s.pending.eraseIdx place }, .refused)
  | .refresh deviceId publicKey readAt proof replayed =>
    -- The freshness check came first: its reading is not after the clock.
    refreshCredential config s deviceId publicKey (min readAt s.clock) proof replayed
  | .revoke deviceId toPrune toFloor =>
    match s.store.revokeEnrollment deviceId config.credentialTtl s.clock (s.clock + toPrune)
        (s.clock + toPrune + toFloor) with
    | (store, result, generation) =>
      ({ s with store, clock := s.clock + toPrune + toFloor },
        .revoked result deviceId generation)
  | .isRevoked deviceId readAt =>
    ({ s with store := (s.store.isRevoked deviceId (min readAt s.clock)).1 }, .none)
  | .check claims publicKey elapsed =>
    match enrollmentClaimsCurrent config s.store claims publicKey s.clock (s.clock + elapsed) with
    | (store, result) => ({ s with store, clock := s.clock + elapsed }, .checked result)

/-- **Any sequence of operations on the memory store**, from an empty store at some time. -/
def enrollmentMachine (config : EnrollmentConfig) (clock : ℕ) :
    Machine EnrollmentState EnrollmentOp EnrollmentOutput where
  start := ⟨⟨∅, ∅, config.maxEnrolled, config.maxRevoked⟩, clock, []⟩
  step := enrollmentStep config

end SshMobile.Server
