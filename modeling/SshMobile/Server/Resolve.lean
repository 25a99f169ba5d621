import SshMobile.Library.Bytes
import SshMobile.Library.Machine
import SshMobile.Server.LeaseStore

/-!
# Resolving a peer, and publishing a discovery

`resolvePeer` reads the presence lease of the target, then its discovery, then the lease again; it
answers READY only when both reads of the lease name the connection that published the discovery.
`publishDiscoveryV2` reads the lease and the stored discovery, checks the revision against it, and
writes if the publisher still owns the lease. Each read and each write is one step here, so any
number of calls run interleaved with leases that are taken, renewed and released.

A READY answer names the owner of the lease at both of its reads of the lease. In between, another
connection may own it: a renewal acquires a lease that is absent, so a connection that was taken
over can own the lease again after its successor released it. If no renewal meets an absent lease,
the connection also owns the lease when the discovery is read, and the stored revisions do not go
down.

## Main definitions

* `ResolveCall.next`, `PublishCall.next`: the steps of `resolvePeer` and of `publishDiscoveryV2`
* `leaseMachine`: any interleaving of calls with the operations of the store
* `ReadyReads`: the reads behind a READY answer
* `RenewsHeld`, `FreshConnections`, `PublishersTook`, `WritesPublish`: what runs are asked for

## Main results

* `ready_resolve`: what holds when a call answers READY, and how stored revisions move
* `ready_after_takeover`: a READY answer whose discovery was read under another owner
-/

namespace SshMobile.Server

open Library

/-! ## Resolving -/

inductive ResolveResult
  | unknown
  | offline
  | notReady
  | ready (discovery : Discovery)
deriving DecidableEq

/-- What a call reads next, with what it has read. -/
inductive ResolveStage
  | presence
  | discovery (presence : Presence)
  | latest (presence : Presence) (found : Option Discovery)
deriving DecidableEq

structure ResolveCall where
  target : String
  attempt : ℕ
  stage : ResolveStage
deriving DecidableEq

/-- The answer from the three reads of one attempt, or none if the lease changed hands. -/
def resolveResult (presence latest : Presence) (found : Option Discovery) : Option ResolveResult :=
  if presence.connectionId = "" ∨ latest.connectionId = "" ∨
      latest.connectionId ≠ presence.connectionId then none
  else
    match found with
    | none => some .notReady
    | some d =>
      if !d.ready || !d.hasRuntimeEpoch || decide (d.connectionId = "") ||
          decide (presence.connectionId ≠ d.connectionId) then some .notReady
      else some (.ready d)

/-- **`resolvePeer`**, one store read at a time. A read that fails ends the call. -/
def ResolveCall.next (call : ResolveCall) (s : LeaseStore) (now : ℕ) (fails : Bool) :
    LeaseStore × (ResolveCall ⊕ ResolveResult) :=
  if fails then (s, .inr .unknown)
  else
    match call.stage with
    | .presence =>
      match s.getPresence call.target now with
      | (s, none) => (s, .inr .offline)
      | (s, some presence) => (s, .inl { call with stage := .discovery presence })
    | .discovery presence =>
      match s.getDiscovery call.target now with
      | (s, found) => (s, .inl { call with stage := .latest presence found })
    | .latest presence found =>
      match s.getPresence call.target now with
      | (s, none) => (s, .inr .offline)
      | (s, some latest) =>
        match resolveResult presence latest found with
        | some result => (s, .inr result)
        | none =>
          if call.attempt + 1 < 2 then (s, .inl ⟨call.target, call.attempt + 1, .presence⟩)
          else (s, .inr .unknown)

/-! ## Publishing -/

structure DiscoverySnapshot where
  runtimeEpoch : Option (UInt64 × UInt64)
  revision : UInt32
  transportCapabilities : List ℤ
  candidateBundle : Option (List Bytes)
deriving DecidableEq

inductive PublishError
  | notOwner
  | noRevision
  | invalidSnapshot
  | revisionStale
  | revisionImmutable
  /-- The store failed. -/
  | store
deriving DecidableEq

def maxDiscoveryCandidates : ℕ := 64
def maxDiscoveryCandidateBytes : ℕ := 4096
def maxDiscoveryCapabilities : ℕ := 64

def validateDiscoverySnapshotV2 (snapshot : DiscoverySnapshot) : Bool :=
  decide (snapshot.revision ≠ 0) &&
    (match snapshot.runtimeEpoch with
      | none => false
      | some (high, low) => high != 0 || low != 0) &&
    decide (snapshot.transportCapabilities.length ≤ maxDiscoveryCapabilities) &&
    (match snapshot.candidateBundle with
      | none => true
      | some candidates =>
        decide (candidates.length ≤ maxDiscoveryCandidates) &&
          candidates.all fun candidate => decide (candidate.length ≤ maxDiscoveryCandidateBytes))

structure DiscoveryConfig where
  presenceTtl : ℕ
  /-- The text form of a candidate. -/
  encodeCandidate : Bytes → String

/-- `discoveryFromV2`; the owner is set when the discovery is written. -/
def discoveryFromV2 (config : DiscoveryConfig) (deviceId : String) (snapshot : DiscoverySnapshot)
    (now : ℕ) : Discovery where
  deviceId
  connectionId := ""
  runtimeEpochHigh := (snapshot.runtimeEpoch.map Prod.fst).getD 0
  runtimeEpochLow := (snapshot.runtimeEpoch.map Prod.snd).getD 0
  revision := snapshot.revision
  capabilities := snapshot.transportCapabilities.map toString
  candidates := (snapshot.candidateBundle.getD []).map config.encodeCandidate
  updatedAt := now

/-- `sameStringSet`: the members of one are counted and counted down by those of the other. -/
def sameStringSet (a b : List String) : Bool := decide (a.length = b.length) && b.isPerm a

def sameDiscoveryContent (a b : Discovery) : Bool :=
  sameStringSet a.candidates b.candidates && sameStringSet a.capabilities b.capabilities

/-- The check of a revision against the stored discovery. -/
def checkRevision (d : Discovery) : Option Discovery → Option PublishError
  | none => none
  | some old =>
    if !old.sameEpoch d then none
    else if d.revision < old.revision then some .revisionStale
    else if d.revision = old.revision ∧ !sameDiscoveryContent old d then some .revisionImmutable
    else none

inductive PeerEvent
  | peerOnline
  | peerUpdated
deriving DecidableEq

/-- What other peers are told after the write. -/
def publishEvent (presence : Presence) (old : Option Discovery) (d : Discovery) :
    Option PeerEvent :=
  match old with
  | none => some .peerOnline
  | some old =>
    if !(old.ready && old.hasRuntimeEpoch && decide (presence.connectionId = old.connectionId)) then
      some .peerOnline
    else if !old.sameEpoch d || decide (old.revision ≠ d.revision) then some .peerUpdated
    else none

inductive PublishStage
  | presence
  | discovery (presence : Presence)
  | write (presence : Presence) (old : Option Discovery)
deriving DecidableEq

structure PublishCall where
  requestId : ℕ
  deviceId : String
  discovery : Discovery
  stage : PublishStage
deriving DecidableEq

inductive PublishResult
  | ack (requestId : ℕ) (epochHigh epochLow : UInt64) (revision : UInt32)
      (event : Option PeerEvent)
  | error (e : PublishError)
deriving DecidableEq

/-- `publishDiscoveryV2` up to its first store call. -/
def publishDiscoveryV2 (config : DiscoveryConfig) (requestId : ℕ) (deviceId : String)
    (snapshot : DiscoverySnapshot) (now : ℕ) : Except PublishError PublishCall :=
  if snapshot.revision = 0 then .error .noRevision
  else if !validateDiscoverySnapshotV2 snapshot then .error .invalidSnapshot
  else .ok ⟨requestId, deviceId, discoveryFromV2 config deviceId snapshot now, .presence⟩

/-- The rest of `publishDiscoveryV2`, one store call at a time. A call that fails ends it. -/
def PublishCall.next (config : DiscoveryConfig) (call : PublishCall) (connId : String)
    (s : LeaseStore) (now : ℕ) (fails : Bool) : LeaseStore × (PublishCall ⊕ PublishResult) :=
  if fails then (s, .inr (.error .store))
  else
    match call.stage with
    | .presence =>
      -- The lease has to exist; whose it is, is checked by the write.
      match s.getPresence call.deviceId now with
      | (s, none) => (s, .inr (.error .notOwner))
      | (s, some presence) => (s, .inl { call with stage := .discovery presence })
    | .discovery presence =>
      match s.getDiscovery call.deviceId now with
      | (s, old) =>
        match checkRevision call.discovery old with
        | some e => (s, .inr (.error e))
        | none => (s, .inl { call with stage := .write presence old })
    | .write presence old =>
      match s.takeDiscovery call.deviceId connId call.discovery config.presenceTtl now with
      | (s, false) => (s, .inr (.error .notOwner))
      | (s, true) =>
        (s, .inr (.ack call.requestId call.discovery.runtimeEpochHigh
          call.discovery.runtimeEpochLow call.discovery.revision
          (publishEvent presence old call.discovery)))

/-! ## Interleavings -/

structure LeaseState where
  leases : LeaseStore
  clock : ℕ
  /-- The `resolvePeer` calls under way. -/
  resolvers : Table ℕ ResolveCall
  /-- The `publishDiscoveryV2` call of a connection: it handles one frame at a time. -/
  publishers : Table String PublishCall

inductive LeaseOp
  | tick (elapsed : ℕ)
  | takePresence (deviceId connId : String) (p : Presence) (ttl : ℕ)
  | renewPresence (deviceId connId : String) (p : Presence) (ttl : ℕ)
  | releasePresence (deviceId connId : String)
  | takeDiscovery (deviceId connId : String) (d : Discovery) (ttl : ℕ)
  | renewDiscovery (deviceId connId : String) (ttl : ℕ)
  | releaseDiscovery (deviceId connId : String)
  | resolve (caller : ℕ) (target : String)
  | resolveNext (caller : ℕ) (fails : Bool)
  | publish (connId deviceId : String) (requestId : ℕ) (snapshot : DiscoverySnapshot)
  | publishNext (connId : String) (fails : Bool)
deriving DecidableEq

inductive LeaseOutput
  | none
  | took (previous : Option Presence)
  | done (success : Bool)
  | resolved (target : String) (result : ResolveResult)
  | published (result : PublishResult)
deriving DecidableEq

def leaseStep (config : DiscoveryConfig) (s : LeaseState) : LeaseOp → LeaseState × LeaseOutput
  | .tick elapsed => ({ s with clock := s.clock + elapsed }, .none)
  | .takePresence deviceId connId p ttl =>
    let result := s.leases.takePresence deviceId connId p ttl s.clock
    ({ s with leases := result.1 }, .took result.2)
  | .renewPresence deviceId connId p ttl =>
    let result := s.leases.renewPresence deviceId connId p ttl s.clock
    ({ s with leases := result.1 }, .done result.2)
  | .releasePresence deviceId connId =>
    let result := s.leases.releasePresence deviceId connId s.clock
    ({ s with leases := result.1 }, .done result.2)
  | .takeDiscovery deviceId connId d ttl =>
    let result := s.leases.takeDiscovery deviceId connId d ttl s.clock
    ({ s with leases := result.1 }, .done result.2)
  | .renewDiscovery deviceId connId ttl =>
    let result := s.leases.renewDiscovery deviceId connId ttl s.clock
    ({ s with leases := result.1 }, .done result.2)
  | .releaseDiscovery deviceId connId =>
    let result := s.leases.releaseDiscovery deviceId connId s.clock
    ({ s with leases := result.1 }, .done result.2)
  | .resolve caller target =>
    match s.resolvers.get? caller with
    | some _ => (s, .none)
    | none => ({ s with resolvers := s.resolvers.insert caller ⟨target, 0, .presence⟩ }, .none)
  | .resolveNext caller fails =>
    match s.resolvers.get? caller with
    | none => (s, .none)
    | some call =>
      match call.next s.leases s.clock fails with
      | (leases, .inl call) =>
        ({ s with leases, resolvers := s.resolvers.insert caller call }, .none)
      | (leases, .inr result) =>
        ({ s with leases, resolvers := s.resolvers.erase caller }, .resolved call.target result)
  | .publish connId deviceId requestId snapshot =>
    match s.publishers.get? connId with
    | some _ => (s, .none)
    | none =>
      match publishDiscoveryV2 config requestId deviceId snapshot s.clock with
      | .error e => (s, .published (.error e))
      | .ok call => ({ s with publishers := s.publishers.insert connId call }, .none)
  | .publishNext connId fails =>
    match s.publishers.get? connId with
    | none => (s, .none)
    | some call =>
      match call.next config connId s.leases s.clock fails with
      | (leases, .inl call) =>
        ({ s with leases, publishers := s.publishers.insert connId call }, .none)
      | (leases, .inr result) =>
        ({ s with leases, publishers := s.publishers.erase connId }, .published result)

/-- **Any interleaving** of calls and store operations, from an empty store at some time. -/
def leaseMachine (config : DiscoveryConfig) (clock : ℕ) :
    Machine LeaseState LeaseOp LeaseOutput where
  start := ⟨.empty, clock, ∅, ∅⟩
  step := leaseStep config

/-- The owner of the lease, as a read now sees it. -/
def LeaseState.owner (s : LeaseState) (deviceId : String) : Option String :=
  s.leases.ownerAt deviceId s.clock

/-- The discovery, as a read now sees it. -/
def LeaseState.found (s : LeaseState) (deviceId : String) : Option Discovery :=
  s.leases.discoveryAt deviceId s.clock

/-! ## What one step does to a device -/

/-- The connection that takes the lease of the device. -/
def LeaseOp.takes (deviceId : String) : LeaseOp → Option String
  | .takePresence d connId _ _ => if d = deviceId then some connId else none
  | _ => none

/-- The connection that asks to renew the lease of the device. -/
def LeaseOp.renews (deviceId : String) : LeaseOp → Option String
  | .renewPresence d connId _ _ => if d = deviceId then some connId else none
  | _ => none

open LeaseStore

variable {config : DiscoveryConfig} {deviceId connId : String}

section Steps

variable {s s' : LeaseState}

/-- `s'` is `s` after some entries were dropped. -/
structure Drops (s s' : LeaseStore) : Prop where
  presence : ∀ deviceId, s'.presence.get? deviceId = s.presence.get? deviceId ∨
    s'.presence.get? deviceId = none
  discovery : ∀ deviceId, s'.discovery.get? deviceId = s.discovery.get? deviceId ∨
    s'.discovery.get? deviceId = none

theorem Drops.refl (s : LeaseStore) : Drops s s := ⟨fun _ => .inl rfl, fun _ => .inl rfl⟩

theorem drops_getPresence (s : LeaseStore) (deviceId : String) (now : ℕ) :
    Drops s (s.getPresence deviceId now).1 := by
  constructor <;> grind [getPresence]

theorem drops_getDiscovery (s : LeaseStore) (deviceId : String) (now : ℕ) :
    Drops s (s.getDiscovery deviceId now).1 := by
  constructor <;> grind [getDiscovery]

theorem drops_releasePresence (s : LeaseStore) (deviceId connId : String) (now : ℕ) :
    Drops s (s.releasePresence deviceId connId now).1 := by
  constructor <;> grind [releasePresence]

theorem drops_releaseDiscovery (s : LeaseStore) (deviceId connId : String) (now : ℕ) :
    Drops s (s.releaseDiscovery deviceId connId now).1 := by
  constructor <;> grind [releaseDiscovery]

/-- **A step of `resolvePeer`** drops expired entries at most. -/
inductive ResolveMove (call : ResolveCall) (s : LeaseStore) (now : ℕ) :
    Bool → ResolveCall ⊕ ResolveResult → Prop
  | ends (fails : Bool) (result : ResolveResult) (hresult : ∀ d, result ≠ .ready d) :
      ResolveMove call s now fails (.inr result)
  | readPresence (presence : Presence) (hstage : call.stage = .presence)
      (howner : s.ownerAt call.target now = some presence.connectionId) :
      ResolveMove call s now false (.inl { call with stage := .discovery presence })
  | readDiscovery (presence : Presence) (hstage : call.stage = .discovery presence) :
      ResolveMove call s now false
        (.inl { call with stage := .latest presence (s.discoveryAt call.target now) })
  | retries : ResolveMove call s now false (.inl ⟨call.target, call.attempt + 1, .presence⟩)
  | answers (presence latest : Presence) (found : Option Discovery) (result : ResolveResult)
      (hstage : call.stage = .latest presence found)
      (howner : s.ownerAt call.target now = some latest.connectionId)
      (hresult : resolveResult presence latest found = some result) :
      ResolveMove call s now false (.inr result)

theorem resolveMove_next (call : ResolveCall) (s : LeaseStore) (now : ℕ) (fails : Bool) :
    Drops s (call.next s now fails).1 ∧ ResolveMove call s now fails (call.next s now fails).2 := by
  have hdrops := drops_getPresence s call.target now
  have hdropsDiscovery := drops_getDiscovery s call.target now
  have hread : s.ownerAt call.target now =
      (s.getPresence call.target now).2.map Presence.connectionId := rfl
  unfold ResolveCall.next
  cases fails with
  | true => exact ⟨Drops.refl s, .ends _ _ nofun⟩
  | false =>
  rw [if_neg Bool.false_ne_true]
  rcases hstage : call.stage with _ | presence | ⟨presence, found⟩
  · generalize s.getPresence call.target now = result at hdrops hread ⊢
    rcases result with ⟨s', _ | presence⟩
    · exact ⟨hdrops, .ends _ _ nofun⟩
    · exact ⟨hdrops, .readPresence presence hstage hread⟩
  · exact ⟨hdropsDiscovery, .readDiscovery presence hstage⟩
  · generalize s.getPresence call.target now = result at hdrops hread ⊢
    rcases result with ⟨s', _ | latest⟩
    · exact ⟨hdrops, .ends _ _ nofun⟩
    · dsimp only
      split
      · rename_i result hresult
        exact ⟨hdrops, .answers presence latest found result hstage hread hresult⟩
      · split
        · exact ⟨hdrops, .retries⟩
        · exact ⟨hdrops, .ends _ _ nofun⟩

/-- **A step of `publishDiscoveryV2`**: a read of the lease; a read of the discovery and the check
of the revision; or the write. -/
inductive PublishMove (call : PublishCall) (connId : String) (s s' : LeaseStore) (now : ℕ) :
    PublishCall ⊕ PublishResult → Prop
  | ends (result : PublishResult) (hdiscovery : ∀ other, s'.discovery.get? other =
      s.discovery.get? other ∨ s'.discovery.get? other = none) :
      PublishMove call connId s s' now (.inr result)
  | readPresence (presence : Presence) (hdiscovery : s'.discovery = s.discovery) :
      PublishMove call connId s s' now (.inl { call with stage := .discovery presence })
  | readDiscovery (presence : Presence)
      (hcheck : checkRevision call.discovery (s.discoveryAt call.deviceId now) = none)
      (hsame : s'.discoveryAt call.deviceId now = s.discoveryAt call.deviceId now)
      (hdiscovery : ∀ other, s'.discovery.get? other = s.discovery.get? other ∨
        s'.discovery.get? other = none) :
      PublishMove call connId s s' now
        (.inl { call with stage := .write presence (s.discoveryAt call.deviceId now) })
  | writes (result : PublishResult) (presence : Presence) (old : Option Discovery) (ttl : ℕ)
      (hstage : call.stage = .write presence old)
      (howner : s.ownerAt call.deviceId now = some connId)
      (hdiscovery : s'.discovery = s.discovery.insert call.deviceId
        ⟨{ call.discovery with connectionId := connId }, now + ttl⟩) :
      PublishMove call connId s s' now (.inr result)

theorem publishMove_next (config : DiscoveryConfig) (call : PublishCall) (connId : String)
    (s : LeaseStore) (now : ℕ) (fails : Bool) :
    PublishMove call connId s (call.next config connId s now fails).1 now
      (call.next config connId s now fails).2 := by
  unfold PublishCall.next
  split_ifs
  · exact .ends _ fun _ => .inl rfl
  · rcases hstage : call.stage with _ | presence | ⟨presence, old⟩
    · have hsame := discovery_getPresence s call.deviceId now
      generalize s.getPresence call.deviceId now = result at hsame ⊢
      rcases result with ⟨s', _ | presence⟩
      · exact .ends _ fun other => .inl (congrArg (fun t => t.get? other) hsame)
      · exact .readPresence presence hsame
    · have hkept := (drops_getDiscovery s call.deviceId now).discovery
      have hsame := discoveryAt_getDiscovery s call.deviceId now
      have hread : (s.getDiscovery call.deviceId now).2 = s.discoveryAt call.deviceId now := rfl
      generalize s.getDiscovery call.deviceId now = result at hkept hsame hread ⊢
      obtain ⟨s', old⟩ := result
      dsimp only at hread ⊢
      subst hread
      split
      · exact .ends _ hkept
      · rename_i hcheck
        exact .readDiscovery presence hcheck hsame hkept
    · obtain ⟨-, hwrite⟩ :=
        s.takeDiscovery_cases call.deviceId connId call.discovery config.presenceTtl now
      generalize s.takeDiscovery call.deviceId connId call.discovery config.presenceTtl now =
        result at hwrite ⊢
      rcases hwrite with ⟨hfalse, hsame⟩ | ⟨htrue, howner, hdiscovery⟩
      · obtain ⟨s', _ | _⟩ := result
        · exact .ends _ fun other => .inl (congrArg (fun t => t.get? other) hsame)
        · cases hfalse
      · obtain ⟨s', _ | _⟩ := result
        · cases htrue
        · exact .writes _ presence old _ hstage howner hdiscovery

theorem presence_next_publish (config : DiscoveryConfig) (call : PublishCall) (connId : String)
    (s : LeaseStore) (now : ℕ) (fails : Bool) (other : String) :
    (call.next config connId s now fails).1.presence.get? other = s.presence.get? other ∨
      (call.next config connId s now fails).1.presence.get? other = none := by
  have hkept := (drops_getPresence s call.deviceId now).presence other
  have hread := (drops_getDiscovery s call.deviceId now).presence other
  have hwrite :=
    (s.takeDiscovery_cases call.deviceId connId call.discovery config.presenceTtl now).1 other
  grind [PublishCall.next]

variable (op : LeaseOp)

/-- **Who owns a lease after a step** owned it before, took it, or renewed it. -/
theorem owner_step (h : (leaseStep config s op).1.owner deviceId = some connId) :
    s.owner deviceId = some connId ∨ op.takes deviceId = some connId ∨
      (op.renews deviceId = some connId ∧ (leaseStep config s op).2 = .done true) := by
  -- The lease of the device is as before, or gone.
  have hkept : ∀ {leases : LeaseStore}, leases.ownerAt deviceId s.clock = some connId →
      (leases.presence.get? deviceId = s.leases.presence.get? deviceId ∨
        leases.presence.get? deviceId = none) → s.owner deviceId = some connId := by
    intro leases howner hget
    rcases LeaseStore.ownerAt_eq_or_none_of_get? hget s.clock with heq | hnone
    · exact heq.symm.trans howner
    · rw [hnone] at howner
      cases howner
  have howns : ∀ {d c : String} {p : Presence} {ttl : ℕ},
      (s.leases.takePresence d c p ttl s.clock).1.ownerAt deviceId s.clock = some connId →
      s.owner deviceId = some connId ∨ (if d = deviceId then some c else none) = some connId := by
    grind [LeaseStore.ownerAt_eq_some, LeaseStore.presence_takePresence]
  cases op with
  | tick elapsed =>
    rcases s.leases.ownerAt_later deviceId (Nat.le_add_right s.clock elapsed) with heq | hnone
    · exact .inl (heq.symm.trans h)
    · cases hnone.symm.trans h
  | takePresence d c p ttl =>
    rcases howns h with hold | htakes
    · exact .inl hold
    · exact .inr (.inl htakes)
  | renewPresence d c p ttl =>
    dsimp only [leaseStep, LeaseState.owner, LeaseStore.renewPresence] at h ⊢
    split at h
    · exact .inl h
    · rename_i hfree
      rcases howns h with hold | hrenews
      · exact .inl hold
      · exact .inr (.inr ⟨hrenews, by rw [if_neg hfree]⟩)
  | releasePresence d c => exact .inl (hkept h ((drops_releasePresence ..).presence _))
  | takeDiscovery d c disc ttl => exact .inl (hkept h ((s.leases.takeDiscovery_cases ..).1 _))
  | renewDiscovery d c ttl =>
    exact .inl (hkept h (.inl (congrArg (fun t => t.get? deviceId)
      (s.leases.presence_renewDiscovery d c ttl s.clock))))
  | releaseDiscovery d c => exact .inl (hkept h ((drops_releaseDiscovery ..).presence _))
  | resolve caller target =>
    dsimp only [leaseStep] at h
    split at h <;> exact .inl h
  | resolveNext caller fails =>
    dsimp only [leaseStep] at h
    split at h
    · exact .inl h
    · rename_i call _
      have hdrops := (resolveMove_next call s.leases s.clock fails).1
      generalize call.next s.leases s.clock fails = result at hdrops h
      rcases result with ⟨leases, _ | _⟩ <;> exact .inl (hkept h (hdrops.presence _))
  | publish c d requestId snapshot =>
    dsimp only [leaseStep] at h
    split at h
    · exact .inl h
    · split at h <;> exact .inl h
  | publishNext c fails =>
    dsimp only [leaseStep] at h
    split at h
    · exact .inl h
    · rename_i call _
      have hdrops := presence_next_publish config call c s.leases s.clock fails deviceId
      generalize call.next config c s.leases s.clock fails = result at hdrops h
      rcases result with ⟨leases, _ | _⟩ <;> exact .inl (hkept h hdrops)

/-- The owner of the lease writes the discovery that its call publishes. -/
def Publishes (s : LeaseState) (op : LeaseOp) (deviceId : String) (new : Discovery) : Prop :=
  ∃ connId fails call presence old, op = .publishNext connId fails ∧
    s.publishers.get? connId = some call ∧ call.deviceId = deviceId ∧
    call.stage = .write presence old ∧ s.owner deviceId = some connId ∧
    new = { call.discovery with connectionId := connId }

/-- **What a read returns after a step** it returned before, or it was written. -/
theorem found_step {new : Discovery} (h : (leaseStep config s op).1.found deviceId = some new) :
    s.found deviceId = some new ∨ (∃ c d ttl, op = .takeDiscovery deviceId c d ttl) ∨
      Publishes s op deviceId new := by
  have hkept : ∀ {leases : LeaseStore}, leases.discoveryAt deviceId s.clock = some new →
      (leases.discovery.get? deviceId = s.leases.discovery.get? deviceId ∨
        leases.discovery.get? deviceId = none) → s.found deviceId = some new := by
    intro leases hfound hget
    rcases discoveryAt_eq_or_none_of_get? hget s.clock with heq | hnone
    · exact heq.symm.trans hfound
    · rw [hnone] at hfound
      cases hfound
  cases op with
  | tick elapsed =>
    rcases s.leases.discoveryAt_later deviceId (Nat.le_add_right s.clock elapsed) with heq | hnone
    · exact .inl (heq.symm.trans h)
    · cases hnone.symm.trans h
  | takePresence d c p ttl => exact .inl (hkept h (.inl rfl))
  | renewPresence d c p ttl =>
    grind [leaseStep, LeaseState.found, renewPresence]
  | releasePresence d c => exact .inl (hkept h ((drops_releasePresence ..).discovery _))
  | takeDiscovery d c disc ttl =>
    rcases eq_or_ne deviceId d with rfl | hne
    · exact .inr (.inl ⟨c, disc, ttl, rfl⟩)
    · refine .inl (hkept h (.inl ?_))
      rcases (s.leases.takeDiscovery_cases d c disc ttl s.clock).2 with ⟨-, hsame⟩ | ⟨-, -, hwrite⟩
      · exact congrArg (fun t => t.get? deviceId) hsame
      · exact (congrArg (fun t => t.get? deviceId) hwrite).trans (Table.get?_insert_of_ne hne _ _)
  | renewDiscovery d c ttl =>
    rcases s.leases.discoveryAt_renewDiscovery d c deviceId ttl s.clock with heq | hnone
    · exact .inl (heq.symm.trans h)
    · cases hnone.symm.trans h
  | releaseDiscovery d c => exact .inl (hkept h ((drops_releaseDiscovery ..).discovery _))
  | resolve caller target =>
    dsimp only [leaseStep] at h
    split at h <;> exact .inl h
  | resolveNext caller fails =>
    dsimp only [leaseStep] at h
    split at h
    · exact .inl h
    · rename_i call _
      have hdrops := (resolveMove_next call s.leases s.clock fails).1
      generalize call.next s.leases s.clock fails = result at hdrops h
      rcases result with ⟨leases, _ | _⟩ <;> exact .inl (hkept h (hdrops.discovery _))
  | publish c d requestId snapshot =>
    dsimp only [leaseStep] at h
    split at h
    · exact .inl h
    · split at h <;> exact .inl h
  | publishNext c fails =>
    dsimp only [leaseStep] at h
    split at h
    · exact .inl h
    · rename_i call hcall
      have hmove := publishMove_next config call c s.leases s.clock fails
      generalize call.next config c s.leases s.clock fails = result at hmove h
      obtain ⟨leases, next⟩ := result
      cases hmove with
      | ends result hdiscovery | readDiscovery presence hcheck hsame hdiscovery =>
        exact .inl (hkept h (hdiscovery _))
      | readPresence presence hdiscovery =>
        exact .inl (hkept h (.inl (congrArg (fun t => t.get? deviceId) hdiscovery)))
      | writes result presence old ttl hstage howner hdiscovery =>
        rcases eq_or_ne deviceId call.deviceId with rfl | hne
        · refine .inr (.inr ⟨c, fails, call, presence, old, rfl, hcall, rfl, hstage, howner, ?_⟩)
          obtain ⟨entry, hentry, -, hnew⟩ := discoveryAt_eq_some.mp h
          grind
        · refine .inl (hkept h (.inl ?_))
          grind

/-- **Where the call of a connection comes from**: it was there before, it has just begun, it has
read the lease, or it has just read the discovery and passed the check. -/
inductive PublisherStep (s s' : LeaseState) (op : LeaseOp) (connId : String) (call : PublishCall) :
    Prop
  | keeps (hcall : s.publishers.get? connId = some call)
      (hop : ∀ fails, op ≠ .publishNext connId fails)
  | begins (requestId : ℕ) (snapshot : DiscoverySnapshot)
      (hop : op = .publish connId call.deviceId requestId snapshot)
      (hstage : call.stage = .presence)
  | readPresence (old : PublishCall) (presence : Presence)
      (hcall : s.publishers.get? connId = some old) (hdevice : old.deviceId = call.deviceId)
      (hstage : call.stage = .discovery presence)
  | readDiscovery (old : PublishCall) (presence : Presence)
      (hcall : s.publishers.get? connId = some old) (hdevice : old.deviceId = call.deviceId)
      (hstage : call.stage = .write presence (s.found call.deviceId))
      (hcheck : checkRevision call.discovery (s.found call.deviceId) = none)
      (hsame : s'.found call.deviceId = s.found call.deviceId)

theorem publisher_step {call : PublishCall}
    (h : (leaseStep config s op).1.publishers.get? connId = some call) :
    PublisherStep s (leaseStep config s op).1 op connId call := by
  cases op with
  | resolve caller target | resolveNext caller fails =>
    refine .keeps ?_ nofun
    grind [leaseStep]
  | publish c d requestId snapshot =>
    dsimp only [leaseStep] at h ⊢
    split at h
    · exact .keeps h nofun
    · split at h
      · exact .keeps h nofun
      · rename_i call' hcall
        rcases eq_or_ne connId c with rfl | hne
        · rw [Table.get?_insert_self] at h
          cases h
          unfold publishDiscoveryV2 at hcall
          split_ifs at hcall
          cases hcall
          exact .begins requestId snapshot rfl rfl
        · rw [Table.get?_insert_of_ne hne] at h
          exact .keeps h nofun
  | publishNext c fails =>
    rcases hold : s.publishers.get? c with _ | old
    · have hsame : leaseStep config s (.publishNext c fails) = (s, .none) := by
        simp only [leaseStep, hold]
      rw [hsame] at h ⊢
      refine .keeps h ?_
      grind
    · have hmove := publishMove_next config old c s.leases s.clock fails
      rcases hnext : old.next config c s.leases s.clock fails with ⟨leases, next⟩
      rw [hnext] at hmove
      rcases eq_or_ne connId c with rfl | hne
      · rcases next with next | result
        · have hstep : leaseStep config s (.publishNext connId fails) =
              ({ s with leases, publishers := s.publishers.insert connId next }, .none) := by
            simp only [leaseStep, hold, hnext]
          rw [hstep] at h ⊢
          rw [Table.get?_insert_self] at h
          cases h
          cases hmove with
          | readPresence presence hdiscovery =>
            exact .readPresence old presence hold rfl rfl
          | readDiscovery presence hcheck hsame hdiscovery =>
            exact .readDiscovery old presence hold rfl rfl hcheck hsame
        · grind [leaseStep]
      · refine .keeps ?_ ?_
        · grind [leaseStep]
        · grind
  | _ => exact .keeps h nofun

/-- **Where a `resolvePeer` call comes from**: it was there before, an attempt begins, it has just
read the lease, or it has just read the discovery. -/
inductive ResolverStep (s : LeaseState) (op : LeaseOp) (caller : ℕ) (call : ResolveCall) : Prop
  | keeps (hcall : s.resolvers.get? caller = some call)
      (hop : ∀ fails, op ≠ .resolveNext caller fails)
  | begins (hstage : call.stage = .presence)
  | readPresence (presence : Presence) (hop : op = .resolveNext caller false)
      (hcall : s.resolvers.get? caller = some { call with stage := .presence })
      (hstage : call.stage = .discovery presence)
      (howner : s.owner call.target = some presence.connectionId)
  | readDiscovery (presence : Presence) (hop : op = .resolveNext caller false)
      (hcall : s.resolvers.get? caller = some { call with stage := .discovery presence })
      (hstage : call.stage = .latest presence (s.found call.target))

theorem resolver_step {caller : ℕ} {call : ResolveCall}
    (h : (leaseStep config s op).1.resolvers.get? caller = some call) :
    ResolverStep s op caller call := by
  cases op with
  | resolve c target =>
    dsimp only [leaseStep] at h
    split at h
    · exact .keeps h nofun
    · rcases eq_or_ne caller c with rfl | hne
      · rw [Table.get?_insert_self] at h
        cases h
        exact .begins rfl
      · rw [Table.get?_insert_of_ne hne] at h
        exact .keeps h nofun
  | resolveNext c fails =>
    rcases hold : s.resolvers.get? c with _ | old
    · simp only [leaseStep, hold] at h
      refine .keeps h ?_
      grind
    · obtain ⟨-, hmove⟩ := resolveMove_next old s.leases s.clock fails
      rcases hnext : old.next s.leases s.clock fails with ⟨leases, next | result⟩
      · rw [hnext] at hmove
        simp only [leaseStep, hold, hnext] at h
        rcases eq_or_ne caller c with rfl | hne
        · rw [Table.get?_insert_self] at h
          cases h
          cases hmove with
          | readPresence presence hstage howner =>
            exact .readPresence presence rfl (by rw [hold, ← hstage]) rfl howner
          | readDiscovery presence hstage =>
            exact .readDiscovery presence rfl (by rw [hold, ← hstage]) rfl
          | retries => exact .begins rfl
        · rw [Table.get?_insert_of_ne hne] at h
          refine .keeps h ?_
          grind
      · simp only [leaseStep, hold, hnext] at h
        rcases eq_or_ne caller c with rfl | hne
        · simp_all
        · rw [Table.get?_erase_of_ne hne] at h
          refine .keeps h ?_
          grind
  | publish c d requestId snapshot | publishNext c fails =>
    dsimp only [leaseStep] at h
    split at h
    · exact .keeps h nofun
    · split at h <;> exact .keeps h nofun
  | _ => exact .keeps h nofun

theorem resolveResult_eq_ready {presence latest : Presence} {found : Option Discovery}
    {d : Discovery} (h : resolveResult presence latest found = some (.ready d)) :
    found = some d ∧ presence.connectionId = d.connectionId ∧
      latest.connectionId = d.connectionId ∧ d.ready = true ∧ d.hasRuntimeEpoch = true := by
  unfold resolveResult at h
  grind

/-- A call that answers READY has read the lease and the discovery before, and reads the lease
again now. -/
theorem ready_step {target : String} {d : Discovery}
    (h : (leaseStep config s op).2 = .resolved target (.ready d)) :
    ∃ caller call presence, op = .resolveNext caller false ∧
      s.resolvers.get? caller = some call ∧ call.target = target ∧
      call.stage = .latest presence (some d) ∧ presence.connectionId = d.connectionId ∧
      s.owner target = some d.connectionId ∧ d.ready = true ∧ d.hasRuntimeEpoch = true := by
  cases op with
  | resolveNext caller fails =>
    rcases hcall : s.resolvers.get? caller with _ | call
    · grind [leaseStep]
    · obtain ⟨-, hmove⟩ := resolveMove_next call s.leases s.clock fails
      rcases hnext : call.next s.leases s.clock fails with ⟨leases, next | result⟩
      · grind [leaseStep]
      · rw [hnext] at hmove
        simp only [leaseStep, hcall, hnext] at h
        cases h
        cases hmove with
        | ends _ result hresult => exact absurd rfl (hresult d)
        | answers presence latest found result hstage howner hresult =>
          obtain ⟨rfl, hpresence, hlatest, hready, hepoch⟩ := resolveResult_eq_ready hresult
          exact ⟨caller, call, presence, rfl, hcall, rfl, hstage, hpresence, hlatest ▸ howner,
            hready, hepoch⟩
  | resolve c target | publish c d requestId snapshot | publishNext c fails =>
    grind [leaseStep]
  | _ => cases h

end Steps

/-! ## Runs -/

/-- The connections that took the lease of the device, in order. -/
def takers (deviceId : String) (ops : List LeaseOp) : List String :=
  ops.filterMap (LeaseOp.takes deviceId)

/-- Connection ids are never reused: none takes the lease of the device twice. -/
def FreshConnections (deviceId : String) (ops : List LeaseOp) : Prop := (takers deviceId ops).Nodup

/-- A renewal never meets a lease that is absent or has expired, which it would acquire. -/
def RenewsHeld (deviceId : String) (s : LeaseState) (op : LeaseOp) : Prop :=
  (op.renews deviceId).isSome = true →
    ∃ entry, s.leases.presence.get? deviceId = some entry ∧ s.clock < entry.expiresAt

/-- A connection publishes after it took the lease. -/
def PublishersTook (deviceId : String) (ops : List LeaseOp) : Prop :=
  ∀ before after connId requestId snapshot,
    ops = before ++ .publish connId deviceId requestId snapshot :: after →
    connId ∈ takers deviceId before

/-- Discoveries of the device are written by `publishDiscoveryV2` only. -/
def WritesPublish (deviceId : String) (ops : List LeaseOp) : Prop :=
  ∀ connId d ttl, .takeDiscovery deviceId connId d ttl ∉ ops

section Runs

variable {clock : ℕ}

/-- A lease that is held is renewed for its owner only. -/
theorem owner_of_renews {s : LeaseState} {op : LeaseOp} (h : RenewsHeld deviceId s op)
    (hrenews : op.renews deviceId = some connId)
    (hdone : (leaseStep config s op).2 = .done true) : s.owner deviceId = some connId := by
  cases op with
  | renewPresence d c p ttl =>
    simp only [LeaseOp.renews] at hrenews
    split_ifs at hrenews with hd
    cases hrenews
    subst hd
    obtain ⟨entry, hentry, hlive⟩ := h (by simp [LeaseOp.renews])
    simp only [leaseStep, renewPresence] at hdone
    split_ifs at hdone with hother
    · cases hdone
    · refine ownerAt_eq_some.mpr ⟨entry, hentry, hlive.le, ?_⟩
      rw [ownedByOther, hentry] at hother
      simpa [hlive] using hother
  | _ => cases hrenews

theorem takers_append (deviceId : String) (xs ys : List LeaseOp) :
    takers deviceId (xs ++ ys) = takers deviceId xs ++ takers deviceId ys :=
  List.filterMap_append

theorem mem_takers_of_takes {ops : List LeaseOp} {op : LeaseOp}
    (h : op.takes deviceId = some connId) : connId ∈ takers deviceId (ops ++ [op]) := by
  rw [takers_append]
  exact List.mem_append_right _ (List.mem_filterMap.mpr ⟨op, List.mem_singleton_self op, h⟩)

/-- Who owns the lease took it. -/
theorem mem_takers_of_owner {ops : List LeaseOp}
    (hrenews : (leaseMachine config clock).Along (RenewsHeld deviceId) ops)
    (howner : ((leaseMachine config clock).run ops).owner deviceId = some connId) :
    connId ∈ takers deviceId ops := by
  induction ops using List.reverseRecOn with
  | nil => cases howner
  | append_singleton ops op ih =>
    obtain ⟨halong, hop⟩ := ((leaseMachine config clock).alongFrom_snoc _ ops op).mp hrenews
    rw [Machine.run_snoc] at howner
    have hbefore : ∀ {c}, c ∈ takers deviceId ops → c ∈ takers deviceId (ops ++ [op]) := fun h => by
      grind [takers_append]
    rcases owner_step op howner with hold | htakes | ⟨hrenew, hdone⟩
    · exact hbefore (ih halong hold)
    · exact mem_takers_of_takes htakes
    · exact hbefore (ih halong (owner_of_renews hop hrenew hdone))

variable {before ops : List LeaseOp}

/-- **Ownership has no gap**: a connection that took the lease before `between` and owns it at the
end owned it throughout. -/
theorem owner_of_owner_later {between : List LeaseOp}
    (hfresh : FreshConnections deviceId (before ++ between))
    (hrenews : (leaseMachine config clock).Along (RenewsHeld deviceId)
      (before ++ between)) (htook : connId ∈ takers deviceId before)
    (howner : ((leaseMachine config clock).run (before ++ between)).owner deviceId = some connId) :
    ((leaseMachine config clock).run before).owner deviceId = some connId := by
  induction between using List.reverseRecOn with
  | nil => simpa using howner
  | append_singleton between op ih =>
    rw [← List.append_assoc] at hfresh hrenews howner
    obtain ⟨halong, hop⟩ :=
      ((leaseMachine config clock).alongFrom_snoc _ (before ++ between) op).mp hrenews
    rw [Machine.run_snoc] at howner
    have hfreshBefore : FreshConnections deviceId (before ++ between) := by
      grind [takers_append, FreshConnections]
    rcases owner_step op howner with hold | htakes | ⟨hrenew, hdone⟩
    · exact ih hfreshBefore halong hold
    · -- The connection would take the lease a second time.
      unfold FreshConnections at hfresh
      rw [takers_append] at hfresh
      have hfirst : connId ∈ takers deviceId (before ++ between) := by
        grind [takers_append]
      have hsecond : connId ∈ takers deviceId [op] :=
        List.mem_filterMap.mpr ⟨op, List.mem_singleton_self op, htakes⟩
      grind
    · exact ih hfreshBefore halong (owner_of_renews hop hrenew hdone)

/-- The caller makes no read in `ops`. -/
def Waits (caller : ℕ) (ops : List LeaseOp) : Prop := ∀ fails, .resolveNext caller fails ∉ ops

/-- The operation that makes the next read of a caller. -/
abbrev LeaseOp.reads (caller : ℕ) : LeaseOp := .resolveNext caller false

/-- What a call has read, it read at earlier points of the run. -/
def ResolveCall.Read (M : Machine LeaseState LeaseOp LeaseOutput) (caller : ℕ)
    (ops : List LeaseOp) (call : ResolveCall) : Prop :=
  match call.stage with
  | .presence => True
  | .discovery presence => ∃ first second, ops = first ++ .reads caller :: second ∧
      Waits caller second ∧
      (M.run first).resolvers.get? caller = some { call with stage := .presence } ∧
      (M.run first).owner call.target = some presence.connectionId
  | .latest presence found => ∃ first second third,
      ops = first ++ .reads caller :: second ++ .reads caller :: third ∧
      Waits caller second ∧ Waits caller third ∧
      (M.run first).resolvers.get? caller = some { call with stage := .presence } ∧
      (M.run first).owner call.target = some presence.connectionId ∧
      (M.run (first ++ .reads caller :: second)).found call.target = found

theorem Waits.snoc {caller : ℕ} {op : LeaseOp} (h : Waits caller ops)
    (hop : ∀ fails, op ≠ .resolveNext caller fails) : Waits caller (ops ++ [op]) := by
  grind [Waits]

theorem read_of_resolver {caller : ℕ} {call : ResolveCall}
    (h : ((leaseMachine config clock).run ops).resolvers.get? caller = some call) :
    call.Read (leaseMachine config clock) caller ops := by
  induction ops using List.reverseRecOn generalizing call with
  | nil => cases h
  | append_singleton ops op ih =>
    rw [Machine.run_snoc] at h
    cases resolver_step op h with
    | keeps hcall hop =>
      have hread := ih hcall
      unfold ResolveCall.Read at hread ⊢
      split at hread
      · trivial
      · obtain ⟨first, second, rfl, hwaits, hrest⟩ := hread
        exact ⟨first, second ++ [op], by simp, hwaits.snoc hop, hrest⟩
      · obtain ⟨first, second, third, rfl, hsecond, hthird, hrest⟩ := hread
        exact ⟨first, second, third ++ [op], by simp, hsecond, hthird.snoc hop, hrest⟩
    | begins hstage =>
      rw [ResolveCall.Read, hstage]
      trivial
    | readPresence presence hop hcall hstage howner =>
      rw [ResolveCall.Read, hstage]
      exact ⟨ops, [], by rw [hop], nofun, hcall, howner⟩
    | readDiscovery presence hop hcall hstage =>
      have hread := ih hcall
      rw [ResolveCall.Read] at hread
      obtain ⟨first, second, rfl, hwaits, hfirst, howner⟩ := hread
      rw [ResolveCall.Read, hstage]
      exact ⟨first, second, [], by rw [hop], hwaits, nofun, hfirst, howner, rfl⟩

/-- The assumptions under which revisions do not go down. -/
structure Orderly (config : DiscoveryConfig) (clock : ℕ) (deviceId : String)
    (ops : List LeaseOp) : Prop where
  fresh : FreshConnections deviceId ops
  renews : (leaseMachine config clock).Along (RenewsHeld deviceId) ops
  took : PublishersTook deviceId ops
  writes : WritesPublish deviceId ops

theorem Orderly.of_append {after : List LeaseOp}
    (h : Orderly config clock deviceId (before ++ after)) :
    Orderly config clock deviceId before where
  fresh := by
    have hfresh := h.fresh
    grind [takers_append, FreshConnections]
  renews := (((leaseMachine config clock).alongFrom_append _ before after).mp h.renews).1
  took := fun first second c requestId snapshot heq =>
    h.took first (second ++ after) c requestId snapshot (by rw [heq]; simp)
  writes := fun c d ttl hmem => h.writes c d ttl (List.mem_append_left _ hmem)

/-- A connection that took the lease and owns it after a step owned it before. -/
theorem owner_before_step {op : LeaseOp} (h : Orderly config clock deviceId (ops ++ [op]))
    (htook : connId ∈ takers deviceId ops)
    (howner : ((leaseMachine config clock).run (ops ++ [op])).owner deviceId = some connId) :
    ((leaseMachine config clock).run ops).owner deviceId = some connId :=
  owner_of_owner_later h.fresh h.renews htook howner

/-- **What a publisher knows**: it took the lease, and as long as it owns the lease, the stored
discovery is the one its revision was checked against, or gone. -/
theorem publisher_run (h : Orderly config clock deviceId ops) {call : PublishCall}
    (hcall : ((leaseMachine config clock).run ops).publishers.get? connId = some call)
    (hdevice : call.deviceId = deviceId) :
    connId ∈ takers deviceId ops ∧ ∀ presence old, call.stage = .write presence old →
      checkRevision call.discovery old = none ∧
      (((leaseMachine config clock).run ops).owner deviceId = some connId →
        ((leaseMachine config clock).run ops).found deviceId = none ∨
          ((leaseMachine config clock).run ops).found deviceId = old) := by
  induction ops using List.reverseRecOn generalizing call with
  | nil => cases hcall
  | append_singleton ops op ih =>
    have hbefore : connId ∈ takers deviceId ops → connId ∈ takers deviceId (ops ++ [op]) :=
      fun hmem => by
        grind [takers_append]
    have horderly := h.of_append
    rw [Machine.run_snoc] at hcall
    cases publisher_step op hcall with
    | keeps hold hop =>
      obtain ⟨htook, hwrite⟩ := ih horderly hold hdevice
      refine ⟨hbefore htook, fun presence old hstage => ?_⟩
      obtain ⟨hcheck, hkept⟩ := hwrite presence old hstage
      refine ⟨hcheck, fun howner => ?_⟩
      have hownerBefore := owner_before_step h htook howner
      rcases hfound : ((leaseMachine config clock).run (ops ++ [op])).found deviceId with _ | new
      · exact .inl rfl
      · rw [Machine.run_snoc] at hfound
        rcases found_step op hfound with hsame | ⟨c, d, ttl, rfl⟩ |
          ⟨c, fails, writer, presence', old', rfl, -, -, -, hwriter, -⟩
        · simp_all
        · exact absurd (List.mem_append_right _ (List.mem_singleton_self _)) (h.writes c d ttl)
        · simp_all
    | begins requestId snapshot hop hstage =>
      refine ⟨hbefore (h.took ops [] connId requestId snapshot ?_), ?_⟩
      · rw [hop, hdevice]
      · simp_all
    | readPresence old presence hold hsame hstage =>
      simp_all
    | readDiscovery old presence hold hsame hstage hcheck hfound =>
      refine ⟨hbefore (ih horderly hold (hsame.trans hdevice)).1, ?_⟩
      intro presence' old' hwrite
      rw [hstage] at hwrite
      cases hwrite
      refine ⟨hcheck, fun _ => .inr ?_⟩
      rw [Machine.run_snoc]
      exact hdevice ▸ hfound

/-! ## Revisions -/

theorem sameStringSet_iff {a b : List String} : sameStringSet a b = true ↔ b.Perm a := by
  unfold sameStringSet
  rw [Bool.and_eq_true, List.isPerm_iff, decide_eq_true_eq]
  exact ⟨fun h => h.2, fun h => ⟨h.length_eq.symm, h⟩⟩

theorem sameDiscoveryContent_refl (d : Discovery) : sameDiscoveryContent d d = true := by
  grind [sameDiscoveryContent, sameStringSet_iff]

theorem sameDiscoveryContent_trans {a b c : Discovery} (hab : sameDiscoveryContent a b = true)
    (hbc : sameDiscoveryContent b c = true) : sameDiscoveryContent a c = true := by
  grind [sameDiscoveryContent, sameStringSet_iff]

/-- `new` may follow `old` in one epoch. -/
def Follows (old new : Discovery) : Prop :=
  old.revision ≤ new.revision ∧
    (old.revision = new.revision → sameDiscoveryContent old new = true)

theorem Follows.refl (d : Discovery) : Follows d d :=
  ⟨UInt32.le_refl _, fun _ => sameDiscoveryContent_refl d⟩

theorem Follows.trans {a b c : Discovery} (hab : Follows a b) (hbc : Follows b c) :
    Follows a c := by
  refine ⟨UInt32.le_trans hab.1 hbc.1, fun heq => ?_⟩
  have hb : a.revision = b.revision := UInt32.le_antisymm hab.1 (heq ▸ hbc.1)
  exact sameDiscoveryContent_trans (hab.2 hb) (hbc.2 (hb ▸ heq))

theorem follows_of_checkRevision {d old : Discovery} (h : checkRevision d (some old) = none)
    (hepoch : old.sameEpoch d = true) : Follows old d := by
  grind [checkRevision, Follows]

/-- **One step**: while a read returns a discovery of one epoch, its revision does not go down. -/
theorem follows_step {op : LeaseOp} (h : Orderly config clock deviceId (ops ++ [op]))
    {old new : Discovery} (hold : ((leaseMachine config clock).run ops).found deviceId = some old)
    (hnew : ((leaseMachine config clock).run (ops ++ [op])).found deviceId = some new)
    (hepoch : old.sameEpoch new = true) : Follows old new := by
  rw [Machine.run_snoc] at hnew
  rcases found_step op hnew with hsame | ⟨c, d, ttl, rfl⟩ |
    ⟨c, fails, call, presence, checked, rfl, hcall, hdevice, hstage, howner, rfl⟩
  · grind [Follows.refl]
  · exact absurd (List.mem_append_right _ (List.mem_singleton_self _)) (h.writes c d ttl)
  · obtain ⟨-, hwrite⟩ := publisher_run h.of_append hcall hdevice
    obtain ⟨hcheck, hkept⟩ := hwrite presence checked hstage
    rcases hkept howner with hnone | heq
    · rw [hnone] at hold
      cases hold
    · rw [← heq, hold] at hcheck
      exact follows_of_checkRevision hcheck hepoch

/-- At every point of `between` a read returns a discovery of this epoch. -/
def LivesIn (M : Machine LeaseState LeaseOp LeaseOutput) (deviceId : String) (old : Discovery)
    (before between : List LeaseOp) : Prop :=
  ∀ mid rest, between = mid ++ rest →
    ∃ d, (M.run (before ++ mid)).found deviceId = some d ∧ old.sameEpoch d = true

theorem sameEpoch_iff {a b : Discovery} :
    a.sameEpoch b = true ↔
      a.runtimeEpochHigh = b.runtimeEpochHigh ∧ a.runtimeEpochLow = b.runtimeEpochLow := by
  simp [Discovery.sameEpoch]

/-- **While an entry lives in one epoch**, its revision does not go down. -/
theorem follows_run {between : List LeaseOp} (h : Orderly config clock deviceId (before ++ between))
    {old new : Discovery} (hlives : LivesIn (leaseMachine config clock) deviceId old before between)
    (hold : ((leaseMachine config clock).run before).found deviceId = some old)
    (hnew : ((leaseMachine config clock).run (before ++ between)).found deviceId = some new) :
    Follows old new := by
  induction between using List.reverseRecOn generalizing new with
  | nil =>
    grind [Follows.refl]
  | append_singleton between op ih =>
    obtain ⟨mid, hmid, hmidEpoch⟩ := hlives between [op] rfl
    obtain ⟨last, hlast, hlastEpoch⟩ := hlives (between ++ [op]) [] (by simp)
    obtain rfl : new = last := Option.some.inj (hnew.symm.trans hlast)
    rw [← List.append_assoc] at h hnew
    have hfirst : Follows old mid := by
      grind [Orderly.of_append, LivesIn]
    have hsame : mid.sameEpoch new = true := by
      grind [sameEpoch_iff]
    exact hfirst.trans (follows_step h hmid hnew hsame)

/-! ## READY -/

/-- **The reads behind a READY answer** of `caller`: it began an attempt and read the lease after
`first`, read the discovery after `second` and reads the lease again after `third`; the connection
that published the discovery owned the lease both times. -/
structure ReadyReads (M : Machine LeaseState LeaseOp LeaseOutput) (deviceId : String) (caller : ℕ)
    (s : Discovery) (first second third : List LeaseOp) : Prop where
  second_waits : Waits caller second
  third_waits : Waits caller third
  begins : ∃ attempt, (M.run first).resolvers.get? caller = some ⟨deviceId, attempt, .presence⟩
  owner : (M.run first).owner deviceId = some s.connectionId
  found : (M.run (first ++ .reads caller :: second)).found deviceId = some s
  latest : (M.run (first ++ .reads caller :: second ++ .reads caller :: third)).owner deviceId =
    some s.connectionId

/-- The reads of a step that answers READY. -/
theorem readyReads_of_ready {op : LeaseOp} {s : Discovery}
    (h : (leaseStep config ((leaseMachine config clock).run ops) op).2 =
      .resolved deviceId (.ready s)) :
    0 < s.revision ∧ (s.runtimeEpochHigh ≠ 0 ∨ s.runtimeEpochLow ≠ 0) ∧
      ∃ caller first second third, op = .reads caller ∧
        ops = first ++ .reads caller :: second ++ .reads caller :: third ∧
        ReadyReads (leaseMachine config clock) deviceId caller s first second third := by
  obtain ⟨caller, call, presence, rfl, hcall, rfl, hstage, hpresence, howner, hrevision, hepoch⟩ :=
    ready_step op h
  have hread := read_of_resolver hcall
  unfold ResolveCall.Read at hread
  rw [hstage] at hread
  obtain ⟨first, second, third, rfl, hsecond, hthird, hbegins, hfirst, hfound⟩ := hread
  exact ⟨by simpa [Discovery.ready] using hrevision,
    by simpa [Discovery.hasRuntimeEpoch] using hepoch, caller, first, second, third, rfl, rfl,
    hsecond, hthird, ⟨_, hbegins⟩, hpresence ▸ hfirst, hfound, howner⟩

/-- **A READY answer**, over every interleaving in which connection ids are not reused. Its
discovery has a positive revision and a non-zero epoch; the connection that published it owned the
lease when the call read the lease before and after the discovery, and, if no renewal met an absent
lease, also when the call read the discovery. Under the same assumption, while an entry of one epoch
lives, its revision does not go down and equal revisions have equal content. -/
theorem ready_resolve (config : DiscoveryConfig) (clock : ℕ) (deviceId : String)
    (ops : List LeaseOp) (hfresh : FreshConnections deviceId ops) :
    (∀ before op after s, ops = before ++ op :: after →
      (leaseStep config ((leaseMachine config clock).run before) op).2 =
        .resolved deviceId (.ready s) →
      0 < s.revision ∧ (s.runtimeEpochHigh ≠ 0 ∨ s.runtimeEpochLow ≠ 0) ∧
      ∃ caller first second third, op = .reads caller ∧
        before = first ++ .reads caller :: second ++ .reads caller :: third ∧
        ReadyReads (leaseMachine config clock) deviceId caller s first second third ∧
        ((leaseMachine config clock).Along (RenewsHeld deviceId) before →
          ((leaseMachine config clock).run (first ++ .reads caller :: second)).owner deviceId =
            some s.connectionId)) ∧
    ((leaseMachine config clock).Along (RenewsHeld deviceId) ops →
      PublishersTook deviceId ops → WritesPublish deviceId ops →
      ∀ before between old new, ops = before ++ between →
        LivesIn (leaseMachine config clock) deviceId old before between →
        ((leaseMachine config clock).run before).found deviceId = some old →
        ((leaseMachine config clock).run ops).found deviceId = some new →
        old.revision ≤ new.revision ∧
          (old.revision = new.revision → sameDiscoveryContent old new = true)) := by
  refine ⟨?_, ?_⟩
  · rintro before op after s rfl hready
    obtain ⟨hrevision, hepoch, caller, first, second, third, hop, rfl, hreads⟩ :=
      readyReads_of_ready hready
    refine ⟨hrevision, hepoch, caller, first, second, third, hop, rfl, hreads, fun hrenews => ?_⟩
    have hbefore : FreshConnections deviceId
        (first ++ .reads caller :: second ++ .reads caller :: third) := by
      grind [takers_append, FreshConnections]
    have htook : s.connectionId ∈ takers deviceId (first ++ .reads caller :: second) := by
      rw [takers_append]
      refine List.mem_append_left _ (mem_takers_of_owner ?_ hreads.owner)
      rw [List.append_assoc] at hrenews
      exact (((leaseMachine config clock).alongFrom_append _ first _).mp hrenews).1
    exact owner_of_owner_later hbefore hrenews htook hreads.latest
  · rintro hrenews htook hwrites before between old new rfl hlives hold hnew
    exact follows_run ⟨hfresh, hrenews, htook, hwrites⟩ hlives hold hnew

end Runs

/-! ## A lease that comes back -/

def sampleConfig : DiscoveryConfig := ⟨60, fun _ => "candidate"⟩

def sampleSnapshot (revision : UInt32) : DiscoverySnapshot := ⟨some (1, 2), revision, [1], none⟩

def samplePresence : Presence := ⟨"instance", "", "", 0⟩

/-- A whole `publishDiscoveryV2` call. -/
def publishAll (connId : String) (revision : UInt32) : List LeaseOp :=
  [.publish connId "device" 1 (sampleSnapshot revision), .publishNext connId false,
    .publishNext connId false, .publishNext connId false]

/-- The discovery of revision one, as the first connection publishes it. -/
def firstDiscovery : Discovery := ⟨"device", "first", 1, 2, 1, ["1"], [], 0⟩

/-- A connection publishes, and its peer is resolved. -/
def steadyRun : List LeaseOp :=
  .takePresence "device" "first" samplePresence 60 :: publishAll "first" 1 ++
    [.resolve 0 "device", .resolveNext 0 false, .resolveNext 0 false]

theorem ready_resolve_steady :
    FreshConnections "device" (steadyRun ++ [.resolveNext 0 false]) ∧
    0 < firstDiscovery.revision := by
  have hfresh : FreshConnections "device" (steadyRun ++ [.resolveNext 0 false]) := by
    unfold FreshConnections
    decide +kernel
  refine ⟨hfresh, ?_⟩
  exact ((ready_resolve sampleConfig 0 "device" _ hfresh).1 steadyRun (.resolveNext 0 false) []
    firstDiscovery rfl (by decide +kernel)).1

/-- The second connection takes the lease between the reads of a call and releases it; the first
one renews, which acquires the lease again. -/
def takeoverRun : List LeaseOp :=
  .takePresence "device" "first" samplePresence 60 :: publishAll "first" 1 ++
    [.resolve 0 "device", .resolveNext 0 false,
      .takePresence "device" "second" samplePresence 60, .resolveNext 0 false,
      .releasePresence "device" "second", .renewPresence "device" "first" samplePresence 60]

/-- The first connection has passed the check of revision two when the second one takes the lease,
publishes revision five and releases the lease. -/
def overtakenRun : List LeaseOp :=
  .takePresence "device" "first" samplePresence 60 :: publishAll "first" 1 ++
    (publishAll "first" 2).take 3 ++ .takePresence "device" "second" samplePresence 60 ::
    publishAll "second" 5 ++
    [.releasePresence "device" "second", .renewPresence "device" "first" samplePresence 60]

/-- **A READY answer whose discovery was read under another owner, and a revision that goes down.**
No connection id is reused in either run. -/
theorem ready_after_takeover :
    (FreshConnections "device" (takeoverRun ++ [.resolveNext 0 false]) ∧
      (leaseStep sampleConfig ((leaseMachine sampleConfig 0).run takeoverRun)
        (.resolveNext 0 false)).2 = .resolved "device" (.ready firstDiscovery) ∧
      ((leaseMachine sampleConfig 0).run (takeoverRun.take 8)).found "device" =
        some firstDiscovery ∧
      ((leaseMachine sampleConfig 0).run (takeoverRun.take 8)).owner "device" = some "second" ∧
      takeoverRun[8]? = some (.resolveNext 0 false)) ∧
    (FreshConnections "device" (overtakenRun ++ [.publishNext "first" false]) ∧
      (((leaseMachine sampleConfig 0).run overtakenRun).found "device").map
        (fun d => (d.sameEpoch firstDiscovery, d.revision)) = some (true, 5) ∧
      (((leaseMachine sampleConfig 0).run
        (overtakenRun ++ [.publishNext "first" false])).found "device").map
          (fun d => (d.sameEpoch firstDiscovery, d.revision)) = some (true, 2)) := by
  unfold FreshConnections
  decide +kernel

end SshMobile.Server
