import SshMobile.Library.Table

/-!
# Presence leases and discovery entries

The memory store keeps, for each device, the presence lease of the connection that took the device
over last, and the discovery that the owner of the lease published. Both expire; an expired entry is
absent to every operation, and is dropped by the operations that meet it. The operations compare a
clock reading with an expiry in two ways: reads still return an entry at the instant it expires,
the operations that check an owner do not see it any more.

## Main definitions

* `LeaseStore`: the leases and the discovery entries
* `takePresence`, `renewPresence`, `releasePresence`, `getPresence`: the lease of a device
* `takeDiscovery`, `renewDiscovery`, `releaseDiscovery`, `getDiscovery`: its discovery
* `LeaseStore.ownerAt`, `LeaseStore.discoveryAt`: what a read at an instant returns
-/

namespace SshMobile.Server

open Library

structure Presence where
  instanceId : String
  connectionId : String
  remoteAddr : String
  lastSeen : ℕ
deriving DecidableEq

structure PresenceEntry where
  presence : Presence
  expiresAt : ℕ
deriving DecidableEq

structure Discovery where
  deviceId : String
  connectionId : String
  runtimeEpochHigh : UInt64
  runtimeEpochLow : UInt64
  revision : UInt32
  capabilities : List String
  candidates : List String
  updatedAt : ℕ
deriving DecidableEq

structure DiscoveryEntry where
  discovery : Discovery
  expiresAt : ℕ
deriving DecidableEq

namespace Discovery

def ready (d : Discovery) : Bool := decide (0 < d.revision)

def hasRuntimeEpoch (d : Discovery) : Bool := d.runtimeEpochHigh != 0 || d.runtimeEpochLow != 0

def sameEpoch (d o : Discovery) : Bool :=
  d.runtimeEpochHigh == o.runtimeEpochHigh && d.runtimeEpochLow == o.runtimeEpochLow

end Discovery

/-- The part of `memoryStore` that `mu` guards, the reservations apart. -/
structure LeaseStore where
  presence : Table String PresenceEntry
  discovery : Table String DiscoveryEntry

namespace LeaseStore

def empty : LeaseStore := ⟨∅, ∅⟩

/-- `TakePresence`: the connection becomes the owner. The lease it replaces is returned, unless it
has expired. -/
def takePresence (s : LeaseStore) (deviceId connId : String) (p : Presence) (ttl now : ℕ) :
    LeaseStore × Option Presence :=
  let previous := match s.presence.get? deviceId with
    | some entry => if now < entry.expiresAt then some entry.presence else none
    | none => none
  ({ s with
      presence := s.presence.insert deviceId ⟨{ p with connectionId := connId }, now + ttl⟩ },
    previous)

/-- The device has a lease that another connection owns and that has not expired. -/
def ownedByOther (s : LeaseStore) (deviceId connId : String) (now : ℕ) : Bool :=
  match s.presence.get? deviceId with
  | some entry => decide (now < entry.expiresAt) && decide (entry.presence.connectionId ≠ connId)
  | none => false

/-- `RenewPresence`: also acquires a lease that is absent or has expired. -/
def renewPresence (s : LeaseStore) (deviceId connId : String) (p : Presence) (ttl now : ℕ) :
    LeaseStore × Bool :=
  if s.ownedByOther deviceId connId now then (s, false)
  else
    ({ s with
        presence := s.presence.insert deviceId ⟨{ p with connectionId := connId }, now + ttl⟩ },
      true)

def releasePresence (s : LeaseStore) (deviceId connId : String) (now : ℕ) : LeaseStore × Bool :=
  match s.presence.get? deviceId with
  | none => (s, false)
  | some entry =>
    if entry.expiresAt ≤ now then ({ s with presence := s.presence.erase deviceId }, false)
    else if entry.presence.connectionId ≠ connId then (s, false)
    else ({ s with presence := s.presence.erase deviceId }, true)

def getPresence (s : LeaseStore) (deviceId : String) (now : ℕ) : LeaseStore × Option Presence :=
  match s.presence.get? deviceId with
  | none => (s, none)
  | some entry =>
    if entry.expiresAt < now then ({ s with presence := s.presence.erase deviceId }, none)
    else (s, some entry.presence)

/-- `TakeDiscovery`: writes only for the owner of the lease. -/
def takeDiscovery (s : LeaseStore) (deviceId connId : String) (d : Discovery) (ttl now : ℕ) :
    LeaseStore × Bool :=
  match s.presence.get? deviceId with
  | none => (s, false)
  | some entry =>
    if entry.expiresAt ≤ now then ({ s with presence := s.presence.erase deviceId }, false)
    else if entry.presence.connectionId ≠ connId then (s, false)
    else
      ({ s with
          discovery := s.discovery.insert deviceId ⟨{ d with connectionId := connId }, now + ttl⟩ },
        true)

/-- `RenewDiscovery`: moves the expiry of the owner's entry; an absent entry counts as renewed. -/
def renewDiscovery (s : LeaseStore) (deviceId connId : String) (ttl now : ℕ) :
    LeaseStore × Bool :=
  match s.discovery.get? deviceId with
  | none => (s, true)
  | some entry =>
    if now < entry.expiresAt ∧ entry.discovery.connectionId ≠ connId then (s, false)
    else if entry.expiresAt < now then
      ({ s with discovery := s.discovery.erase deviceId }, true)
    else
      ({ s with
          discovery := s.discovery.insert deviceId { entry with expiresAt := now + ttl } }, true)

def releaseDiscovery (s : LeaseStore) (deviceId connId : String) (now : ℕ) : LeaseStore × Bool :=
  match s.discovery.get? deviceId with
  | none => (s, false)
  | some entry =>
    if entry.expiresAt ≤ now then ({ s with discovery := s.discovery.erase deviceId }, false)
    else if entry.discovery.connectionId ≠ connId then (s, false)
    else ({ s with discovery := s.discovery.erase deviceId }, true)

def getDiscovery (s : LeaseStore) (deviceId : String) (now : ℕ) : LeaseStore × Option Discovery :=
  match s.discovery.get? deviceId with
  | none => (s, none)
  | some entry =>
    if entry.expiresAt < now then ({ s with discovery := s.discovery.erase deviceId }, none)
    else (s, some entry.discovery)

/-! ## What reads return -/

/-- The owner of the lease of a device, as a read at `now` sees it. -/
def ownerAt (s : LeaseStore) (deviceId : String) (now : ℕ) : Option String :=
  (s.getPresence deviceId now).2.map Presence.connectionId

/-- The discovery of a device, as a read at `now` sees it. -/
def discoveryAt (s : LeaseStore) (deviceId : String) (now : ℕ) : Option Discovery :=
  (s.getDiscovery deviceId now).2

variable {s : LeaseStore} {deviceId other connId : String} {now later ttl : ℕ}

theorem ownerAt_eq_some :
    s.ownerAt deviceId now = some connId ↔
      ∃ entry, s.presence.get? deviceId = some entry ∧ now ≤ entry.expiresAt ∧
        entry.presence.connectionId = connId := by
  grind [ownerAt, getPresence]

theorem discoveryAt_eq_some {d : Discovery} :
    s.discoveryAt deviceId now = some d ↔
      ∃ entry, s.discovery.get? deviceId = some entry ∧ now ≤ entry.expiresAt ∧
        entry.discovery = d := by
  grind [discoveryAt, getDiscovery]

theorem ownerAt_eq_or_none_of_get? {s' : LeaseStore}
    (h : s'.presence.get? deviceId = s.presence.get? deviceId ∨
      s'.presence.get? deviceId = none) (now : ℕ) :
    s'.ownerAt deviceId now = s.ownerAt deviceId now ∨ s'.ownerAt deviceId now = none := by
  grind [ownerAt, getPresence]

theorem discoveryAt_eq_or_none_of_get? {s' : LeaseStore}
    (h : s'.discovery.get? deviceId = s.discovery.get? deviceId ∨
      s'.discovery.get? deviceId = none) (now : ℕ) :
    s'.discoveryAt deviceId now = s.discoveryAt deviceId now ∨
      s'.discoveryAt deviceId now = none := by
  grind [discoveryAt, getDiscovery]

theorem ownerAt_later (s : LeaseStore) (deviceId : String) (h : now ≤ later) :
    s.ownerAt deviceId later = s.ownerAt deviceId now ∨ s.ownerAt deviceId later = none := by
  rcases hlater : s.ownerAt deviceId later with _ | connId
  · exact .inr rfl
  · grind [ownerAt_eq_some]

theorem discoveryAt_later (s : LeaseStore) (deviceId : String) (h : now ≤ later) :
    s.discoveryAt deviceId later = s.discoveryAt deviceId now ∨
      s.discoveryAt deviceId later = none := by
  rcases hlater : s.discoveryAt deviceId later with _ | d
  · exact .inr rfl
  · grind [discoveryAt_eq_some]

/-! ## What operations change -/

theorem presence_takePresence (s : LeaseStore) (deviceId connId : String) (p : Presence)
    (ttl now : ℕ) :
    (s.takePresence deviceId connId p ttl now).1.presence =
      s.presence.insert deviceId ⟨{ p with connectionId := connId }, now + ttl⟩ := rfl

@[simp] theorem discovery_getPresence (s : LeaseStore) (deviceId : String) (now : ℕ) :
    (s.getPresence deviceId now).1.discovery = s.discovery := by
  grind [getPresence]

/-- Reading a discovery does not change what the read returns. -/
theorem discoveryAt_getDiscovery (s : LeaseStore) (deviceId : String) (now : ℕ) :
    (s.getDiscovery deviceId now).1.discoveryAt deviceId now = s.discoveryAt deviceId now := by
  grind [discoveryAt, getDiscovery]

@[simp] theorem presence_renewDiscovery (s : LeaseStore) (deviceId connId : String)
    (ttl now : ℕ) : (s.renewDiscovery deviceId connId ttl now).1.presence = s.presence := by
  grind [renewDiscovery]

/-- A renewal moves an expiry, or drops an expired entry; a read returns the same. -/
theorem discoveryAt_renewDiscovery (s : LeaseStore) (deviceId connId other : String) (ttl now : ℕ) :
    (s.renewDiscovery deviceId connId ttl now).1.discoveryAt other now =
        s.discoveryAt other now ∨
      (s.renewDiscovery deviceId connId ttl now).1.discoveryAt other now = none := by
  unfold renewDiscovery
  split
  · exact .inl rfl
  · rename_i entry hentry
    split_ifs with hforeign hexpired
    · exact .inl rfl
    · grind [discoveryAt_eq_or_none_of_get?]
    · rcases eq_or_ne other deviceId with rfl | hne
      · refine .inl ?_
        have hle := not_lt.mp hexpired
        rw [discoveryAt_eq_some.mpr ⟨entry, hentry, hle, rfl⟩]
        grind [discoveryAt_eq_some]
      · grind [discoveryAt_eq_or_none_of_get?]

/-- **A write of a discovery**: by the owner of the lease, or nothing is written. -/
theorem takeDiscovery_cases (s : LeaseStore) (deviceId connId : String) (d : Discovery)
    (ttl now : ℕ) :
    (∀ other, (s.takeDiscovery deviceId connId d ttl now).1.presence.get? other =
        s.presence.get? other ∨
      (s.takeDiscovery deviceId connId d ttl now).1.presence.get? other = none) ∧
    ((s.takeDiscovery deviceId connId d ttl now).2 = false ∧
        (s.takeDiscovery deviceId connId d ttl now).1.discovery = s.discovery ∨
      (s.takeDiscovery deviceId connId d ttl now).2 = true ∧
        s.ownerAt deviceId now = some connId ∧
        (s.takeDiscovery deviceId connId d ttl now).1.discovery =
          s.discovery.insert deviceId ⟨{ d with connectionId := connId }, now + ttl⟩) := by
  unfold takeDiscovery
  split
  · simp
  · grind [ownerAt_eq_some]

end LeaseStore

end SshMobile.Server
