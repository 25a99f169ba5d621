import SshMobile.Connection.Frame
import SshMobile.Library.Table

/-!
# Physical paths

A physical path owns one authenticated carrier. Business operations borrow the path through
leases; retiring a path lets its leases run out, closing it does not. Every operation here is one
critical section of the path's own lock, so it is a function on the contents of that lock that
also returns the carrier it took out, which the caller then closes.

## Main definitions

* `PhysicalPathInner.tryAcquire`, `retireNormal`, `closeWithReason`, `releaseLease`: what the lock
  of a path protects
* `PhysicalPath`: a path, with what holds of it between any two critical sections
* `PathMemory`: all paths of a peer, the live leases on them and the log of closed carriers
* `PathMemory.Move`: what one critical section can do to that memory

## Main results

* `PathMemory.Move.places`: a carrier is never copied or lost
* `PathMemory.Counted.move`: a path counts its live leases
-/

namespace SshMobile.Connect

open Library Connection

/-! ## Profiles -/

def capabilityReliableMessage : UInt8 := 1

def capabilityReliableStream : UInt8 := 2

def capabilityUnreliableDatagram : UInt8 := 4

def profileCapabilityMask (profile : Route) : UInt8 :=
  (if profile.supports .reliableMessage then capabilityReliableMessage else 0) |||
    (if profile.supports .reliableStream then capabilityReliableStream else 0) |||
    (if profile.supports .unreliableDatagram then capabilityUnreliableDatagram else 0)

inductive PathKind
  | direct
  | relay
deriving DecidableEq

def PathKind.fromProfile (profile : Route) : PathKind :=
  match profile.topology with
  | .direct => .direct
  | .relay => .relay

def pathPreference (profile : Route) : ℕ :=
  match profile.topology, profile.transport with
  | .direct, .quic => 4
  | .direct, .tcp => 3
  | .direct, .webSocket => 2
  | .relay, _ => 1
  | _, _ => 0

/-! ## A path -/

def maxReadyPathsPerPeer : ℕ := 8

def maxPathLeases : ℕ := 32

/-- In milliseconds, as all times here. -/
def ephemeralPathIdleTimeout : ℕ := 60 * 1000

inductive PathCloseReason
  | normalRetire
  | hardClose
  | securityFailure
deriving DecidableEq

inductive PathError
  | cancelled
  | capabilityUnavailable
  | staleAttempt
  | resourceLimit (what : String)
  | noRoute
deriving DecidableEq

structure PathHandle where
  id : ℕ
  profile : Route
  capabilityMask : UInt8
deriving DecidableEq

def PathHandle.kind (handle : PathHandle) : PathKind := .fromProfile handle.profile

inductive PhysicalPathState
  | ready
  | draining
  | closed (reason : PathCloseReason)
deriving DecidableEq

/-- What the lock of a path protects. Carriers are numbered in the order they were handed to
`publish_ready_with_carrier`. -/
structure PhysicalPathInner where
  state : PhysicalPathState
  carrier : Option ℕ
  leases : ℕ
  lastActivity : ℕ
deriving DecidableEq

namespace PhysicalPathInner

def isReady (inner : PhysicalPathInner) : Bool :=
  match inner.state with
  | .ready => true
  | _ => false

def isActive (inner : PhysicalPathInner) : Bool :=
  match inner.state with
  | .ready | .draining => true
  | .closed _ => false

def isEphemeralIdle (inner : PhysicalPathInner) (now : ℕ) : Bool :=
  inner.isReady && inner.leases == 0 &&
    decide (ephemeralPathIdleTimeout ≤ now - inner.lastActivity)

def tryAcquire (inner : PhysicalPathInner) (now : ℕ) : Except PathError PhysicalPathInner :=
  if !inner.isReady then .error .staleAttempt
  else if maxPathLeases ≤ inner.leases then .error (.resourceLimit "path leases")
  else .ok { inner with leases := inner.leases + 1, lastActivity := now }

/-- **Normal retirement** closes an unleased path at once and leaves a leased one to its
leases. -/
def retireNormal (inner : PhysicalPathInner) : PhysicalPathInner × Option ℕ :=
  match inner.state with
  | .closed _ => (inner, none)
  | .ready | .draining =>
    if inner.leases = 0 then
      ({ inner with state := .closed .normalRetire, carrier := none }, inner.carrier)
    else ({ inner with state := .draining }, none)

def closeWithReason (inner : PhysicalPathInner) (reason : PathCloseReason) :
    PhysicalPathInner × Option ℕ :=
  match inner.state with
  | .closed _ => (inner, none)
  | .ready | .draining =>
    ({ inner with state := .closed reason, carrier := none }, inner.carrier)

/-- **The last lease of a retired path** takes the carrier with it. -/
def releaseLease (inner : PhysicalPathInner) (now : ℕ) : PhysicalPathInner × Option ℕ :=
  if inner.leases = 0 then (inner, none)
  else
    let leases := inner.leases - 1
    match inner.state with
    | .draining =>
      if leases = 0 then
        ({ inner with state := .closed .normalRetire, carrier := none, leases }, inner.carrier)
      else ({ inner with leases }, none)
    | .ready => ({ inner with leases, lastActivity := now }, none)
    | .closed _ => ({ inner with leases }, none)

def recordActivity (inner : PhysicalPathInner) (now : ℕ) : PhysicalPathInner :=
  if inner.isReady then { inner with lastActivity := now } else inner

/-- What holds of a path between any two critical sections: it has a carrier exactly while it is
ready or draining, its leases are bounded, and a draining path is leased. -/
structure Sound (inner : PhysicalPathInner) : Prop where
  carried : inner.carrier.isSome = inner.isActive
  leases_le : inner.leases ≤ maxPathLeases
  leased : inner.state = .draining → inner.leases ≠ 0

end PhysicalPathInner

namespace PhysicalPathInner.Sound

variable {inner : PhysicalPathInner}

section

variable (h : inner.Sound)

include h

theorem carrier_eq_none (hclosed : inner.isActive = false) :
    inner.carrier = none := by
  grind [carried, Option.not_isSome_iff_eq_none]

theorem tryAcquire {now : ℕ} {inner' : PhysicalPathInner}
    (hok : inner.tryAcquire now = .ok inner') : inner'.Sound := by
  unfold PhysicalPathInner.tryAcquire at hok
  split_ifs at hok with hready hfull
  cases hok
  exact ⟨h.carried, by simp only; omega, fun _ => Nat.succ_ne_zero _⟩

theorem retireNormal : inner.retireNormal.1.Sound := by
  unfold PhysicalPathInner.retireNormal
  have hcarried := h.carried
  cases hstate : inner.state with
  | closed reason => exact h
  | ready | draining =>
    simp only [isActive, hstate] at hcarried ⊢
    split_ifs with hleases
    · exact ⟨rfl, h.leases_le, nofun⟩
    · exact ⟨hcarried, h.leases_le, fun _ => hleases⟩

theorem closeWithReason (reason : PathCloseReason) :
    (inner.closeWithReason reason).1.Sound := by
  unfold PhysicalPathInner.closeWithReason
  cases hstate : inner.state with
  | closed _ => exact h
  | ready | draining => exact ⟨rfl, h.leases_le, nofun⟩

theorem releaseLease (now : ℕ) : (inner.releaseLease now).1.Sound := by
  unfold PhysicalPathInner.releaseLease
  have hcarried := h.carried
  have hle := h.leases_le
  split_ifs with hleases
  · exact h
  · cases hstate : inner.state with
    | draining =>
      simp only [isActive, hstate] at hcarried ⊢
      split_ifs with hlast
      · exact ⟨rfl, by simp only; omega, nofun⟩
      · exact ⟨by simpa [isActive, hstate] using hcarried, by simp only; omega, fun _ => hlast⟩
    | ready | closed _ =>
      exact ⟨by simpa [isActive, hstate] using hcarried, by simp only; omega, nofun⟩

theorem recordActivity (now : ℕ) : (inner.recordActivity now).Sound := by
  unfold PhysicalPathInner.recordActivity
  split_ifs
  · exact ⟨h.carried, h.leases_le, h.leased⟩
  · exact h

end

end PhysicalPathInner.Sound

/-- **A path** is its handle and the contents of its lock. -/
structure PhysicalPath where
  handle : PathHandle
  inner : PhysicalPathInner
  sound : inner.Sound

namespace PhysicalPath

def new (handle : PathHandle) (carrier createdAt : ℕ) : PhysicalPath where
  handle
  inner := ⟨.ready, some carrier, 0, createdAt⟩
  sound := ⟨rfl, Nat.zero_le _, nofun⟩

def supports (path : PhysicalPath) (requiredCapabilities : UInt8) : Bool :=
  path.handle.capabilityMask &&& requiredCapabilities == requiredCapabilities

def isAcquirable (path : PhysicalPath) (requiredCapabilities : UInt8) : Bool :=
  path.inner.isReady && path.supports requiredCapabilities

def tryAcquire (path : PhysicalPath) (now : ℕ) : Except PathError PhysicalPath :=
  match h : path.inner.tryAcquire now with
  | .ok inner => .ok ⟨path.handle, inner, path.sound.tryAcquire h⟩
  | .error error => .error error

def retireNormal (path : PhysicalPath) : PhysicalPath × Option ℕ :=
  (⟨path.handle, path.inner.retireNormal.1, path.sound.retireNormal⟩, path.inner.retireNormal.2)

def closeWithReason (path : PhysicalPath) (reason : PathCloseReason) : PhysicalPath × Option ℕ :=
  (⟨path.handle, (path.inner.closeWithReason reason).1, path.sound.closeWithReason reason⟩,
    (path.inner.closeWithReason reason).2)

def releaseLease (path : PhysicalPath) (now : ℕ) : PhysicalPath × Option ℕ :=
  (⟨path.handle, (path.inner.releaseLease now).1, path.sound.releaseLease now⟩,
    (path.inner.releaseLease now).2)

def recordActivity (path : PhysicalPath) (now : ℕ) : PhysicalPath :=
  ⟨path.handle, path.inner.recordActivity now, path.sound.recordActivity now⟩

/-- Whether the path holds the carrier, as a number to be summed. -/
def holds (carrier : ℕ) (path : PhysicalPath) : ℕ :=
  if path.inner.carrier = some carrier then 1 else 0

/-- **A critical section** leaves the handle alone, keeps the carrier or hands it out, and never
revives a closed path. -/
structure Change (before after : PhysicalPath) (taken : Option ℕ) : Prop where
  handle : after.handle = before.handle
  carrier : after.inner.carrier = before.inner.carrier ∧ taken = none ∨
    after.inner.carrier = none ∧ taken = before.inner.carrier
  closed : before.inner.isActive = false → after.inner.isActive = false

theorem Change.refl (path : PhysicalPath) : Change path path none :=
  ⟨rfl, .inl ⟨rfl, rfl⟩, id⟩

theorem Change.holds {before after : PhysicalPath} {taken : Option ℕ}
    (h : Change before after taken) (carrier : ℕ) :
    after.holds carrier + taken.toList.count carrier = before.holds carrier := by
  rcases h.carrier with ⟨hafter, rfl⟩ | ⟨hafter, rfl⟩
  · simp [PhysicalPath.holds, hafter]
  · cases hbefore : before.inner.carrier with
    | none => simp [PhysicalPath.holds, hafter, hbefore]
    | some other =>
      grind [PhysicalPath.holds]

variable {path : PhysicalPath}

theorem tryAcquire_ok {path' : PhysicalPath} {now : ℕ} (h : path.tryAcquire now = .ok path') :
    path.inner.isReady = true ∧ Change path path' none ∧
      path'.inner.state = path.inner.state ∧ path'.inner.leases = path.inner.leases + 1 := by
  unfold tryAcquire at h
  split at h
  · rename_i inner hinner
    cases h
    unfold PhysicalPathInner.tryAcquire at hinner
    split_ifs at hinner with hready hfull
    cases hinner
    exact ⟨by simpa using hready, ⟨rfl, .inl ⟨rfl, rfl⟩, id⟩, rfl, rfl⟩
  · cases h

theorem retireNormal_change (path : PhysicalPath) :
    Change path path.retireNormal.1 path.retireNormal.2 := by
  refine ⟨rfl, ?_, ?_⟩
  · grind [retireNormal, PhysicalPathInner.retireNormal]
  · grind [retireNormal, PhysicalPathInner.retireNormal, PhysicalPathInner.isActive]

@[simp]
theorem retireNormal_leases (path : PhysicalPath) :
    path.retireNormal.1.inner.leases = path.inner.leases := by
  grind [retireNormal, PhysicalPathInner.retireNormal]

/-- A normal retirement takes the carrier of an unleased path only. -/
theorem retireNormal_unleased (hbefore : path.inner.carrier ≠ none)
    (hafter : path.retireNormal.1.inner.carrier = none) : path.inner.leases = 0 := by
  grind [retireNormal, PhysicalPathInner.retireNormal]

@[simp]
theorem closeWithReason_isActive (path : PhysicalPath) (reason : PathCloseReason) :
    (path.closeWithReason reason).1.inner.isActive = false := by
  grind [closeWithReason, PhysicalPathInner.closeWithReason, PhysicalPathInner.isActive]

@[simp]
theorem closeWithReason_leases (path : PhysicalPath) (reason : PathCloseReason) :
    (path.closeWithReason reason).1.inner.leases = path.inner.leases := by
  grind [closeWithReason, PhysicalPathInner.closeWithReason]

theorem closeWithReason_change (path : PhysicalPath) (reason : PathCloseReason) :
    Change path (path.closeWithReason reason).1 (path.closeWithReason reason).2 := by
  refine ⟨rfl, ?_, fun _ => closeWithReason_isActive path reason⟩
  grind [closeWithReason, PhysicalPathInner.closeWithReason]

theorem releaseLease_change (path : PhysicalPath) (now : ℕ) :
    Change path (path.releaseLease now).1 (path.releaseLease now).2 := by
  refine ⟨rfl, ?_, ?_⟩
  · grind [releaseLease, PhysicalPathInner.releaseLease]
  · grind [releaseLease, PhysicalPathInner.releaseLease, PhysicalPathInner.isActive]

@[simp]
theorem releaseLease_leases (path : PhysicalPath) (now : ℕ) :
    (path.releaseLease now).1.inner.leases = path.inner.leases - 1 := by
  grind [releaseLease, PhysicalPathInner.releaseLease]

/-- A release takes the carrier with the last lease only. -/
theorem releaseLease_unleased {now : ℕ} (hbefore : path.inner.carrier ≠ none)
    (hafter : (path.releaseLease now).1.inner.carrier = none) :
    (path.releaseLease now).1.inner.leases = 0 := by
  grind [releaseLease, PhysicalPathInner.releaseLease]

theorem recordActivity_change (path : PhysicalPath) (now : ℕ) :
    Change path (path.recordActivity now) none := by
  simp only [recordActivity, PhysicalPathInner.recordActivity]
  split_ifs
  · exact ⟨rfl, .inl ⟨rfl, rfl⟩, id⟩
  · exact ⟨rfl, .inl ⟨rfl, rfl⟩, id⟩

@[simp]
theorem recordActivity_leases (path : PhysicalPath) (now : ℕ) :
    (path.recordActivity now).inner.leases = path.inner.leases := by
  simp only [recordActivity, PhysicalPathInner.recordActivity]
  split_ifs <;> rfl

end PhysicalPath

/-! ## The paths of a peer -/

/-- **The memory shared by all tasks**: every path that was created, the live leases on them, and
the carriers closed so far with the reason each was given. -/
structure PathMemory where
  paths : Table ℕ PhysicalPath
  leases : Table ℕ ℕ
  nextLease : ℕ
  closed : List (ℕ × PathCloseReason)

namespace PathMemory

def empty : PathMemory := ⟨∅, ∅, 0, []⟩

/-- Puts a path back and closes the carrier that was taken out of it. -/
def put (memory : PathMemory) (id : ℕ) (result : PhysicalPath × Option ℕ)
    (reason : PathCloseReason) : PathMemory :=
  { memory with
    paths := memory.paths.insert id result.1
    closed := memory.closed ++ result.2.toList.map (·, reason) }

/-- A carrier that never came into a path. -/
def closeCarrier (memory : PathMemory) (carrier : ℕ) (reason : PathCloseReason) : PathMemory :=
  { memory with closed := memory.closed ++ [(carrier, reason)] }

def add (memory : PathMemory) (handle : PathHandle) (carrier createdAt : ℕ) : PathMemory :=
  { memory with paths := memory.paths.insert handle.id (.new handle carrier createdAt) }

def tryAcquire (memory : PathMemory) (id now : ℕ) : Except PathError (PathMemory × ℕ) :=
  match memory.paths.get? id with
  | none => .error .staleAttempt
  | some path =>
    match path.tryAcquire now with
    | .error error => .error error
    | .ok path =>
      let lease := memory.nextLease
      .ok ({ memory with
        paths := memory.paths.insert id path
        leases := memory.leases.insert lease id
        nextLease := lease + 1 }, lease)

def retireNormal (memory : PathMemory) (id : ℕ) : PathMemory :=
  match memory.paths.get? id with
  | none => memory
  | some path => memory.put id path.retireNormal .normalRetire

def closeWithReason (memory : PathMemory) (id : ℕ) (reason : PathCloseReason) : PathMemory :=
  match memory.paths.get? id with
  | none => memory
  | some path => memory.put id (path.closeWithReason reason) reason

/-- What `retire_path` does to the path itself, by the reason it is given. -/
def retire (memory : PathMemory) (id : ℕ) : PathCloseReason → PathMemory
  | .normalRetire => memory.retireNormal id
  | reason => memory.closeWithReason id reason

def recordActivity (memory : PathMemory) (id now : ℕ) : PathMemory :=
  match memory.paths.get? id with
  | none => memory
  | some path => { memory with paths := memory.paths.insert id (path.recordActivity now) }

/-- **A lease is released once**, explicitly or when it is dropped; it is gone afterwards. -/
def release (memory : PathMemory) (lease now : ℕ) : PathMemory :=
  match memory.leases.get? lease with
  | none => memory
  | some id =>
    match memory.paths.get? id with
    | none => memory
    | some path =>
      put { memory with leases := memory.leases.erase lease } id (path.releaseLease now)
        .normalRetire

def isReady (memory : PathMemory) (id : ℕ) : Bool :=
  (memory.paths.get? id).any (·.inner.isReady)

def isActive (memory : PathMemory) (id : ℕ) : Bool :=
  (memory.paths.get? id).any (·.inner.isActive)

def isAcquirable (memory : PathMemory) (id : ℕ) (requiredCapabilities : UInt8) : Bool :=
  (memory.paths.get? id).any (·.isAcquirable requiredCapabilities)

def isEphemeralIdle (memory : PathMemory) (id now : ℕ) : Bool :=
  (memory.paths.get? id).any (·.inner.isEphemeralIdle now)

def capabilityMask (memory : PathMemory) (id : ℕ) : UInt8 :=
  ((memory.paths.get? id).map (·.handle.capabilityMask)).getD 0

def liveLeases (memory : PathMemory) (id : ℕ) : ℕ :=
  memory.leases.sumBy fun _ path => if path = id then 1 else 0

/-- How often a carrier is in a path or closed. -/
def places (memory : PathMemory) (carrier : ℕ) : ℕ :=
  memory.paths.sumBy (fun _ path => path.holds carrier) +
    (memory.closed.map Prod.fst).count carrier

/-! ## What a critical section does to the memory -/

/-- **One critical section**, or none. A carrier that is closed on the way comes from the path,
and a lease is counted where it is issued or given back. -/
inductive Move (memory : PathMemory) : PathMemory → Prop
  | none : Move memory memory
  | changed {id : ℕ} {before : PhysicalPath} {result : PhysicalPath × Option ℕ}
      {reason : PathCloseReason} (hbefore : memory.paths.get? id = some before)
      (hchange : before.Change result.1 result.2)
      (hleases : result.1.inner.leases = before.inner.leases) :
      Move memory (memory.put id result reason)
  | acquired {id : ℕ} {before after : PhysicalPath} (hbefore : memory.paths.get? id = some before)
      (hchange : before.Change after Option.none)
      (hleases : after.inner.leases = before.inner.leases + 1) :
      Move memory { memory with
        paths := memory.paths.insert id after
        leases := memory.leases.insert memory.nextLease id
        nextLease := memory.nextLease + 1 }
  | released {lease id : ℕ} {before : PhysicalPath} {result : PhysicalPath × Option ℕ}
      {reason : PathCloseReason} (hlease : memory.leases.get? lease = some id)
      (hbefore : memory.paths.get? id = some before)
      (hchange : before.Change result.1 result.2)
      (hleases : result.1.inner.leases = before.inner.leases - 1) :
      Move memory (put { memory with leases := memory.leases.erase lease } id result reason)

variable {memory memory' : PathMemory} {id : ℕ} {before : PhysicalPath}
  {result : PhysicalPath × Option ℕ} {reason : PathCloseReason}

theorem tryAcquire_move {now lease : ℕ} (h : memory.tryAcquire id now = .ok (memory', lease)) :
    Move memory memory' := by
  unfold tryAcquire at h
  split at h
  · cases h
  · rename_i path hpath
    split at h
    · cases h
    · rename_i after hafter
      cases h
      obtain ⟨_, hchange, _, hleases⟩ := PhysicalPath.tryAcquire_ok hafter
      exact .acquired hpath hchange hleases

theorem retireNormal_move (memory : PathMemory) (id : ℕ) :
    Move memory (memory.retireNormal id) := by
  unfold retireNormal
  split
  · exact .none
  · rename_i path hpath
    exact .changed hpath path.retireNormal_change path.retireNormal_leases

theorem closeWithReason_move (memory : PathMemory) (id : ℕ) (reason : PathCloseReason) :
    Move memory (memory.closeWithReason id reason) := by
  unfold closeWithReason
  split
  · exact .none
  · rename_i path hpath
    exact .changed hpath (path.closeWithReason_change reason) (path.closeWithReason_leases reason)

theorem retire_move (memory : PathMemory) (id : ℕ) (reason : PathCloseReason) :
    Move memory (memory.retire id reason) := by
  cases reason with
  | normalRetire => exact memory.retireNormal_move id
  | hardClose => exact memory.closeWithReason_move id .hardClose
  | securityFailure => exact memory.closeWithReason_move id .securityFailure

theorem recordActivity_move (memory : PathMemory) (id now : ℕ) :
    Move memory (memory.recordActivity id now) := by
  unfold recordActivity
  split
  · exact .none
  · rename_i path hpath
    have hmove : Move memory (memory.put id (path.recordActivity now, none) .normalRetire) :=
      .changed hpath (path.recordActivity_change now) (path.recordActivity_leases now)
    simpa [put] using hmove

theorem release_move (memory : PathMemory) (lease now : ℕ) :
    Move memory (memory.release lease now) := by
  unfold release
  split
  · exact .none
  · rename_i id hlease
    split
    · exact .none
    · rename_i path hpath
      exact .released hlease hpath (path.releaseLease_change now) (path.releaseLease_leases now)

/-! ## Carriers are neither copied nor lost -/

theorem places_put (hbefore : memory.paths.get? id = some before)
    (hchange : before.Change result.1 result.2) (carrier : ℕ) :
    (memory.put id result reason).places carrier = memory.places carrier := by
  have hsum := Table.sumBy_insert_of_some (f := fun _ path => PhysicalPath.holds carrier path)
    (w := result.1) hbefore
  have hholds := hchange.holds carrier
  simp only [places, put, List.map_append, List.count_append, List.map_map]
  have hclosed : (result.2.toList.map (Prod.fst ∘ (·, reason))) = result.2.toList := by
    simp [Function.comp_def]
  rw [hclosed]
  omega

theorem Move.places (h : Move memory memory') (carrier : ℕ) :
    memory'.places carrier = memory.places carrier := by
  cases h with
  | none => rfl
  | changed hbefore hchange _ => exact places_put hbefore hchange carrier
  | @acquired id before after hbefore hchange _ =>
    have hplaces : (memory.put id (after, Option.none) .normalRetire).places carrier =
        memory.places carrier := places_put hbefore hchange carrier
    simpa [PathMemory.places, put] using hplaces
  | @released lease id before result reason hlease hbefore hchange _ =>
    grind [PathMemory.places, places_put]

@[simp]
theorem places_closeCarrier (memory : PathMemory) (closed carrier : ℕ) (reason : PathCloseReason) :
    (memory.closeCarrier closed reason).places carrier =
      memory.places carrier + [closed].count carrier := by
  grind [places, closeCarrier]

theorem places_add {handle : PathHandle} (carrier createdAt : ℕ)
    (hfresh : memory.paths.get? handle.id = none) (other : ℕ) :
    (memory.add handle carrier createdAt).places other =
      memory.places other + [carrier].count other := by
  have hsum := Table.sumBy_insert (f := fun _ path => PhysicalPath.holds other path)
    (v := PhysicalPath.new handle carrier createdAt) hfresh
  have hnew : (PhysicalPath.new handle carrier createdAt).holds other = [carrier].count other := by
    by_cases heq : carrier = other
    · simp [PhysicalPath.holds, PhysicalPath.new, heq]
    · simp [PhysicalPath.holds, PhysicalPath.new, heq]
  simp only [places, add]
  omega

/-! ## Leases are counted -/

/-- A path counts its live leases, and every live lease is on a path. -/
structure Counted (memory : PathMemory) : Prop where
  count : ∀ {id path}, memory.paths.get? id = some path → path.inner.leases = memory.liveLeases id
  live : ∀ {lease id}, memory.leases.get? lease = some id →
    ∃ path, memory.paths.get? id = some path
  fresh : ∀ {lease id}, memory.leases.get? lease = some id → lease < memory.nextLease

theorem counted_empty : Counted empty := ⟨nofun, nofun, nofun⟩

section

variable (h : memory.Counted)

include h

/-- Replacing a path by one with as many leases keeps the count. -/
theorem Counted.put (hbefore : memory.paths.get? id = some before)
    (hleases : result.1.inner.leases = before.inner.leases) :
    (memory.put id result reason).Counted := by
  refine ⟨?_, ?_, h.fresh⟩
  · intro other path hpath
    simp only [PathMemory.put, Table.get?_insert] at hpath
    split_ifs at hpath with heq
    · cases hpath
      rw [heq, hleases, h.count hbefore]
      rfl
    · exact h.count hpath
  · intro lease other hlease
    obtain ⟨path, hpath⟩ := h.live hlease
    grind [PathMemory.put]

theorem Counted.acquired {after : PhysicalPath} (hbefore : memory.paths.get? id = some before)
    (hleases : after.inner.leases = before.inner.leases + 1) :
    Counted { memory with
      paths := memory.paths.insert id after
      leases := memory.leases.insert memory.nextLease id
      nextLease := memory.nextLease + 1 } := by
  have hnone : memory.leases.get? memory.nextLease = none := by
    rcases hlease : memory.leases.get? memory.nextLease with _ | other
    · rfl
    · exact absurd (h.fresh hlease) (lt_irrefl _)
  have hlive : ∀ other, (memory.leases.insert memory.nextLease id).sumBy
      (fun _ path => if path = other then 1 else 0) =
        memory.liveLeases other + if id = other then 1 else 0 :=
    fun other => Table.sumBy_insert hnone
  refine ⟨?_, ?_, ?_⟩
  · intro other path hpath
    simp only [Table.get?_insert] at hpath
    rw [liveLeases, hlive]
    split_ifs at hpath with heq
    · cases hpath
      rw [hleases, h.count hbefore, heq, if_pos rfl]
    · rw [h.count hpath, if_neg (Ne.symm heq), Nat.add_zero]
  · intro lease other hlease
    simp only [Table.get?_insert] at hlease ⊢
    split_ifs at hlease with heq
    · simp_all
    · obtain ⟨path, hpath⟩ := h.live hlease
      grind
  · intro lease other hlease
    simp only [Table.get?_insert] at hlease ⊢
    split_ifs at hlease with heq
    · omega
    · exact Nat.lt_succ_of_lt (h.fresh hlease)

theorem Counted.released {lease : ℕ} (hlease : memory.leases.get? lease = some id)
    (hbefore : memory.paths.get? id = some before)
    (hleases : result.1.inner.leases = before.inner.leases - 1) :
    (PathMemory.put { memory with leases := memory.leases.erase lease } id result
      reason).Counted := by
  have hlive : ∀ other, (memory.leases.erase lease).sumBy
      (fun _ path => if path = other then 1 else 0) + (if id = other then 1 else 0) =
        memory.liveLeases other :=
    fun other => Table.sumBy_erase hlease
  refine ⟨?_, ?_, ?_⟩
  · intro other path hpath
    have hother := hlive other
    simp only [PathMemory.put, Table.get?_insert, liveLeases] at hpath ⊢
    split_ifs at hpath with heq
    · cases hpath
      rw [heq, if_pos rfl] at hother
      rw [hleases, h.count hbefore, heq]
      omega
    · rw [if_neg (Ne.symm heq)] at hother
      rw [h.count hpath]
      omega
  · intro other path hpath
    simp only [PathMemory.put, Table.get?_erase, Table.get?_insert] at hpath ⊢
    split_ifs at hpath with heq
    obtain ⟨path, hpath⟩ := h.live hpath
    grind
  · intro other path hpath
    simp only [PathMemory.put, Table.get?_erase] at hpath
    split_ifs at hpath with heq
    exact h.fresh hpath

theorem Counted.move (hmove : Move memory memory') : memory'.Counted := by
  cases hmove with
  | none => exact h
  | changed hbefore _ hleases => exact h.put hbefore hleases
  | acquired hbefore _ hleases => exact h.acquired hbefore hleases
  | released hlease hbefore _ hleases => exact h.released hlease hbefore hleases

theorem Counted.closeCarrier (carrier : ℕ) (reason : PathCloseReason) :
    (memory.closeCarrier carrier reason).Counted :=
  ⟨h.count, h.live, h.fresh⟩

/-- A path that does not exist has no live lease. -/
theorem Counted.liveLeases_eq_zero (hnone : memory.paths.get? id = none) :
    memory.liveLeases id = 0 := by
  apply List.sum_eq_zero
  rintro _ hmem
  obtain ⟨⟨lease, other⟩, hlease, rfl⟩ := List.mem_map.mp hmem
  obtain ⟨path, hpath⟩ := h.live (Table.mem_toList.mp hlease)
  grind

theorem Counted.add {handle : PathHandle} (carrier createdAt : ℕ)
    (hfresh : memory.paths.get? handle.id = none) :
    (memory.add handle carrier createdAt).Counted := by
  refine ⟨?_, ?_, h.fresh⟩
  · intro id path hpath
    simp only [PathMemory.add, Table.get?_insert] at hpath
    split_ifs at hpath with heq
    · cases hpath
      rw [heq]
      exact (h.liveLeases_eq_zero hfresh).symm
    · exact h.count hpath
  · intro lease id hlease
    obtain ⟨path, hpath⟩ := h.live hlease
    grind [PathMemory.add]

end

/-! ## Moves keep the paths -/

theorem get?_put (memory : PathMemory) (id other : ℕ) (result : PhysicalPath × Option ℕ)
    (reason : PathCloseReason) :
    (memory.put id result reason).paths.get? other =
      if other = id then some result.1 else memory.paths.get? other :=
  Table.get?_insert ..

/-- No critical section makes a path; each changes the one it is about. -/
theorem Move.exists_before (h : Move memory memory') {after : PhysicalPath}
    (hafter : memory'.paths.get? id = some after) :
    ∃ before taken, memory.paths.get? id = some before ∧ before.Change after taken := by
  have hinsert : ∀ {other : ℕ} {path path' : PhysicalPath} {taken : Option ℕ},
      memory.paths.get? other = some path → path.Change path' taken →
      (memory.paths.insert other path').get? id = some after →
      ∃ before taken, memory.paths.get? id = some before ∧ before.Change after taken := by
    intro other path path' taken hpath hchange hafter
    rw [Table.get?_insert] at hafter
    split_ifs at hafter with heq
    · grind
    · exact ⟨after, Option.none, hafter, .refl after⟩
  cases h with
  | none => exact ⟨after, Option.none, hafter, .refl after⟩
  | changed hbefore hchange _ | acquired hbefore hchange _ | released _ hbefore hchange _ =>
    exact hinsert hbefore hchange hafter

theorem isActive_eq_true_iff :
    memory.isActive id = true ↔
      ∃ path, memory.paths.get? id = some path ∧ path.inner.isActive = true := by
  rcases hpath : memory.paths.get? id with _ | path
  · simp [isActive, hpath]
  · simp [isActive, hpath]

/-- Only a ready path is acquired. -/
theorem isActive_of_tryAcquire {now lease : ℕ} (h : memory.tryAcquire id now = .ok
    (memory', lease)) : memory.isActive id = true := by
  unfold tryAcquire at h
  split at h
  · cases h
  · rename_i path hpath
    split at h
    · cases h
    · rename_i after hafter
      refine isActive_eq_true_iff.mpr ⟨path, hpath, ?_⟩
      obtain ⟨hready, _⟩ := PhysicalPath.tryAcquire_ok hafter
      grind [PhysicalPathInner.isReady, PhysicalPathInner.isActive]

/-- No critical section revives a path. -/
theorem Move.isActive (h : Move memory memory') (hactive : memory'.isActive id = true) :
    memory.isActive id = true := by
  obtain ⟨after, hafter, hactive⟩ := isActive_eq_true_iff.mp hactive
  obtain ⟨before, _, hbefore, hchange⟩ := h.exists_before hafter
  refine isActive_eq_true_iff.mpr ⟨before, hbefore, ?_⟩
  by_contra hclosed
  rw [hchange.closed (Bool.eq_false_iff.mpr hclosed)] at hactive
  cases hactive

/-! ## Dropping paths -/

def closeAll (memory : PathMemory) (ids : List ℕ) : PathMemory :=
  ids.foldl (fun memory id => memory.closeWithReason id .hardClose) memory

theorem closeAll_induction {P : PathMemory → Prop}
    (hstep : ∀ memory id, P memory → P (memory.closeWithReason id .hardClose)) :
    ∀ (ids : List ℕ) (memory : PathMemory), P memory → P (memory.closeAll ids) := by
  intro ids
  induction ids with
  | nil => exact fun _ h => h
  | cons id ids ih => exact fun memory h => ih _ (hstep memory id h)

theorem counted_closeAll (h : memory.Counted) (ids : List ℕ) : (memory.closeAll ids).Counted :=
  closeAll_induction (fun memory id h => h.move (memory.closeWithReason_move id _)) ids memory h

theorem places_closeAll (memory : PathMemory) (ids : List ℕ) (carrier : ℕ) :
    (memory.closeAll ids).places carrier = memory.places carrier :=
  closeAll_induction (P := fun memory' => memory'.places carrier = memory.places carrier)
    (fun memory' id h => ((memory'.closeWithReason_move id _).places carrier).trans h) ids memory
    rfl

@[simp]
theorem leases_closeWithReason (memory : PathMemory) (id : ℕ) (reason : PathCloseReason) :
    (memory.closeWithReason id reason).leases = memory.leases := by
  unfold closeWithReason
  split <;> rfl

@[simp]
theorem leases_closeAll (memory : PathMemory) (ids : List ℕ) :
    (memory.closeAll ids).leases = memory.leases :=
  closeAll_induction (P := fun memory' => memory'.leases = memory.leases)
    (fun memory' id h => (leases_closeWithReason memory' id _).trans h) ids memory rfl

theorem get?_closeWithReason (memory : PathMemory) (id other : ℕ) (reason : PathCloseReason) :
    (memory.closeWithReason id reason).paths.get? other =
      (memory.paths.get? other).map fun path =>
        if other = id then (path.closeWithReason reason).1 else path := by
  unfold closeWithReason
  split
  · rcases hpath : memory.paths.get? other with _ | path
    · rfl
    · grind
  · rename_i path hpath
    rw [get?_put]
    split_ifs with heq
    · rw [heq, hpath]
      rfl
    · simp

theorem get?_closeAll_of_notMem (memory : PathMemory) {ids : List ℕ} (hid : id ∉ ids) :
    (memory.closeAll ids).paths.get? id = memory.paths.get? id := by
  induction ids generalizing memory with
  | nil => rfl
  | cons first ids ih =>
    rw [List.mem_cons, not_or] at hid
    refine (ih _ hid.2).trans ?_
    rw [get?_closeWithReason]
    simp [hid.1]

theorem isActive_closeWithReason (memory : PathMemory) (other : ℕ) (reason : PathCloseReason)
    (h : memory.isActive id = false) :
    (memory.closeWithReason other reason).isActive id = false := by
  simp only [isActive, get?_closeWithReason] at h ⊢
  rcases hpath : memory.paths.get? id with _ | path
  · rfl
  · rw [hpath] at h
    by_cases heq : id = other
    · simp [heq]
    · simpa [heq] using h

theorem isActive_closeWithReason_self (memory : PathMemory) (id : ℕ) (reason : PathCloseReason) :
    (memory.closeWithReason id reason).isActive id = false := by
  simp only [isActive, get?_closeWithReason]
  cases memory.paths.get? id <;> simp

theorem isActive_closeAll_of_mem (memory : PathMemory) {ids : List ℕ} (hid : id ∈ ids) :
    (memory.closeAll ids).isActive id = false := by
  induction ids generalizing memory with
  | nil => cases hid
  | cons first ids ih =>
    rcases List.mem_cons.mp hid with rfl | hid
    · refine closeAll_induction (P := fun memory => memory.isActive id = false)
        (fun memory other h => isActive_closeWithReason memory other _ h) ids _ ?_
      exact memory.isActive_closeWithReason_self id .hardClose
    · exact ih _ hid

theorem isActive_of_closeAll (ids : List ℕ) (h : (memory.closeAll ids).isActive id = true) :
    memory.isActive id = true := by
  by_contra hclosed
  have hstays := closeAll_induction (P := fun memory => memory.isActive id = false)
    (fun memory other h => isActive_closeWithReason memory other _ h) ids memory
    (Bool.eq_false_iff.mpr hclosed)
  simp_all

end PathMemory

end SshMobile.Connect
