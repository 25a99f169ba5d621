import SshMobile.Library.Bytes
import SshMobile.Library.Machine
import SshMobile.Library.Table

/-!
# The relay's data registry

The registry links the two endpoints of a reservation into a pair and forwards opaque frames
between them. An endpoint comes in through an HTTP request: the request is authorised, it takes an
upgrade slot, the upgraded socket is staged and activated, and its first frame admits it to a role
of its reservation. All of this happens under the registry's lock, one critical section at a time,
and so do revocation and shutdown; the pumps of an endpoint run outside of it and may make the
endpoint terminal at any moment.

An endpoint is a number here; its fields, which the source keeps in atomics and under small locks
of their own, are in `conns`. The registry's index of endpoints by device is one set, since the
device is a field of the endpoint.

## Main definitions

* `relayDataAdmissionAuthorize`, `RelayDataConn.acceptConnect`: the two token checks
* `admitEndpoint`, `forwardEndpoint`, `releaseEndpointLocked`, `closeDeviceBeforeGeneration`,
  `closeAll`: the critical sections
* `registryMachine`: any interleaving of them with the pumps
-/

namespace SshMobile.Server

open Library

/-! ## Reservations -/

inductive RelayDataRole
  | initiator
  | responder
deriving DecidableEq

def RelayDataRole.other : RelayDataRole → RelayDataRole
  | .initiator => .responder
  | .responder => .initiator

structure Reservation where
  reservationId : String
  initiatorDeviceId : String
  responderDeviceId : String
  initiatorToken : Bytes
  responderToken : Bytes
deriving DecidableEq

namespace Reservation

def deviceId (res : Reservation) : RelayDataRole → String
  | .initiator => res.initiatorDeviceId
  | .responder => res.responderDeviceId

def token (res : Reservation) : RelayDataRole → Bytes
  | .initiator => res.initiatorToken
  | .responder => res.responderToken

/-- `relayDataRoleForDevice`. -/
def roleForDevice (res : Reservation) (deviceId : String) : Option RelayDataRole :=
  if deviceId = "" ∨ res.initiatorDeviceId = res.responderDeviceId then none
  else if deviceId = res.initiatorDeviceId then some .initiator
  else if deviceId = res.responderDeviceId then some .responder
  else none

end Reservation

/-! ## Endpoints and pairs -/

/-- `relayDataConn`, as far as the registry is concerned. -/
structure RelayDataConn where
  res : Reservation
  deviceId : String
  enrollmentGeneration : ℤ
  role : RelayDataRole
  terminal : Bool
  done : Bool
  /-- The activation barrier is open. -/
  activated : Bool
  admissionActive : Bool
  /-- The read pump is past its first frame. -/
  connected : Bool
  peer : Option ℕ
  ready : Bool
  paired : Bool
  pairReadySent : Bool
  /-- A committed PairReady frame is in the queue of the writer. -/
  pairReadyQueued : Bool
  /-- The read pump has returned. -/
  readDone : Bool
deriving DecidableEq

namespace RelayDataConn

def new (res : Reservation) (deviceId : String) (enrollmentGeneration : ℤ) (role : RelayDataRole) :
    RelayDataConn where
  res
  deviceId
  enrollmentGeneration
  role
  terminal := false
  done := false
  activated := false
  admissionActive := false
  connected := false
  peer := none
  ready := false
  paired := false
  pairReadySent := false
  pairReadyQueued := false
  readDone := false

def reservationId (conn : RelayDataConn) : String := conn.res.reservationId

def isTerminal (conn : RelayDataConn) : Bool := conn.terminal || conn.done

/-- The stores of `markTerminal` after the first. -/
def clearFlags (conn : RelayDataConn) : RelayDataConn :=
  { conn with admissionActive := false, ready := false, paired := false, pairReadySent := false }

def markTerminal (conn : RelayDataConn) : RelayDataConn :=
  { conn.clearFlags with terminal := true }

def clearPeer (conn : RelayDataConn) : RelayDataConn := { conn with peer := none }

/-- The first frame repeats the binding of device, role and token. -/
def acceptConnect (conn : RelayDataConn) (reservationId : String) (localToken : Bytes) : Bool :=
  reservationId == conn.reservationId && conn.deviceId == conn.res.deviceId conn.role &&
    !(conn.res.token conn.role).isEmpty && localToken == conn.res.token conn.role

/-- Whether the writer's queue takes a frame that may not outlive the endpoint; `room` stands for
the flow budget and the channel. -/
def enqueues (conn : RelayDataConn) (room : Bool) : Bool := !conn.isTerminal && room

end RelayDataConn

structure RelayDataPair where
  initiator : Option ℕ
  responder : Option ℕ
  active : Bool
  replacementPending : Bool
  reservation : Reservation
deriving DecidableEq

namespace RelayDataPair

/-- The pair of a reservation before its first endpoint. -/
def empty (reservation : Reservation) : RelayDataPair := ⟨none, none, false, false, reservation⟩

def slot (pair : RelayDataPair) : RelayDataRole → Option ℕ
  | .initiator => pair.initiator
  | .responder => pair.responder

def setSlot (pair : RelayDataPair) (role : RelayDataRole) (conn : Option ℕ) : RelayDataPair :=
  match role with
  | .initiator => { pair with initiator := conn }
  | .responder => { pair with responder := conn }

/-- The endpoint is taken out of either slot. -/
def without (pair : RelayDataPair) (conn : ℕ) : RelayDataPair :=
  { pair with
    initiator := if pair.initiator = some conn then none else pair.initiator
    responder := if pair.responder = some conn then none else pair.responder }

/-- The endpoint that frames of `conn` go to. -/
def counterpart (pair : RelayDataPair) (conn : ℕ) : Option ℕ :=
  if pair.initiator = some conn then pair.responder
  else if pair.responder = some conn then pair.initiator
  else none

theorem slots_of_counterpart {pair : RelayDataPair} {conn other : ℕ}
    (h : pair.counterpart conn = some other) :
    ∃ role, pair.slot role = some conn ∧ pair.slot role.other = some other := by
  unfold counterpart at h
  split_ifs at h with hinitiator hresponder
  · exact ⟨.initiator, hinitiator, h⟩
  · exact ⟨.responder, hresponder, h⟩

@[simp]
theorem slot_empty (reservation : Reservation) (role : RelayDataRole) :
    (empty reservation).slot role = none := by
  cases role <;> rfl

theorem slot_congr {pair pair' : RelayDataPair} (hinitiator : pair'.initiator = pair.initiator)
    (hresponder : pair'.responder = pair.responder) (role : RelayDataRole) :
    pair'.slot role = pair.slot role := by
  cases role
  · exact hinitiator
  · exact hresponder

@[simp]
theorem slot_setSlot (pair : RelayDataPair) (role other : RelayDataRole) (conn : Option ℕ) :
    (pair.setSlot role conn).slot other = if other = role then conn else pair.slot other := by
  cases role <;> cases other <;> rfl

@[simp]
theorem active_setSlot (pair : RelayDataPair) (role : RelayDataRole) (conn : Option ℕ) :
    (pair.setSlot role conn).active = pair.active := by
  cases role <;> rfl

theorem slot_without (pair : RelayDataPair) (conn : ℕ) (role : RelayDataRole) :
    (pair.without conn).slot role =
      if pair.slot role = some conn then none else pair.slot role := by
  cases role <;> rfl

end RelayDataPair

/-- An authorised request, and the handler's own data once it holds an upgrade lease. -/
structure UpgradeRequest where
  deviceId : String
  enrollmentGeneration : ℤ
  res : Reservation
  role : RelayDataRole
deriving DecidableEq

/-! ## The registry -/

def defaultMaxTransferSessions : ℤ := 4096

def maxConsumedRelayDataReservations : ℕ := 65536

/-- In milliseconds: two windows of 120 s and 5 s of grace. -/
def relayDataConsumedRetention : ℕ := 2 * (120 * 1000 + 5 * 1000)

structure RelayDataRegistry where
  maxSessions : ℤ
  maxUpgrades : ℤ
  pendingPairs : ℤ
  activePairs : ℤ
  upgradeSlots : ℤ
  pairs : Table String RelayDataPair
  consumed : Table String ℕ
  deviceRefs : Finset ℕ
  upgradeRefs : Finset ℕ
  /-- The active leases; those of a device are indexed by it in the source. -/
  upgradeLeases : Table ℕ UpgradeRequest
  pumpEndpoints : Finset ℕ
  closed : Bool
  conns : Table ℕ RelayDataConn
  nextConn : ℕ
  /-- Requests that were authorised and have no lease yet. -/
  requests : Table ℕ UpgradeRequest
  nextRequest : ℕ

/-- A result in Go's `int`, which has 64 bits and wraps around. -/
def wrapInt (value : ℤ) : ℤ := value.bmod (2 ^ 64)

def newRelayDataRegistry (maxSessions : ℤ) : RelayDataRegistry :=
  let maxSessions := if maxSessions ≤ 0 then defaultMaxTransferSessions else maxSessions
  { maxSessions
    maxUpgrades := wrapInt (2 * maxSessions)
    pendingPairs := 0
    activePairs := 0
    upgradeSlots := 0
    pairs := ∅
    consumed := ∅
    deviceRefs := ∅
    upgradeRefs := ∅
    upgradeLeases := ∅
    pumpEndpoints := ∅
    closed := false
    conns := ∅
    nextConn := 0
    requests := ∅
    nextRequest := 0 }

/-- The guarded decrements of the source. -/
def decrement (count : ℤ) : ℤ := if 0 < count then count - 1 else count

namespace RelayDataRegistry

/-- Changes the fields of one endpoint. -/
def modify (r : RelayDataRegistry) (conn : ℕ) (f : RelayDataConn → RelayDataConn) :
    RelayDataRegistry :=
  { r with conns := r.conns.mapValues fun other rc => if other = conn then f rc else rc }

/-- The same for the other endpoint of a pair, if there is one. -/
def modifyPeer (r : RelayDataRegistry) (peer : Option ℕ) (f : RelayDataConn → RelayDataConn) :
    RelayDataRegistry :=
  { r with conns := r.conns.mapValues fun other rc => if peer = some other then f rc else rc }

theorem get?_modify (r : RelayDataRegistry) (conn other : ℕ) (f : RelayDataConn → RelayDataConn) :
    (r.modify conn f).conns.get? other =
      (r.conns.get? other).map fun rc => if other = conn then f rc else rc :=
  Table.get?_mapValues ..

theorem get?_modifyPeer (r : RelayDataRegistry) (peer : Option ℕ) (other : ℕ)
    (f : RelayDataConn → RelayDataConn) :
    (r.modifyPeer peer f).conns.get? other =
      (r.conns.get? other).map fun rc => if peer = some other then f rc else rc :=
  Table.get?_mapValues ..

def isTerminal (r : RelayDataRegistry) (conn : ℕ) : Bool :=
  (r.conns.get? conn).all (·.isTerminal)

/-- The endpoints that `deviceRefs` lists for a device. -/
def deviceRefsOf (r : RelayDataRegistry) (deviceId : String) : Finset ℕ :=
  r.deviceRefs.filter fun conn => (r.conns.get? conn).any (·.deviceId == deviceId)

/-- The endpoints that `upgradeRefs` lists for a device. -/
def upgradeRefsOf (r : RelayDataRegistry) (deviceId : String) : Finset ℕ :=
  r.upgradeRefs.filter fun conn => (r.conns.get? conn).any (·.deviceId == deviceId)

def retryReservation (r : RelayDataRegistry) (reservationId : String) : Option Reservation :=
  match r.pairs.get? reservationId with
  | none => none
  | some pair => if !pair.active && !pair.replacementPending then none else some pair.reservation

def invalidateUpgradeLeaseLocked (r : RelayDataRegistry) (lease : ℕ) : RelayDataRegistry :=
  match r.upgradeLeases.get? lease with
  | none => r
  | some _ =>
    { r with
      upgradeLeases := r.upgradeLeases.erase lease
      upgradeSlots := decrement r.upgradeSlots }

def removeUpgradeLocked (r : RelayDataRegistry) (conn : ℕ) : RelayDataRegistry :=
  if conn ∈ r.upgradeRefs then
    { r with
      upgradeRefs := r.upgradeRefs.erase conn
      upgradeSlots := decrement r.upgradeSlots }
  else r

@[simp]
theorem conns_removeUpgradeLocked (r : RelayDataRegistry) (conn : ℕ) :
    (r.removeUpgradeLocked conn).conns = r.conns := by
  unfold removeUpgradeLocked
  split_ifs <;> rfl

def addDeviceRefLocked (r : RelayDataRegistry) (conn : ℕ) : RelayDataRegistry :=
  { r with deviceRefs := insert conn r.deviceRefs }

def removeDeviceRefLocked (r : RelayDataRegistry) (conn : ℕ) : RelayDataRegistry :=
  { r with deviceRefs := r.deviceRefs.erase conn }

/-- An endpoint that leaves its pair for good. -/
def displaceLocked (r : RelayDataRegistry) (conn : ℕ) : RelayDataRegistry :=
  (r.removeDeviceRefLocked conn).modify conn fun rc => rc.markTerminal.clearPeer

/-- The same for the endpoint in a slot, if there is one. -/
def displacePeerLocked (r : RelayDataRegistry) (peer : Option ℕ) : RelayDataRegistry :=
  let r := { r with deviceRefs := r.deviceRefs.filter fun conn => peer ≠ some conn }
  r.modifyPeer peer fun rc => rc.markTerminal.clearPeer

def pruneConsumedLocked (r : RelayDataRegistry) (now : ℕ) : RelayDataRegistry :=
  { r with consumed := r.consumed.retain fun _ expiresAt => decide (now < expiresAt) }

end RelayDataRegistry

/-! ## HTTP admission -/

/-- The reservation comes from the store, or from an active pair whose reservation the store no
longer has. -/
def lookupReservation (r : RelayDataRegistry) (reservationId : String) :
    Except Unit (Option Reservation) → Option Reservation
  | .error _ => none
  | .ok (some res) => some res
  | .ok none => r.retryReservation reservationId

/-- `authorize`; `stored` is what the store answers and `header` the decoded `X-Relay-Token`. -/
def relayDataAdmissionAuthorize (r : RelayDataRegistry) (deviceId reservationId : String)
    (stored : Except Unit (Option Reservation)) (queryToken : Bool) (header : Option Bytes) :
    Option (Reservation × RelayDataRole) := do
  let res ← lookupReservation r reservationId stored
  let role ← res.roleForDevice deviceId
  if !queryToken && header == some (res.token role) then some (res, role) else none

/-- `beginUpgrade`, for a request that was authorised; the lease takes the request's number. -/
def beginUpgrade (r : RelayDataRegistry) (request : ℕ) : RelayDataRegistry :=
  match r.requests.get? request with
  | none => r
  | some upgrade =>
    if r.closed then r
    else if r.maxUpgrades ≤ r.upgradeSlots then r
    else
      { r with
        requests := r.requests.erase request
        upgradeLeases := r.upgradeLeases.insert request upgrade
        upgradeSlots := r.upgradeSlots + 1 }

/-- `stageEndpoint`, for the endpoint that the holder of the lease has just made. -/
def stageEndpoint (r : RelayDataRegistry) (lease : ℕ) : RelayDataRegistry :=
  match r.upgradeLeases.get? lease with
  | none => r
  | some upgrade =>
    if r.closed then r
    else
      { r with
        upgradeLeases := r.upgradeLeases.erase lease
        upgradeRefs := insert r.nextConn r.upgradeRefs
        pumpEndpoints := insert r.nextConn r.pumpEndpoints
        conns := r.conns.insert r.nextConn
          (.new upgrade.res upgrade.deviceId upgrade.enrollmentGeneration upgrade.role)
        nextConn := r.nextConn + 1 }

/-- `activateEndpoint`; when it fails, the endpoint is closed by its own pump. -/
def activateEndpoint (r : RelayDataRegistry) (conn : ℕ) : RelayDataRegistry :=
  if !r.closed && decide (conn ∈ r.upgradeRefs) && !r.isTerminal conn then
    r.modify conn fun rc => { rc with admissionActive := true, activated := true }
  else r

/-! ## Pairing -/

/-- The tombstone check of `admitEndpoint`: `none` refuses the endpoint. -/
def checkConsumed (r : RelayDataRegistry) (reservationId : String) (now : ℕ) :
    Option RelayDataRegistry :=
  match r.consumed.get? reservationId with
  | none => some r
  | some expiresAt =>
    if now < expiresAt then
      match r.pairs.get? reservationId with
      | none => none
      | some pair => if !pair.active && !pair.replacementPending then none else some r
    else some { r with consumed := r.consumed.erase reservationId }

def RelayDataRegistry.newPairLocked (r : RelayDataRegistry) (res : Reservation) :
    RelayDataRegistry :=
  { r with
    pairs := r.pairs.insert res.reservationId (.empty res)
    pendingPairs := r.pendingPairs + 1 }

/-- The pair of the reservation, which is created unless too many are pending. -/
def openPair (r : RelayDataRegistry) (res : Reservation) :
    Option (RelayDataRegistry × RelayDataPair) :=
  match r.pairs.get? res.reservationId with
  | some pair => some (r, pair)
  | none =>
    if r.maxSessions ≤ r.pendingPairs then none
    else some (r.newPairLocked res, .empty res)

/-- A retry takes the place of the endpoint that waits in a pending pair. -/
def replacePending (r : RelayDataRegistry) (conn : ℕ) (rc : RelayDataConn) (pair : RelayDataPair)
    (replaced : ℕ) : RelayDataRegistry :=
  let pair := { pair.setSlot rc.role (some conn) with reservation := rc.res }
  let r := { r with pairs := r.pairs.insert rc.reservationId pair }
  (r.displaceLocked replaced).addDeviceRefLocked conn

/-- **A retry against an active role** invalidates the whole pair and becomes the first endpoint
of a fresh pending one. -/
def replaceActive (r : RelayDataRegistry) (conn : ℕ) (rc : RelayDataConn) (pair : RelayDataPair) :
    RelayDataRegistry :=
  let r := (r.displacePeerLocked pair.initiator).displacePeerLocked pair.responder
  let fresh : RelayDataPair := ⟨none, none, false, true, rc.res⟩
  let r := { r with
    pairs := r.pairs.insert rc.reservationId (fresh.setSlot rc.role (some conn))
    activePairs := decrement r.activePairs
    pendingPairs := r.pendingPairs + 1 }
  r.addDeviceRefLocked conn

/-- The endpoint takes the free slot of its role. -/
def occupySlot (r : RelayDataRegistry) (conn : ℕ) (rc : RelayDataConn) (pair : RelayDataPair) :
    RelayDataRegistry :=
  { r with
    pairs := r.pairs.insert rc.reservationId
      (pair.setSlot rc.role (some conn)) }.addDeviceRefLocked conn

/-- One of the PairReady frames found no room: both endpoints are gone, and the pair with them. -/
def undoPair (r : RelayDataRegistry) (conn peer : ℕ) (rc : RelayDataConn) : RelayDataRegistry :=
  let r := { r with
    pairs := r.pairs.erase rc.reservationId
    pendingPairs := decrement r.pendingPairs }
  (r.displaceLocked conn).displaceLocked peer

/-- What the commitment of a pair stores in either endpoint. -/
def RelayDataConn.commit (rc : RelayDataConn) (peer : ℕ) : RelayDataConn :=
  { rc with
    peer := some peer, pairReadySent := false, ready := true, paired := true
    pairReadyQueued := true }

/-- Both PairReady frames are queued. -/
def commitPair (r : RelayDataRegistry) (conn peer : ℕ) (rc : RelayDataConn) (pair : RelayDataPair)
    (now : ℕ) : RelayDataRegistry :=
  let r := { r with
    pairs := r.pairs.insert rc.reservationId
      { pair with active := true, replacementPending := false }
    pendingPairs := r.pendingPairs - 1
    activePairs := r.activePairs + 1
    consumed := r.consumed.insert rc.reservationId (now + relayDataConsumedRetention) }
  (r.modify conn (·.commit peer)).modify peer (·.commit conn)

/-- Both roles are there: the pair is committed, or all of it is undone. -/
def completePair (r : RelayDataRegistry) (conn peer : ℕ) (rc : RelayDataConn) (pair : RelayDataPair)
    (now : ℕ) (room peerRoom : Bool) : RelayDataRegistry × Bool :=
  let queued := rc.enqueues room && (r.conns.get? peer).any (·.enqueues peerRoom)
  if !queued then (undoPair r conn peer rc, false) else (commitPair r conn peer rc pair now, true)

/-- The role's slot is free. -/
def joinPair (r : RelayDataRegistry) (conn : ℕ) (rc : RelayDataConn) (pair : RelayDataPair)
    (now : ℕ) (room peerRoom : Bool) : RelayDataRegistry × Bool :=
  let complete := fun (r : RelayDataRegistry) (peer : ℕ) =>
    completePair (occupySlot r conn rc pair) conn peer rc (pair.setSlot rc.role (some conn)) now
      room peerRoom
  match pair.slot rc.role.other with
  | none => (occupySlot r conn rc pair, true)
  | some peer =>
    if r.maxSessions ≤ r.activePairs then (r, false)
    else if r.consumed.size < maxConsumedRelayDataReservations then complete r peer
    else
      let r := r.pruneConsumedLocked now
      if maxConsumedRelayDataReservations ≤ r.consumed.size then (r, false) else complete r peer

/-- **`admitEndpoint`** consumes one role slot. The Boolean is its `ok`. -/
def admitEndpoint (r : RelayDataRegistry) (conn : ℕ) (now : ℕ) (room peerRoom : Bool) :
    RelayDataRegistry × Bool :=
  match r.conns.get? conn with
  | none => (r, false)
  | some rc =>
    let r := r.removeUpgradeLocked conn
    if r.closed || rc.isTerminal then (r, false)
    else
      match checkConsumed r rc.reservationId now with
      | none => (r, false)
      | some r =>
        match openPair r rc.res with
        | none => (r, false)
        | some (r, pair) =>
          match pair.slot rc.role with
          | some replaced =>
            if !pair.active then (replacePending r conn rc pair replaced, true)
            else (replaceActive r conn rc pair, true)
          | none => joinPair r conn rc pair now room peerRoom

/-- **`forwardEndpoint`**: the endpoint whose queue takes a business frame read from `conn`. -/
def forwardEndpoint (r : RelayDataRegistry) (conn : ℕ) (room : Bool) : Option ℕ := do
  let rc ← r.conns.get? conn
  if r.closed || rc.isTerminal || !rc.ready || !rc.pairReadySent then none
  else
    let pair ← r.pairs.get? rc.reservationId
    if !pair.active then none
    else
      let other ← pair.counterpart conn
      let otherConn ← r.conns.get? other
      if otherConn.isTerminal || !otherConn.ready || rc.peer != some other then none
      else if otherConn.enqueues room then some other else none

/-! ## Release and revocation -/

/-- What becomes of an endpoint that is taken out of its pair, and of the one it leaves behind. -/
def RelayDataRegistry.detachLocked (r : RelayDataRegistry) (conn : ℕ) (other : Option ℕ) :
    RelayDataRegistry :=
  let r := r.removeDeviceRefLocked conn
  let r := r.modifyPeer other fun rc => rc.markTerminal.clearPeer
  r.modify conn RelayDataConn.clearPeer

/-- `releaseEndpointLocked` detaches exactly this endpoint, and its counterpart with it. -/
def releaseEndpointLocked (r : RelayDataRegistry) (conn : ℕ) : RelayDataRegistry :=
  match r.conns.get? conn with
  | none => r
  | some rc =>
    let r := r.removeUpgradeLocked conn
    match r.pairs.get? rc.reservationId with
    | none => r.removeDeviceRefLocked conn
    | some pair =>
      if pair.initiator = some conn ∨ pair.responder = some conn then
        let left := pair.without conn
        let r := r.detachLocked conn (left.initiator.or left.responder)
        if pair.active then
          { r with
            pairs := r.pairs.erase rc.reservationId
            activePairs := decrement r.activePairs }
        else if left.initiator = none ∧ left.responder = none then
          { r with
            pairs := r.pairs.erase rc.reservationId
            pendingPairs := decrement r.pendingPairs }
        else { r with pairs := r.pairs.insert rc.reservationId left }
      else r.removeDeviceRefLocked conn

def releaseEndpoint (r : RelayDataRegistry) (conn : ℕ) : RelayDataRegistry :=
  releaseEndpointLocked (r.modify conn RelayDataConn.markTerminal) conn

/-- Marks every target terminal, then detaches every target, in the order the map yields them. -/
def closeTargets (r : RelayDataRegistry) (targets : Finset ℕ) (order : List ℕ) :
    RelayDataRegistry :=
  let targets := if order.toFinset = targets then order else targets.sort
  let r := targets.foldl (fun r conn => r.modify conn RelayDataConn.markTerminal) r
  targets.foldl releaseEndpointLocked r

/-- The endpoints that `closeDeviceBeforeGeneration` closes: those of the device that are older
than the cutoff, and the peers of those that are admitted. -/
def RelayDataRegistry.closeTargetsOf (r : RelayDataRegistry) (deviceId : String) (cutoff : ℤ) :
    Finset ℕ :=
  let old := fun conn => (r.conns.get? conn).any fun rc =>
    decide (cutoff ≤ 0 ∨ rc.enrollmentGeneration < cutoff)
  let admitted := (r.deviceRefsOf deviceId).filter fun conn => old conn
  admitted ∪ admitted.biUnion (fun conn => ((r.conns.get? conn).bind (·.peer)).toFinset) ∪
    (r.upgradeRefsOf deviceId).filter fun conn => old conn

/-- The critical section of `closeDeviceBeforeGeneration`; a cutoff of 0 is `closeDevice`. -/
def closeDeviceBeforeGeneration (r : RelayDataRegistry) (deviceId : String) (cutoff : ℤ)
    (order : List ℕ) : RelayDataRegistry :=
  let leases := (r.upgradeLeases.toList.filter fun lease => lease.2.deviceId == deviceId &&
    decide (cutoff ≤ 0 ∨ lease.2.enrollmentGeneration < cutoff)).map Prod.fst
  let r := leases.foldl RelayDataRegistry.invalidateUpgradeLeaseLocked r
  closeTargets r (r.closeTargetsOf deviceId cutoff) order

/-- The critical section of `closeAllWithContext`, which runs once. -/
def closeAll (r : RelayDataRegistry) (order : List ℕ) : RelayDataRegistry :=
  if r.closed then r
  else
    let r := { r with closed := true }
    let r := (r.upgradeLeases.toList.map Prod.fst).foldl
      RelayDataRegistry.invalidateUpgradeLeaseLocked r
    closeTargets r r.pumpEndpoints order

/-! ## Interleavings -/

inductive RegistryOp
  | authorize (deviceId : String) (enrollmentGeneration : ℤ) (reservationId : String)
      (stored : Except Unit (Option Reservation)) (queryToken : Bool) (header : Option Bytes)
  | beginUpgrade (request : ℕ)
  /-- `relayDataUpgradeLease.release`. -/
  | releaseLease (lease : ℕ)
  | stageEndpoint (lease : ℕ)
  | activateEndpoint (conn : ℕ)
  /-- The first frame of an endpoint, `RelayDataConnect`. -/
  | connect (conn : ℕ) (reservationId : String) (localToken : Bytes) (now : ℕ)
      (room peerRoom : Bool)
  /-- A business frame is read from the endpoint. -/
  | forward (conn : ℕ) (room : Bool)
  /-- The read pump ends: `releaseEndpoint`. -/
  | release (conn : ℕ)
  /-- Both pumps have ended. -/
  | pumpsDone (conn : ℕ)
  | closeDevice (deviceId : String) (cutoff : ℤ) (order : List ℕ)
  | closeAll (order : List ℕ)
  /-- The first store of `markTerminal`, outside of the registry's lock. -/
  | markTerminal (conn : ℕ)
  /-- The other stores of `markTerminal`. -/
  | clearFlags (conn : ℕ)
  /-- `close(rc.done)`. -/
  | closeDone (conn : ℕ)
  /-- The writer has written PairReady; the endpoint may have become terminal meanwhile. -/
  | writePairReady (conn : ℕ)

inductive RegistryOutput
  | done
  | admitted (ok : Bool)
  /-- A business frame read from the first endpoint is in the queue of the second. -/
  | enqueued (conn other : ℕ)
deriving DecidableEq

def registryStep (r : RelayDataRegistry) : RegistryOp → RelayDataRegistry × RegistryOutput
  | .authorize deviceId enrollmentGeneration reservationId stored queryToken header =>
    match relayDataAdmissionAuthorize r deviceId reservationId stored queryToken header with
    | none => (r, .done)
    | some (res, role) =>
      ({ r with
          requests := r.requests.insert r.nextRequest ⟨deviceId, enrollmentGeneration, res, role⟩
          nextRequest := r.nextRequest + 1 }, .done)
  | .beginUpgrade request => (beginUpgrade r request, .done)
  | .releaseLease lease => (r.invalidateUpgradeLeaseLocked lease, .done)
  | .stageEndpoint lease => (stageEndpoint r lease, .done)
  | .activateEndpoint conn => (activateEndpoint r conn, .done)
  | .connect conn reservationId localToken now room peerRoom =>
    match r.conns.get? conn with
    | none => (r, .done)
    | some rc =>
      -- The pump looks at `isTerminal` before it waits for the lock; the endpoint may become
      -- terminal in between.
      if !rc.activated || rc.connected then (r, .done)
      else
        let r := r.modify conn fun rc => { rc with connected := true }
        if !rc.acceptConnect reservationId localToken then (r, .admitted false)
        else
          let result := admitEndpoint r conn now room peerRoom
          (result.1, .admitted result.2)
  | .forward conn room =>
    match r.conns.get? conn with
    | none => (r, .done)
    | some rc =>
      if !rc.connected then (r, .done)
      else
        match forwardEndpoint r conn room with
        | none => (r, .done)
        | some other => (r, .enqueued conn other)
  | .release conn =>
    (releaseEndpoint (r.modify conn fun rc => { rc with readDone := true }) conn, .done)
  | .pumpsDone conn =>
    if (r.conns.get? conn).any (·.readDone) then
      ({ r with pumpEndpoints := r.pumpEndpoints.erase conn }, .done)
    else (r, .done)
  | .closeDevice deviceId cutoff order =>
    (closeDeviceBeforeGeneration r deviceId cutoff order, .done)
  | .closeAll order => (closeAll r order, .done)
  | .markTerminal conn => (r.modify conn fun rc => { rc with terminal := true }, .done)
  | .clearFlags conn => (r.modify conn fun rc => if rc.terminal then rc.clearFlags else rc, .done)
  | .closeDone conn =>
    (r.modify conn fun rc => if rc.terminal then { rc with done := true } else rc, .done)
  | .writePairReady conn =>
    (r.modify conn fun rc => if rc.pairReadyQueued then { rc with pairReadySent := true } else rc,
      .done)

/-- The data registry of a relay that was configured with `maxSessions`. -/
def registryMachine (maxSessions : ℤ) : Machine RelayDataRegistry RegistryOp RegistryOutput :=
  ⟨newRelayDataRegistry maxSessions, registryStep⟩

end SshMobile.Server
