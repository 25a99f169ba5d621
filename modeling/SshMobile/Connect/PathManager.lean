import SshMobile.Connect.Physical
import SshMobile.Library.Machine

/-!
# The paths of a peer

`PeerPathManager` owns the paths of one peer in two slots and a list of draining paths. The
registry indexes the same paths weakly, so that other tasks can borrow or revoke them, and leases
keep a path alive after its owner let go of it.

The manager is used under a lock of its own, one call at a time; the registry and every path have
their own locks. A call therefore runs as a sequence of stages, one for each critical section it
enters, and the stages of the manager's call, of the calls of other tasks and the releases of
leases come in any order. A path is dropped with the last strong reference to it, and dropping it
closes its carrier.

## Main definitions

* `BorrowStage`, `ManagerStage`: what a call still has to do
* `PeerPathManager.start`: what a call of the manager does before its first critical section
* `executeBorrow`, `executeManager`: one critical section
* `pathMachine`: the manager, the registry and the leases of one peer
-/

namespace SshMobile.Connect

open Library Connection

/-! ## The manager -/

structure DirectProbe where
  generation : ℕ
  requiredCapabilities : UInt8
  deadline : ℕ
deriving DecidableEq

def DirectProbe.extend (probe : DirectProbe) (requiredCapabilities : UInt8) (deadline : ℕ) :
    DirectProbe :=
  { probe with
    requiredCapabilities := probe.requiredCapabilities ||| requiredCapabilities
    deadline := max probe.deadline deadline }

/-- Paths are referred to by the id of their handle. -/
structure PeerPathManager where
  directPath : Option ℕ
  directReady : Option ℕ
  relayPath : Option ℕ
  relayReady : Option ℕ
  drainingPaths : List ℕ
  directProbe : Option DirectProbe
  draining : Bool
  hardClosed : Bool
deriving DecidableEq

namespace PeerPathManager

def new : PeerPathManager := ⟨none, none, none, none, [], none, false, false⟩

def path (manager : PeerPathManager) : PathKind → Option ℕ
  | .direct => manager.directPath
  | .relay => manager.relayPath

/-- `take_direct` and `take_relay`, without the path they return. -/
def take (manager : PeerPathManager) : PathKind → PeerPathManager
  | .direct => { manager with directReady := none, directPath := none }
  | .relay => { manager with relayReady := none, relayPath := none }

/-- The end of `publish_ready_with_carrier_at`. -/
def install (manager : PeerPathManager) (kind : PathKind) (id : ℕ) : PeerPathManager :=
  match kind with
  | .direct => { manager with directReady := some id, directPath := some id, directProbe := none }
  | .relay => { manager with relayReady := some id, relayPath := some id }

/-- The capabilities that a path of this kind must have for a probe in flight. -/
def neededCapabilities (manager : PeerPathManager) : PathKind → Option UInt8
  | .direct => manager.directProbe.map (·.requiredCapabilities)
  | .relay => none

end PeerPathManager

/-! ## Calls in flight -/

/-- What a task that borrows or revokes paths still has to do. -/
inductive BorrowStage
  /-- `PhysicalPath::try_acquire`. -/
  | tryAcquire (id : ℕ)
  /-- Looks for an acquirable path among candidates. -/
  | select (candidates : List ℕ) (requiredCapabilities : UInt8)
  /-- Acquires the candidate found, or goes on when it is stale. -/
  | selectAcquire (id : ℕ) (candidates : List ℕ) (requiredCapabilities : UInt8)
  /-- Acquires one path if it is acquirable. -/
  | acquireIfReady (id : ℕ) (requiredCapabilities : UInt8)
  /-- Reads the state of a path. -/
  | inspect (id : ℕ)
  /-- Upgrades a weak reference that `revoke_peer` took out of the registry. -/
  | revokeEntry (id : ℕ)
  /-- `PhysicalPath::close_with_reason(HardClose)`. -/
  | close (id : ℕ)
deriving DecidableEq

/-- What the manager's call still has to do. -/
inductive ManagerStage
  | borrow (stage : BorrowStage)
  /-- `publish_ready_with_carrier_at` up to `create_path`. -/
  | publishCheck (profile : Route) (carrier createdAt : ℕ)
  | createPath (profile : Route) (carrier createdAt : ℕ)
  | install (kind : PathKind) (id : ℕ)
  /-- `take_entry` of `PathRegistry::drain`, `revoke` or `security_failure`. -/
  | takeEntry (id : ℕ) (reason : PathCloseReason)
  | retire (id : ℕ) (reason : PathCloseReason)
  /-- Keeps a retired path while it is leased. -/
  | keepIfActive (id : ℕ)
  /-- `reap_draining_paths`, from an index on. -/
  | reapDraining (index : ℕ)
  /-- `close_draining_paths`; in the manager's drop, the manager is gone when it ends. -/
  | closeDraining (reason : PathCloseReason) (drops : Bool)
  | directIdle (now : ℕ)
  | relayIdle (now : ℕ) (directExpired : Bool)
  | recordActivity (id : ℕ)
deriving DecidableEq

/-- The paths a stage holds a strong reference to. -/
def BorrowStage.holds : BorrowStage → List ℕ
  | .tryAcquire id | .acquireIfReady id _ | .inspect id | .close id => [id]
  | .select candidates _ => candidates
  | .selectAcquire id candidates _ => id :: candidates
  | .revokeEntry _ => []

@[inherit_doc BorrowStage.holds]
def ManagerStage.holds : ManagerStage → List ℕ
  | .borrow stage => stage.holds
  | .install _ id | .takeEntry id _ | .retire id _ | .keepIfActive id | .recordActivity id => [id]
  | .publishCheck .. | .createPath .. | .reapDraining _ | .closeDraining .. | .directIdle _
  | .relayIdle .. => []

/-- `retire_path`. -/
def retirePath (id : ℕ) (reason : PathCloseReason) : List ManagerStage :=
  [.takeEntry id reason, .retire id reason] ++
    if reason = .normalRetire then [.keepIfActive id] else []

/-- `retire_path` on what was in a slot. -/
def retireSlot (slot : Option ℕ) (reason : PathCloseReason) : List ManagerStage :=
  slot.elim [] (retirePath · reason)

/-- The calls of `PeerPathManager`. -/
inductive ManagerCall
  | publishReadyWithCarrier (profile : Route)
  | ensureDirectProbe (generation : ℕ) (requiredCapabilities : UInt8) (budget : ℕ)
  | finishDirectProbe (generation : ℕ)
  | acquireWithAuthorization (requiredCapabilities : UInt8) (allowDirect allowRelay : Bool)
  | acquireRelay (requiredCapabilities : UInt8)
  | recordActivity
  | retireEphemeral
  | normalDrain
  | hardClose
  | securityFailure
  | hardCloseDirect
  | hardCloseRelay
  | hardCloseDirectIfHandle (expected : ℕ)
  | hardCloseRelayIfHandle (expected : ℕ)
  | drop
deriving DecidableEq

/-- What a step of a task lets its caller see. -/
inductive PathOutput
  | pending
  | done
  | published (id : ℕ)
  | acquired (lease id : ℕ)
  | failed (error : PathError)
deriving DecidableEq

/-! ## The state -/

structure PathState where
  memory : PathMemory
  /-- The weak index of this peer's paths. -/
  registry : List ℕ
  nextId : ℕ
  /-- `none` once the manager was dropped. -/
  manager : Option PeerPathManager
  /-- The stages of the call that has the manager. -/
  managerCall : List ManagerStage
  calls : Table ℕ (List BorrowStage)
  nextCall : ℕ
  /-- How many carriers were handed to `publish_ready_with_carrier`. -/
  handed : ℕ
  /-- The carriers that were dropped without having been closed. -/
  discarded : List ℕ

namespace PathState

def empty : PathState := ⟨.empty, [], 1, some .new, [], ∅, 0, 0, []⟩

/-- **Every strong reference to a path**: the manager's, those of calls in flight and those of
live leases. -/
def holders (s : PathState) : List ℕ :=
  (s.manager.elim [] fun manager =>
    manager.directPath.toList ++ manager.relayPath.toList ++ manager.drainingPaths) ++
    s.managerCall.flatMap ManagerStage.holds ++
    s.calls.toList.flatMap (fun call => call.2.flatMap BorrowStage.holds) ++
    s.memory.leases.toList.map Prod.snd

/-- Whether a weak reference to the path can be upgraded. -/
def upgradable (s : PathState) (id : ℕ) : Bool := decide (id ∈ s.holders)

end PathState

def PathState.unheld (s : PathState) : List ℕ :=
  (s.memory.paths.toList.map Prod.fst).filter fun id => !s.upgradable id

/-- **`Drop for PhysicalPath`**, for every path that lost its last strong reference. -/
def PathState.dropUnheld (s : PathState) : PathState :=
  { s with memory := s.memory.closeAll s.unheld }

/-! ## The stages of a call -/

/-- What a call of the manager does before its first critical section: the new manager, the
stages to come and, for a call that ends here, what it returns. -/
def PeerPathManager.start (manager : PeerPathManager) (carrier now : ℕ) :
    ManagerCall → PeerPathManager × List ManagerStage × PathOutput
  | .publishReadyWithCarrier profile =>
    if manager.draining || manager.hardClosed then (manager, [], .failed .cancelled)
    else (manager, [.publishCheck profile carrier now], .pending)
  | .ensureDirectProbe generation requiredCapabilities budget =>
    if manager.draining || manager.hardClosed then (manager, [], .failed .cancelled)
    else
      match manager.directProbe with
      | some probe =>
        if probe.generation ≠ generation then (manager, [], .failed .staleAttempt)
        else ({ manager with
          directProbe := some (probe.extend requiredCapabilities (now + budget)) }, [], .done)
      | none => ({ manager with
          directProbe := some ⟨generation, requiredCapabilities, now + budget⟩ }, [], .done)
  | .finishDirectProbe generation =>
    if manager.directProbe.any (·.generation == generation) then
      ({ manager with directProbe := none }, [], .done)
    else (manager, [], .done)
  | .acquireWithAuthorization requiredCapabilities allowDirect allowRelay =>
    (manager, [.borrow (.select
      ((if allowDirect then manager.directPath.toList else []) ++
        (if allowRelay then manager.relayPath.toList else [])) requiredCapabilities)], .pending)
  | .acquireRelay requiredCapabilities =>
    match manager.relayPath with
    | none => (manager, [], .failed .noRoute)
    | some id => (manager, [.borrow (.acquireIfReady id requiredCapabilities)], .pending)
  | .recordActivity =>
    (manager, (manager.directPath.toList ++ manager.relayPath.toList).map .recordActivity, .pending)
  | .retireEphemeral =>
    if manager.draining || manager.hardClosed then (manager, [], .done)
    else (manager, [.directIdle now], .pending)
  | .normalDrain =>
    ({ (manager.take .direct).take .relay with draining := true, directProbe := none },
      retireSlot manager.directPath .normalRetire ++ retireSlot manager.relayPath .normalRetire ++
        [.reapDraining 0], .pending)
  | .hardClose =>
    ({ (manager.take .direct).take .relay with
        draining := true, hardClosed := true, directProbe := none },
      retireSlot manager.directPath .hardClose ++ retireSlot manager.relayPath .hardClose ++
        [.closeDraining .hardClose false], .pending)
  | .securityFailure =>
    ({ (manager.take .direct).take .relay with
        draining := true, hardClosed := true, directProbe := none },
      retireSlot manager.directPath .securityFailure ++
        retireSlot manager.relayPath .securityFailure ++ [.closeDraining .securityFailure false],
      .pending)
  | .hardCloseDirect =>
    ({ manager.take .direct with directProbe := none },
      retireSlot manager.directPath .hardClose, .done)
  | .hardCloseRelay => (manager.take .relay, retireSlot manager.relayPath .hardClose, .done)
  | .hardCloseDirectIfHandle expected =>
    if manager.directReady = some expected then
      ({ manager.take .direct with directProbe := none },
        retireSlot manager.directPath .hardClose, .done)
    else (manager, [], .done)
  | .hardCloseRelayIfHandle expected =>
    if manager.relayReady = some expected then
      (manager.take .relay, retireSlot manager.relayPath .hardClose, .done)
    else (manager, [], .done)
  | .drop =>
    ({ (manager.take .direct).take .relay with
        draining := true, hardClosed := true, directProbe := none },
      retireSlot manager.directPath .hardClose ++ retireSlot manager.relayPath .hardClose ++
        [.closeDraining .hardClose true], .pending)

/-- One critical section of a task that borrows or revokes paths, and the stages it leads to. -/
def executeBorrow (s : PathState) (now : ℕ) :
    BorrowStage → PathState × List BorrowStage × PathOutput
  | .tryAcquire id =>
    match s.memory.tryAcquire id now with
    | .ok (memory, lease) => ({ s with memory }, [], .acquired lease id)
    | .error error => (s, [], .failed error)
  | .select [] _ => (s, [], .failed .noRoute)
  | .select (id :: candidates) requiredCapabilities =>
    if s.memory.isAcquirable id requiredCapabilities then
      (s, [.selectAcquire id candidates requiredCapabilities], .pending)
    else (s, [.select candidates requiredCapabilities], .pending)
  | .selectAcquire id candidates requiredCapabilities =>
    match s.memory.tryAcquire id now with
    | .ok (memory, lease) => ({ s with memory }, [], .acquired lease id)
    | .error .staleAttempt => (s, [.select candidates requiredCapabilities], .pending)
    | .error error => (s, [], .failed error)
  | .acquireIfReady id requiredCapabilities =>
    if s.memory.isAcquirable id requiredCapabilities then (s, [.tryAcquire id], .pending)
    else (s, [], .failed .noRoute)
  | .inspect _ => (s, [], .done)
  | .revokeEntry id => if s.upgradable id then (s, [.close id], .pending) else (s, [], .pending)
  | .close id => ({ s with memory := s.memory.closeWithReason id .hardClose }, [], .done)

/-- **What a borrowing stage does to the memory**: nothing, one lease more, or one path closed. -/
inductive Borrowed (memory : PathMemory) (now : ℕ) (stage : BorrowStage) :
    PathMemory → PathOutput → Prop
  | kept {output : PathOutput} (hgrants : ∀ lease id, output ≠ .acquired lease id)
      (hpublishes : ∀ id, output ≠ .published id) : Borrowed memory now stage memory output
  | acquired {id lease : ℕ} {memory' : PathMemory}
      (hok : memory.tryAcquire id now = .ok (memory', lease)) :
      Borrowed memory now stage memory' (.acquired lease id)
  | closed {id : ℕ} (hstage : stage = .close id) :
      Borrowed memory now stage (memory.closeWithReason id .hardClose) .done

theorem executeBorrow_borrowed (s : PathState) (now : ℕ) (stage : BorrowStage) :
    ∃ memory, (executeBorrow s now stage).1 = { s with memory } ∧
      Borrowed s.memory now stage memory (executeBorrow s now stage).2.2 := by
  cases stage with
  | tryAcquire id =>
    simp only [executeBorrow]
    split
    · rename_i hok
      exact ⟨_, rfl, .acquired hok⟩
    · exact ⟨_, rfl, .kept nofun nofun⟩
  | select candidates requiredCapabilities =>
    cases candidates with
    | nil => exact ⟨_, rfl, .kept nofun nofun⟩
    | cons id candidates =>
      simp only [executeBorrow]
      split <;> exact ⟨_, rfl, .kept nofun nofun⟩
  | selectAcquire id candidates requiredCapabilities =>
    simp only [executeBorrow]
    split
    · rename_i hok
      exact ⟨_, rfl, .acquired hok⟩
    · exact ⟨_, rfl, .kept nofun nofun⟩
    · exact ⟨_, rfl, .kept nofun nofun⟩
  | acquireIfReady id requiredCapabilities | revokeEntry id =>
    simp only [executeBorrow]
    split <;> exact ⟨_, rfl, .kept nofun nofun⟩
  | inspect id => exact ⟨_, rfl, .kept nofun nofun⟩
  | close id => exact ⟨_, rfl, .closed rfl⟩

/-- The checks of `publish_ready_with_carrier_at` against the path in the slot: the error for
which the new carrier is closed, if any. -/
def publishError (s : PathState) (manager : PeerPathManager) (profile : Route) :
    Option PathError :=
  let kind := PathKind.fromProfile profile
  let mask := profileCapabilityMask profile
  if mask = 0 then some .capabilityUnavailable
  else
    match manager.path kind with
    | some old =>
      let oldMask := s.memory.capabilityMask old
      -- A ready path is only replaced by one that an active demand needs and that can do more.
      if mask ≠ oldMask ∧ mask &&& oldMask = oldMask ∧
          (manager.neededCapabilities kind).any (fun needed => mask &&& needed == needed) then none
      else some .staleAttempt
    | none =>
      if (manager.neededCapabilities kind).any (fun needed => mask &&& needed != needed) then
        some .capabilityUnavailable
      else none

/-- One critical section of the manager's call, and the stages it leads to. -/
def executeManager (s : PathState) (manager : PeerPathManager) (now : ℕ) :
    ManagerStage → PathState × List ManagerStage × PathOutput
  | .borrow stage =>
    let result := executeBorrow s now stage
    (result.1, result.2.1.map .borrow, result.2.2)
  | .publishCheck profile carrier createdAt =>
    let kind := PathKind.fromProfile profile
    -- A path that was closed through the registry does not keep its slot.
    let manager :=
      if profileCapabilityMask profile ≠ 0 ∧ (manager.path kind).any (!s.memory.isReady ·) then
        manager.take kind
      else manager
    match publishError s manager profile with
    | some error =>
      ({ s with
          manager := some manager
          memory := s.memory.closeCarrier carrier .hardClose }, [], .failed error)
    | none =>
      ({ s with manager := some manager }, [.createPath profile carrier createdAt], .pending)
  | .createPath profile carrier createdAt =>
    let kind := PathKind.fromProfile profile
    let registry := s.registry.filter s.upgradable
    if profileCapabilityMask profile = 0 then
      ({ s with memory := s.memory.closeCarrier carrier .hardClose }, [],
        .failed .capabilityUnavailable)
    else if maxReadyPathsPerPeer ≤ registry.length then
      ({ s with registry, memory := s.memory.closeCarrier carrier .hardClose }, [],
        .failed (.resourceLimit "ready paths"))
    else
      let id := s.nextId
      let handle : PathHandle := ⟨id, profile, profileCapabilityMask profile⟩
      ({ s with
          memory := s.memory.add handle carrier createdAt
          registry := registry ++ [id]
          nextId := id + 1
          manager := some (manager.take kind) },
        retireSlot (manager.path kind) .normalRetire ++ [.install kind id], .pending)
  | .install kind id => ({ s with manager := some (manager.install kind id) }, [], .published id)
  | .takeEntry id reason =>
    ({ s with registry := s.registry.erase id },
      if id ∈ s.registry ∧ s.upgradable id then [.retire id reason] else [], .pending)
  | .retire id reason => ({ s with memory := s.memory.retire id reason }, [], .pending)
  | .keepIfActive id =>
    if s.memory.isActive id then
      ({ s with manager := some { manager with
          drainingPaths := manager.drainingPaths ++ [id] } }, [], .pending)
    else (s, [], .pending)
  | .reapDraining index =>
    match manager.drainingPaths[index]? with
    | none => (s, [], .done)
    | some id =>
      if s.memory.isActive id then (s, [.reapDraining (index + 1)], .pending)
      else
        ({ s with manager := some { manager with
            drainingPaths := manager.drainingPaths.eraseIdx index } },
          [.reapDraining index], .pending)
  | .closeDraining reason drops =>
    match manager.drainingPaths with
    | [] => ({ s with manager := if drops then none else some manager }, [], .done)
    | id :: rest =>
      ({ s with
          manager := some { manager with drainingPaths := rest }
          memory := s.memory.closeWithReason id reason }, [.closeDraining reason drops], .pending)
  | .directIdle observed =>
    (s, [.relayIdle observed (manager.directPath.any (s.memory.isEphemeralIdle · observed))],
      .pending)
  | .relayIdle observed directExpired =>
    let relayExpired := manager.relayPath.any (s.memory.isEphemeralIdle · observed)
    let taken := if directExpired then manager.take .direct else manager
    let taken := if relayExpired then taken.take .relay else taken
    ({ s with manager := some taken },
      (if directExpired then retireSlot manager.directPath .normalRetire else []) ++
        (if relayExpired then retireSlot manager.relayPath .normalRetire else []), .done)
  | .recordActivity id => ({ s with memory := s.memory.recordActivity id now }, [], .pending)

/-! ## Interleavings -/

/-- What happens next, with the time at which it does. -/
inductive PathOp
  /-- A call of the manager begins, when no other has it. -/
  | call (call : ManagerCall) (now : ℕ)
  /-- The next stage of the manager's call. -/
  | advance (now : ℕ)
  /-- `PathProjection::acquire` upgrades its weak reference. -/
  | projectionAcquire (id : ℕ)
  /-- `PathProjection::is_alive` upgrades its weak reference. -/
  | projectionIsAlive (id : ℕ)
  /-- `PathRegistry::acquire` looks a handle up. -/
  | registryAcquire (id : ℕ)
  /-- `PathRegistry::lease_count` or `is_acquirable` looks a handle up. -/
  | registryInspect (id : ℕ)
  | selectCompatibleReadyPath (requiredCapabilities : UInt8)
  /-- `PathRegistry::revoke_peer`, with the order in which its map yields the entries. -/
  | revokePeer (order : List ℕ)
  /-- The next stage of another task's call. -/
  | resume (call now : ℕ)
  /-- A lease is released or dropped. -/
  | release (lease now : ℕ)
deriving DecidableEq

namespace PathState

/-- A call of another task that still has stages to run. -/
def begin (s : PathState) (stages : List BorrowStage) : PathState :=
  { s with calls := s.calls.insert s.nextCall stages, nextCall := s.nextCall + 1 }

/-- `PathRegistry::lookup`, for a stage that then uses the path. -/
def lookup (s : PathState) (id : ℕ) (stage : BorrowStage) : PathState × PathOutput :=
  if id ∈ s.registry then
    if s.upgradable id then (s.begin [stage], .pending)
    else ({ s with registry := s.registry.erase id }, .failed .staleAttempt)
  else (s, .failed .staleAttempt)

/-- The candidates of `select_compatible_ready_path`, best first. -/
def candidates (s : PathState) : List ℕ :=
  let preference := fun id =>
    ((s.memory.paths.get? id).map (pathPreference ·.handle.profile)).getD 0
  (s.registry.filter s.upgradable).mergeSort fun first second =>
    decide (preference second < preference first) ||
      (preference first == preference second && decide (second ≤ first))

end PathState

/-- One step, before the paths that nobody holds any more are dropped. -/
def pathAction (s : PathState) : PathOp → PathState × PathOutput
  | .call call now =>
    match s.manager, s.managerCall with
    | some manager, [] =>
      let result := manager.start s.handed now call
      let s := { s with manager := some result.1, managerCall := result.2.1 }
      match call with
      | .publishReadyWithCarrier _ =>
        -- A draining manager returns before it looks at the carrier.
        ({ s with
            handed := s.handed + 1
            discarded := s.discarded ++ if result.2.1 = [] then [s.handed] else [] }, result.2.2)
      | _ => (s, result.2.2)
    | _, _ => (s, .pending)
  | .advance now =>
    match s.manager, s.managerCall with
    | some manager, stage :: rest =>
      let result := executeManager s manager now stage
      ({ result.1 with managerCall := result.2.1 ++ rest }, result.2.2)
    | _, _ => (s, .pending)
  | .projectionAcquire id =>
    if s.upgradable id then (s.begin [.tryAcquire id], .pending) else (s, .failed .staleAttempt)
  | .projectionIsAlive id =>
    if s.upgradable id then (s.begin [.inspect id], .pending) else (s, .done)
  | .registryAcquire id => s.lookup id (.tryAcquire id)
  | .registryInspect id => s.lookup id (.inspect id)
  | .selectCompatibleReadyPath requiredCapabilities =>
    -- The references are upgraded and the dead entries removed in one critical section.
    ({ s with registry := s.registry.filter s.upgradable }.begin
      [.select s.candidates requiredCapabilities], .pending)
  | .revokePeer order =>
    let entries := if order.Perm s.registry then order else s.registry
    ({ s with registry := [] }.begin (entries.map .revokeEntry), .pending)
  | .resume call now =>
    match s.calls.get? call with
    | none => (s, .pending)
    | some [] => ({ s with calls := s.calls.erase call }, .done)
    | some (stage :: rest) =>
      let result := executeBorrow s now stage
      ({ result.1 with calls := result.1.calls.insert call (result.2.1 ++ rest) }, result.2.2)
  | .release lease now => ({ s with memory := s.memory.release lease now }, .done)

/-- **What the tasks besides the manager's call do**: they keep the memory, run a stage of a call in
flight or release a lease. -/
inductive Outside (s : PathState) (op : PathOp) : PathState × PathOutput → Prop
  | kept {registry : List ℕ} {calls : Table ℕ (List BorrowStage)} {nextCall : ℕ}
      {output : PathOutput} (hgrants : ∀ lease id, output ≠ .acquired lease id)
      (hpublishes : ∀ id, output ≠ .published id) :
      Outside s op ({ s with registry, calls, nextCall }, output)
  | borrowed {calls : Table ℕ (List BorrowStage)} {call now : ℕ} {stage : BorrowStage}
      {rest : List BorrowStage} {memory : PathMemory} {output : PathOutput}
      (hop : op = .resume call now) (hcall : s.calls.get? call = some (stage :: rest))
      (h : Borrowed s.memory now stage memory output) :
      Outside s op ({ s with memory, calls }, output)
  | released {lease now : ℕ} :
      Outside s op ({ s with memory := s.memory.release lease now }, .done)

theorem pathAction_cases (s : PathState) (op : PathOp) :
    (∃ call now, op = .call call now) ∨ (∃ now, op = .advance now) ∨
      (∀ call now, op ≠ .call call now) ∧ Outside s op (pathAction s op) := by
  cases op with
  | call call now => exact .inl ⟨call, now, rfl⟩
  | advance now => exact .inr (.inl ⟨now, rfl⟩)
  | projectionAcquire id | projectionIsAlive id | registryAcquire id | registryInspect id =>
    refine .inr (.inr ⟨nofun, ?_⟩)
    simp only [pathAction, PathState.lookup]
    split_ifs <;> exact .kept nofun nofun
  | selectCompatibleReadyPath requiredCapabilities | revokePeer order =>
    exact .inr (.inr ⟨nofun, .kept nofun nofun⟩)
  | resume call now =>
    refine .inr (.inr ⟨nofun, ?_⟩)
    simp only [pathAction]
    split
    · exact .kept nofun nofun
    · exact .kept nofun nofun
    · rename_i stage rest hcall
      obtain ⟨memory, hstate, hborrowed⟩ := executeBorrow_borrowed s now stage
      rw [hstate]
      exact .borrowed rfl hcall hborrowed
  | release lease now => exact .inr (.inr ⟨nofun, .released⟩)

def pathStep (s : PathState) (op : PathOp) : PathState × PathOutput :=
  let result := pathAction s op
  (result.1.dropUnheld, result.2)

/-- The manager, the registry and the leases of one peer. -/
def pathMachine : Machine PathState PathOp PathOutput := ⟨.empty, pathStep⟩

end SshMobile.Connect
