import SshMobile.Connect.PathManager

/-!
# Carriers are closed once

A carrier that is handed to `publish_ready_with_carrier` passes through the call, a path, and is
taken out of the path by whichever critical section closes it. The places it can be in are
counted, and no step changes their sum; a path is dropped with its last reference, so at the end
of the manager's and all leases' lives nothing is left in a path.

One call lets a carrier go: a draining or hard-closed manager answers `Cancelled` before it looks
at the carrier, which is then dropped without having been closed.

## Main definitions

* `PathState.Over`: the manager is gone, and so are all leases and calls
* `CarrierDiscipline`: what is asked of a run
* `refusedPublish`: a carrier is handed to a manager that is draining

## Main results

* `carriers_closed_once_iff`: the discipline holds exactly of the runs without such a call
* `refused_carrier_is_not_closed`: a run with one
-/

namespace SshMobile.Connect

open Library Connection

namespace PathMemory

/-! ## When a carrier is taken -/

/-- **Every carrier taken on the way** was the carrier of an unleased path, or it was allowed. -/
def TakesOnly (allowed : ℕ → Prop) (memory memory' : PathMemory) : Prop :=
  ∀ id before after, memory.paths.get? id = some before → before.inner.carrier ≠ none →
    memory'.paths.get? id = some after → after.inner.carrier = none →
    memory'.liveLeases id = 0 ∨ allowed id

variable {allowed : ℕ → Prop} {memory memory' : PathMemory}

theorem takesOnly_of_paths (hpaths : memory'.paths = memory.paths) :
    TakesOnly allowed memory memory' := by
  grind [TakesOnly]

/-- Only the path that is put back can have lost its carrier. -/
theorem takesOnly_insert {id : ℕ} {path path' : PhysicalPath}
    (hpath : memory.paths.get? id = some path)
    (hpaths : memory'.paths = memory.paths.insert id path')
    (htaken : path.inner.carrier ≠ none → path'.inner.carrier = none →
      memory'.liveLeases id = 0 ∨ allowed id) : TakesOnly allowed memory memory' := by
  grind [TakesOnly]

theorem takesOnly_tryAcquire {id now lease : ℕ}
    (h : memory.tryAcquire id now = .ok (memory', lease)) : TakesOnly allowed memory memory' := by
  unfold tryAcquire at h
  split at h
  · cases h
  · split at h
    · cases h
    · rename_i after hafter
      cases h
      obtain ⟨_, hchange, _, _⟩ := PhysicalPath.tryAcquire_ok hafter
      grind [takesOnly_insert, PhysicalPath.Change.carrier]

theorem takesOnly_retireNormal (h : memory.Counted) (id : ℕ) :
    TakesOnly allowed memory (memory.retireNormal id) := by
  unfold retireNormal
  split
  · exact takesOnly_of_paths rfl
  · rename_i path hpath
    refine takesOnly_insert hpath rfl fun hcarrier hnone => .inl ?_
    show memory.liveLeases id = 0
    rw [← h.count hpath]
    exact PhysicalPath.retireNormal_unleased hcarrier hnone

theorem takesOnly_closeWithReason (memory : PathMemory) {id : ℕ} (reason : PathCloseReason)
    (hallowed : allowed id) : TakesOnly allowed memory (memory.closeWithReason id reason) := by
  unfold closeWithReason
  split
  · exact takesOnly_of_paths rfl
  · rename_i path hpath
    exact takesOnly_insert hpath rfl fun _ _ => .inr hallowed

theorem takesOnly_retire (h : memory.Counted) (id : ℕ) (reason : PathCloseReason)
    (hallowed : reason ≠ .normalRetire → allowed id) :
    TakesOnly allowed memory (memory.retire id reason) := by
  cases reason with
  | normalRetire => exact takesOnly_retireNormal h id
  | hardClose | securityFailure => exact takesOnly_closeWithReason memory _ (hallowed nofun)

theorem takesOnly_recordActivity (memory : PathMemory) (id now : ℕ) :
    TakesOnly allowed memory (memory.recordActivity id now) := by
  unfold recordActivity
  split
  · exact takesOnly_of_paths rfl
  · rename_i path hpath
    refine takesOnly_insert hpath rfl fun hcarrier hnone => ?_
    rcases (path.recordActivity_change now).carrier with ⟨hsame, _⟩ | ⟨_, htaken⟩
    · exact absurd (hsame ▸ hnone) hcarrier
    · exact absurd htaken.symm hcarrier

theorem takesOnly_release (h : memory.Counted) (lease now : ℕ) :
    TakesOnly allowed memory (memory.release lease now) := by
  have hcounted := h.move (memory.release_move lease now)
  unfold release at hcounted ⊢
  split at hcounted
  · exact takesOnly_of_paths rfl
  · split at hcounted
    · exact takesOnly_of_paths rfl
    · rename_i id hlease path hpath
      refine takesOnly_insert hpath rfl fun hcarrier hnone => .inl ?_
      rw [← hcounted.count (get?_put ..  |>.trans (if_pos rfl))]
      exact PhysicalPath.releaseLease_unleased hcarrier hnone

theorem takesOnly_add {handle : PathHandle} (carrier createdAt : ℕ)
    (hfresh : memory.paths.get? handle.id = none) :
    TakesOnly allowed memory (memory.add handle carrier createdAt) := by
  grind [add, TakesOnly]

end PathMemory

/-! ## One stage -/

/-- The carriers a stage still has in hand. -/
def ManagerStage.carriers : ManagerStage → List ℕ
  | .publishCheck _ carrier _ | .createPath _ carrier _ => [carrier]
  | _ => []

/-- New paths get ids that no path has. -/
def PathState.Fresh (s : PathState) : Prop :=
  ∀ id path, s.memory.paths.get? id = some path → id < s.nextId

variable {s : PathState}

theorem PathState.Fresh.get?_nextId (h : s.Fresh) :
    s.memory.paths.get? s.nextId = none := by
  rcases hpath : s.memory.paths.get? s.nextId with _ | path
  · rfl
  · exact absurd (h _ _ hpath) (lt_irrefl _)

open PathMemory

section

variable {memory memory' : PathMemory} {now : ℕ} {stage : BorrowStage} {output : PathOutput}
  (h : Borrowed memory now stage memory' output)

include h

theorem Borrowed.move : memory.Move memory' := by
  cases h with
  | kept => exact .none
  | acquired hok => exact tryAcquire_move hok
  | closed => exact memory.closeWithReason_move _ .hardClose

theorem Borrowed.takesOnly : TakesOnly (fun id => stage = .close id) memory memory' := by
  cases h with
  | kept => exact takesOnly_of_paths rfl
  | acquired hok => exact takesOnly_tryAcquire hok
  | closed hstage => exact takesOnly_closeWithReason memory _ hstage

end

/-- **Nothing is lost**: the carriers in hand before a stage are in hand after it, in a path or
closed, and the leases stay counted. -/
structure Conserves (s s' : PathState) (before after : List ℕ) : Prop where
  handed : s'.handed = s.handed
  discarded : s'.discarded = s.discarded
  places : ∀ carrier, s'.memory.places carrier + after.count carrier =
    s.memory.places carrier + before.count carrier
  counted : s'.memory.Counted
  fresh : s'.Fresh

section Conserves

variable {s s' : PathState} (hcounted : s.memory.Counted) (hfresh : s.Fresh)

include hcounted hfresh

theorem conserves_control (registry : List ℕ) (manager : Option PeerPathManager)
    (carriers : List ℕ) : Conserves s { s with registry, manager } carriers carriers :=
  ⟨rfl, rfl, fun _ => rfl, hcounted, hfresh⟩

theorem conserves_of_move (hmove : s.memory.Move s'.memory) (hnext : s'.nextId = s.nextId)
    (hhanded : s'.handed = s.handed) (hdiscarded : s'.discarded = s.discarded) :
    Conserves s s' [] [] where
  handed := hhanded
  discarded := hdiscarded
  places carrier := by rw [hmove.places]
  counted := hcounted.move hmove
  fresh := fun id path hpath => by
    obtain ⟨before, _, hbefore, _⟩ := hmove.exists_before hpath
    exact hnext ▸ hfresh id before hbefore

theorem conserves_of_closeCarrier {carrier : ℕ} {reason : PathCloseReason}
    (hmemory : s'.memory = s.memory.closeCarrier carrier reason) (hnext : s'.nextId = s.nextId)
    (hhanded : s'.handed = s.handed) (hdiscarded : s'.discarded = s.discarded) :
    Conserves s s' [carrier] [] where
  handed := hhanded
  discarded := hdiscarded
  places other := by rw [hmemory, places_closeCarrier, List.count_nil, Nat.add_zero]
  counted := hmemory ▸ hcounted.closeCarrier carrier reason
  fresh := fun id path hpath => by
    rw [hmemory] at hpath
    exact hnext ▸ hfresh id path hpath

theorem conserves_of_add {profile : Route} {mask : UInt8} {carrier createdAt : ℕ}
    (hmemory : s'.memory = s.memory.add ⟨s.nextId, profile, mask⟩ carrier createdAt)
    (hnext : s'.nextId = s.nextId + 1) (hhanded : s'.handed = s.handed)
    (hdiscarded : s'.discarded = s.discarded) : Conserves s s' [carrier] [] where
  handed := hhanded
  discarded := hdiscarded
  places other := by
    grind [places_add, PathState.Fresh.get?_nextId]
  counted := hmemory ▸ hcounted.add carrier createdAt hfresh.get?_nextId
  fresh := fun id path hpath => by
    grind [add, PathState.Fresh]

end Conserves

open ManagerStage

@[simp]
theorem carriers_retireSlot (slot : Option ℕ) (reason : PathCloseReason) :
    (retireSlot slot reason).flatMap carriers = [] := by
  cases slot with
  | none => rfl
  | some id => cases reason <;> rfl

@[simp]
theorem carriers_map_borrow (stages : List BorrowStage) :
    (stages.map borrow).flatMap carriers = [] := by
  simp [List.flatMap_map, carriers]

theorem executeManager_conserves (hcounted : s.memory.Counted) (hfresh : s.Fresh)
    (manager : PeerPathManager) (now : ℕ) (stage : ManagerStage) :
    Conserves s (executeManager s manager now stage).1 stage.carriers
      ((executeManager s manager now stage).2.1.flatMap carriers) := by
  have hsame : Conserves s s [] [] := conserves_control hcounted hfresh _ _ []
  cases stage with
  | borrow stage =>
    obtain ⟨memory, hstate, hborrowed⟩ := executeBorrow_borrowed s now stage
    simp only [executeManager, carriers_map_borrow, hstate]
    exact conserves_of_move hcounted hfresh hborrowed.move rfl rfl rfl
  | publishCheck profile carrier createdAt =>
    simp only [executeManager]
    split
    · exact conserves_of_closeCarrier hcounted hfresh rfl rfl rfl rfl
    · exact conserves_control hcounted hfresh _ _ [carrier]
  | createPath profile carrier createdAt =>
    simp only [executeManager]
    split_ifs
    · exact conserves_of_closeCarrier hcounted hfresh rfl rfl rfl rfl
    · exact conserves_of_closeCarrier hcounted hfresh rfl rfl rfl rfl
    · simp only [List.flatMap_append, carriers_retireSlot]
      exact conserves_of_add hcounted hfresh rfl rfl rfl rfl
  | install kind id => exact conserves_control hcounted hfresh _ _ []
  | takeEntry id reason =>
    simp only [executeManager]
    split_ifs
    · exact conserves_control hcounted hfresh _ _ []
    · exact conserves_control hcounted hfresh _ _ []
  | retire id reason =>
    exact conserves_of_move hcounted hfresh (s.memory.retire_move id reason) rfl rfl rfl
  | keepIfActive id =>
    simp only [executeManager]
    split_ifs
    · exact conserves_control hcounted hfresh _ _ []
    · exact hsame
  | reapDraining index =>
    simp only [executeManager]
    split
    · exact hsame
    · split_ifs
      · exact hsame
      · exact conserves_control hcounted hfresh _ _ []
  | closeDraining reason drops =>
    simp only [executeManager]
    split
    · exact conserves_control hcounted hfresh _ _ []
    · exact conserves_of_move hcounted hfresh (s.memory.closeWithReason_move _ reason) rfl rfl rfl
  | directIdle observed => exact hsame
  | relayIdle observed directExpired =>
    have hstages : ((executeManager s manager now (.relayIdle observed directExpired)).2.1.flatMap
        carriers) = [] := by
      simp only [executeManager, List.flatMap_append]
      split_ifs <;> simp
    rw [hstages]
    exact conserves_control hcounted hfresh _ _ []
  | recordActivity id =>
    exact conserves_of_move hcounted hfresh (s.memory.recordActivity_move id now) rfl rfl rfl

/-- The stages that close a path whatever its leases. -/
def ManagerStage.HardCloses (manager : PeerPathManager) (id : ℕ) : ManagerStage → Prop
  | .borrow stage => stage = .close id
  | .retire path reason => path = id ∧ reason ≠ .normalRetire
  | .closeDraining .. => manager.drainingPaths.head? = some id
  | _ => False

theorem executeManager_takesOnly (hcounted : s.memory.Counted) (hfresh : s.Fresh)
    (manager : PeerPathManager) (now : ℕ) (stage : ManagerStage) :
    TakesOnly (stage.HardCloses manager) s.memory
      (executeManager s manager now stage).1.memory := by
  have hsame : TakesOnly (stage.HardCloses manager) s.memory s.memory :=
    takesOnly_of_paths rfl
  cases stage with
  | borrow stage =>
    obtain ⟨memory, hstate, hborrowed⟩ := executeBorrow_borrowed s now stage
    simp only [executeManager, hstate]
    exact hborrowed.takesOnly
  | publishCheck profile carrier createdAt =>
    simp only [executeManager]
    split
    · exact takesOnly_of_paths rfl
    · exact hsame
  | createPath profile carrier createdAt =>
    simp only [executeManager]
    split_ifs
    · exact takesOnly_of_paths rfl
    · exact takesOnly_of_paths rfl
    · exact takesOnly_add carrier createdAt hfresh.get?_nextId
  | install kind id | takeEntry id reason | directIdle observed
  | relayIdle observed directExpired => exact hsame
  | retire id reason =>
    exact takesOnly_retire hcounted id reason fun hreason => ⟨rfl, hreason⟩
  | keepIfActive id =>
    grind [executeManager]
  | reapDraining index =>
    grind [executeManager]
  | closeDraining reason drops =>
    grind [executeManager, takesOnly_closeWithReason, HardCloses]
  | recordActivity id => exact takesOnly_recordActivity s.memory id now

/-! ## One step -/

/-- **A hard close or a security failure** of the path: `hard_close`, `security_failure`,
`hard_close_direct` and `hard_close_relay` and the manager's drop close it in the manager's call,
`revoke_peer` in a call of another task. -/
def HardCloses (s : PathState) (op : PathOp) (id : ℕ) : Prop :=
  match op with
  | .advance _ => ∃ manager stage rest, s.manager = some manager ∧
      s.managerCall = stage :: rest ∧ stage.HardCloses manager id
  | .resume call _ => ∃ rest, s.calls.get? call = some (.close id :: rest)
  | _ => False

/-- Every carrier handed over is in exactly one place. -/
structure Ledger (s : PathState) : Prop where
  counted : s.memory.Counted
  fresh : s.Fresh
  conserved : ∀ carrier, s.memory.places carrier +
    (s.managerCall.flatMap ManagerStage.carriers).count carrier + s.discarded.count carrier =
      if carrier < s.handed then 1 else 0

theorem ledger_empty : Ledger .empty :=
  ⟨counted_empty, nofun, fun _ => rfl⟩

/-- A step that leaves the memory and what is in hand alone keeps the ledger. -/
theorem Ledger.control (h : Ledger s) (registry : List ℕ)
    (calls : Table ℕ (List BorrowStage)) (nextCall : ℕ) :
    Ledger { s with registry, calls, nextCall } :=
  ⟨h.counted, h.fresh, h.conserved⟩

theorem Ledger.conserves {s' : PathState} (h : Ledger s) {before after : List ℕ}
    (hc : Conserves s s' before after) (rest : List ManagerStage)
    (hbefore : s.managerCall.flatMap carriers =
      before ++ rest.flatMap carriers)
    (hafter : s'.managerCall.flatMap carriers =
      after ++ rest.flatMap carriers) : Ledger s' := by
  refine ⟨hc.counted, hc.fresh, fun carrier => ?_⟩
  have hplaces := hc.places carrier
  have hledger := h.conserved carrier
  grind [Conserves.handed, Conserves.discarded]

theorem Ledger.move (h : Ledger s) {memory : PathMemory}
    (hmove : s.memory.Move memory) : Ledger { s with memory } := by
  have hc : Conserves s { s with memory } [] [] :=
    conserves_of_move h.counted h.fresh hmove rfl rfl rfl
  exact h.conserves hc s.managerCall rfl rfl

open PeerPathManager

/-- No call but `publish_ready_with_carrier` has a carrier in hand. -/
theorem carriers_start (manager : PeerPathManager) (carrier now : ℕ) {call : ManagerCall}
    (hcall : ∀ profile, call ≠ .publishReadyWithCarrier profile) :
    (manager.start carrier now call).2.1.flatMap carriers = [] := by
  cases call with
  | publishReadyWithCarrier profile => exact absurd rfl (hcall profile)
  | ensureDirectProbe generation requiredCapabilities budget | finishDirectProbe generation =>
    grind [start]
  | acquireWithAuthorization requiredCapabilities allowDirect allowRelay => rfl
  | acquireRelay requiredCapabilities =>
    simp only [start]
    split <;> rfl
  | recordActivity => simp [start, List.flatMap_map, carriers]
  | retireEphemeral =>
    simp only [start]
    split_ifs <;> rfl
  | normalDrain | hardClose | securityFailure | drop =>
    simp [start, carriers]
  | hardCloseDirect | hardCloseRelay => simp [start]
  | hardCloseDirectIfHandle expected | hardCloseRelayIfHandle expected =>
    simp only [start]
    split_ifs <;> simp

/-- **A carrier is handed to a draining or hard-closed manager.** -/
def refusedPublish (s : PathState) : PathOp → Bool
  | .call (.publishReadyWithCarrier _) _ =>
    s.managerCall.isEmpty && s.manager.any fun manager => manager.draining || manager.hardClosed
  | _ => false

/-- A new carrier has one place: the call's hand, or none at all. -/
theorem Ledger.hand (h : Ledger s) (hcall : s.managerCall = [])
    (manager : Option PeerPathManager) {managerCall : List ManagerStage} {lost : List ℕ}
    (hplace : managerCall.flatMap carriers ++ lost = [s.handed]) :
    Ledger { s with
      manager, managerCall, handed := s.handed + 1, discarded := s.discarded ++ lost } := by
  refine ⟨h.counted, h.fresh, fun carrier => ?_⟩
  have hledger := h.conserved carrier
  have hcount := congrArg (List.count carrier) hplace
  grind

theorem Ledger.call (h : Ledger s) (call : ManagerCall) (now : ℕ) :
    Ledger (pathAction s (.call call now)).1 := by
  simp only [pathAction]
  split
  · rename_i manager hmanager hcall
    split
    · refine h.hand hcall _ ?_
      -- A draining manager keeps nothing in hand; the carrier is lost.
      grind [PeerPathManager.start, ManagerStage.carriers]
    · rename_i hother
      have hcarriers := carriers_start manager s.handed now hother
      refine ⟨h.counted, h.fresh, fun carrier => ?_⟩
      have hledger := h.conserved carrier
      grind
  · exact h

theorem Ledger.action (h : Ledger s) (op : PathOp) :
    Ledger (pathAction s op).1 := by
  rcases pathAction_cases s op with ⟨call, now, rfl⟩ | ⟨now, rfl⟩ | ⟨-, hout⟩
  · exact h.call call now
  · simp only [pathAction]
    split
    · rename_i manager stage rest hmanager hcall
      have hc := executeManager_conserves h.counted h.fresh manager now stage
      have hc' : Conserves s { (executeManager s manager now stage).1 with
          managerCall := (executeManager s manager now stage).2.1 ++ rest } stage.carriers
          ((executeManager s manager now stage).2.1.flatMap carriers) :=
        ⟨hc.handed, hc.discarded, hc.places, hc.counted, hc.fresh⟩
      refine h.conserves hc' rest ?_ ?_
      · rw [hcall, List.flatMap_cons]
      · exact List.flatMap_append
    · exact h
  · generalize pathAction s op = result at hout ⊢
    cases hout with
    | kept => exact h.control ..
    | borrowed _ _ hborrowed => exact (h.move hborrowed.move).control ..
    | released => exact h.move (s.memory.release_move _ _)

theorem call_memory (s : PathState) (call : ManagerCall) (now : ℕ) :
    (pathAction s (.call call now)).1.memory = s.memory := by
  grind [pathAction]

theorem action_takesOnly (h : Ledger s) (op : PathOp) :
    TakesOnly (HardCloses s op) s.memory (pathAction s op).1.memory := by
  rcases pathAction_cases s op with ⟨call, now, rfl⟩ | ⟨now, rfl⟩ | ⟨-, hout⟩
  · exact takesOnly_of_paths (by rw [call_memory])
  · grind [pathAction, executeManager_takesOnly, Ledger.counted, Ledger.fresh, TakesOnly,
      HardCloses]
  · generalize pathAction s op = result at hout ⊢
    cases hout with
    | kept => exact takesOnly_of_paths rfl
    | borrowed hop hcall hborrowed =>
      have htakes := hborrowed.takesOnly
      grind [TakesOnly, HardCloses]
    | released => exact takesOnly_release h.counted _ _

/-! ## Dropping what nobody holds -/

theorem Ledger.dropUnheld (h : Ledger s) : Ledger s.dropUnheld := by
  refine ⟨counted_closeAll h.counted _, ?_, ?_⟩
  · intro id path hpath
    refine closeAll_induction
      (P := fun memory => ∀ id path, memory.paths.get? id = some path → id < s.nextId)
      ?_ s.unheld s.memory h.fresh id path hpath
    intro memory other hfresh id path hpath
    obtain ⟨before, _, hbefore, _⟩ := (memory.closeWithReason_move other _).exists_before hpath
    exact hfresh id before hbefore
  · intro carrier
    show (s.memory.closeAll s.unheld).places carrier + _ + _ = _
    rw [places_closeAll]
    exact h.conserved carrier

theorem notMem_leases_of_unheld {id : ℕ} (hid : id ∈ s.unheld) :
    s.memory.liveLeases id = 0 := by
  have hholders : id ∉ s.holders := by
    have := (List.mem_filter.mp hid).2
    simpa [PathState.upgradable] using this
  apply List.sum_eq_zero
  rintro _ hmem
  obtain ⟨⟨lease, other⟩, hlease, rfl⟩ := List.mem_map.mp hmem
  refine if_neg fun heq : other = id => hholders ?_
  exact List.mem_append_right _ (List.mem_map.mpr ⟨(lease, other), hlease, heq⟩)

theorem liveLeases_dropUnheld (s : PathState) (id : ℕ) :
    s.dropUnheld.memory.liveLeases id = s.memory.liveLeases id := by
  simp only [PathState.dropUnheld, liveLeases, leases_closeAll]

theorem step_takesOnly (h : Ledger s) (op : PathOp) :
    TakesOnly (HardCloses s op) s.memory (pathStep s op).1.memory := by
  intro id before after hbefore hcarrier hafter hnone
  have htakes := action_takesOnly h op
  simp only [pathStep] at hafter ⊢
  generalize (pathAction s op).1 = s' at htakes hafter ⊢
  rw [liveLeases_dropUnheld]
  by_cases hid : id ∈ s'.unheld
  · exact .inl (notMem_leases_of_unheld hid)
  · have hsame := s'.memory.get?_closeAll_of_notMem hid
    exact htakes id before after hbefore hcarrier (hsame.symm.trans hafter) hnone

theorem Ledger.step (h : Ledger s) (op : PathOp) : Ledger (pathStep s op).1 :=
  (h.action op).dropUnheld

theorem ledger_run (ops : List PathOp) : Ledger (pathMachine.run ops) :=
  pathMachine.run_always ledger_empty (fun _ op h => h.step op) ops

/-- **A path with a carrier is held** by the manager, by a call in flight or by a lease. -/
def Held (s : PathState) : Prop := ∀ id, s.memory.isActive id = true → id ∈ s.holders

theorem holders_dropUnheld (s : PathState) : s.dropUnheld.holders = s.holders := by
  simp only [PathState.dropUnheld, PathState.holders, leases_closeAll]

theorem held_dropUnheld (s : PathState) : Held s.dropUnheld := by
  intro id hactive
  rw [holders_dropUnheld]
  by_contra hholders
  rcases hpath : s.memory.paths.get? id with _ | path
  · -- There is no such path to be dropped.
    have hunheld : id ∉ s.unheld := by
      intro hid
      obtain ⟨⟨_, path⟩, hmem, rfl⟩ := List.mem_map.mp (List.mem_filter.mp hid).1
      grind
    have hsame := s.memory.get?_closeAll_of_notMem hunheld
    grind [isActive, PathState.dropUnheld]
  · have hunheld : id ∈ s.unheld := by
      refine List.mem_filter.mpr ⟨?_, by simpa [PathState.upgradable] using hholders⟩
      exact List.mem_map.mpr ⟨(id, path), Table.mem_toList.mpr hpath, rfl⟩
    have hclosed := s.memory.isActive_closeAll_of_mem hunheld
    exact Bool.false_ne_true (hclosed.symm.trans hactive)

theorem held_run (ops : List PathOp) : Held (pathMachine.run ops) :=
  pathMachine.run_always (I := Held) (fun _ h => nomatch h) (fun _ _ _ => held_dropUnheld _) ops

/-! ## Lost carriers -/

/-- **Only a refused publication loses a carrier.** -/
theorem action_discarded (h : Ledger s) (op : PathOp) :
    (pathAction s op).1.discarded =
      s.discarded ++ if refusedPublish s op then [s.handed] else [] := by
  rcases pathAction_cases s op with ⟨call, now, rfl⟩ | ⟨now, rfl⟩ | ⟨hop, hout⟩
  · simp only [pathAction]
    split
    · rename_i manager hmanager hcall
      split
      · rcases hrefused : (manager.draining || manager.hardClosed) with _ | _
        · grind [refusedPublish, start]
        · grind [refusedPublish, start]
      · have hkept : refusedPublish s (.call call now) = false := by
          unfold refusedPublish
          simp_all
        simp_all
    · have hkept : refusedPublish s (.call call now) = false := by
        unfold refusedPublish
        split
        · rcases hmanager : s.manager with _ | manager
          · simp
          · simp_all
        · rfl
      simp_all
  · refine Eq.trans ?_ (List.append_nil _).symm
    simp only [pathAction]
    split
    · exact (executeManager_conserves h.counted h.fresh _ now _).discarded
    · rfl
  · have hkept : refusedPublish s op = false := by
      unfold refusedPublish
      split
      · exact absurd rfl (hop _ _)
      · rfl
    rw [hkept]
    generalize pathAction s op = result at hout ⊢
    cases hout <;> exact (List.append_nil _).symm

theorem discarded_eq_nil_iff (ops : List PathOp) :
    (pathMachine.run ops).discarded = [] ↔
      pathMachine.Along (fun s op => refusedPublish s op = false) ops := by
  induction ops using List.reverseRecOn with
  | nil => exact ⟨fun _ => trivial, fun _ => rfl⟩
  | append_singleton ops op ih =>
    rw [Machine.run_snoc, Machine.Along, Machine.alongFrom_snoc]
    have hstep : (pathMachine.step (pathMachine.run ops) op).1.discarded = _ :=
      action_discarded (ledger_run ops) op
    rw [hstep, List.append_eq_nil_iff, ih]
    refine and_congr_right fun _ => ?_
    show _ ↔ refusedPublish (pathMachine.run ops) op = false
    simp

/-! ## The discipline -/

/-- **The end of the manager's and all leases' lives**: nothing refers to a path any more. -/
structure PathState.Over (s : PathState) : Prop where
  manager : s.manager = none
  managerCall : s.managerCall = []
  calls : ∀ call ∈ s.calls.toList, call.2 = []
  leases : s.memory.leases.toList = []

theorem PathState.Over.holders (h : s.Over) : s.holders = [] := by
  unfold PathState.holders
  rw [h.manager, h.managerCall]
  have hcalls : s.calls.toList.flatMap (fun call => call.2.flatMap BorrowStage.holds) = [] := by
    rw [List.flatMap_eq_nil_iff]
    intro call hmem
    rw [h.calls call hmem]
    rfl
  rw [hcalls, h.leases]
  rfl

/-- How often a carrier was closed. -/
def PathState.closes (s : PathState) (carrier : ℕ) : ℕ :=
  (s.memory.closed.map Prod.fst).count carrier

/-- At the end no path has a carrier. -/
theorem places_of_over (hheld : Held s) (hover : s.Over) (carrier : ℕ) :
    s.memory.places carrier = s.closes carrier := by
  have hpaths : s.memory.paths.sumBy (fun _ path => path.holds carrier) = 0 := by
    apply List.sum_eq_zero
    rintro _ hmem
    obtain ⟨⟨id, path⟩, hpath, rfl⟩ := List.mem_map.mp hmem
    have hclosed : path.inner.isActive = false := by
      by_contra hactive
      have hmem := hheld id (by
        grind [isActive])
      rw [hover.holders] at hmem
      cases hmem
    show path.holds carrier = 0
    rw [PhysicalPath.holds, path.sound.carrier_eq_none hclosed]
    rfl
  rw [places, hpaths, Nat.zero_add]
  rfl

/-- **What is asked of a run**: no carrier is closed twice, each is closed by the end, every path
counts its live leases, and a carrier is taken from a leased path by a hard close or a security
failure only. -/
structure CarrierDiscipline (ops : List PathOp) : Prop where
  atMostOnce : ∀ carrier, (pathMachine.run ops).closes carrier ≤ 1
  once : (pathMachine.run ops).Over → ∀ carrier < (pathMachine.run ops).handed,
    (pathMachine.run ops).closes carrier = 1
  counted : ∀ before after, ops = before ++ after → ∀ id path,
    (pathMachine.run before).memory.paths.get? id = some path →
      path.inner.leases = (pathMachine.run before).memory.liveLeases id ∧
        path.inner.leases ≤ maxPathLeases
  allowed : pathMachine.Along (fun s op =>
    PathMemory.TakesOnly (HardCloses s op) s.memory (pathStep s op).1.memory) ops

/-- **Carriers are closed once** in exactly the runs that hand no carrier to a draining manager. -/
theorem carriers_closed_once_iff (ops : List PathOp) :
    CarrierDiscipline ops ↔
      ((pathMachine.run ops).Over →
        pathMachine.Along (fun s op => refusedPublish s op = false) ops) := by
  have hledger := ledger_run ops
  constructor
  · intro h hover
    rw [← discarded_eq_nil_iff, List.eq_nil_iff_forall_not_mem]
    intro carrier hlost
    have hcount := List.count_pos_iff.mpr hlost
    have hconserved := hledger.conserved carrier
    rw [places_of_over (held_run ops) hover, hover.managerCall] at hconserved
    split_ifs at hconserved with hhanded
    · have honce := h.once hover carrier hhanded
      omega
    · omega
  · intro h
    refine ⟨?_, ?_, ?_, ?_⟩
    · intro carrier
      have hconserved := hledger.conserved carrier
      have hplaces : (pathMachine.run ops).closes carrier ≤
          (pathMachine.run ops).memory.places carrier := Nat.le_add_left _ _
      split_ifs at hconserved <;> omega
    · intro hover carrier hhanded
      have hconserved := hledger.conserved carrier
      grind [places_of_over, held_run, PathState.Over.managerCall, discarded_eq_nil_iff]
    · rintro before after - id path hpath
      exact ⟨(ledger_run before).counted.count hpath, path.sound.leases_le⟩
    · have halong : pathMachine.Along (fun s _ => Ledger s) ops :=
        pathMachine.alongFrom_of_invariant (fun _ op h => h.step op) ledger_empty ops
      exact pathMachine.along_mono (fun s op h => step_takesOnly h op) halong

/-- A manager that drains is handed one more carrier and is then dropped: the carrier is never
closed. -/
theorem refused_carrier_is_not_closed :
    ∃ ops, (pathMachine.run ops).Over ∧ (pathMachine.run ops).handed = 1 ∧
      (pathMachine.run ops).closes 0 = 0 ∧ ¬ CarrierDiscipline ops := by
  let ops : List PathOp :=
    [.call .normalDrain 0, .advance 0, .call (.publishReadyWithCarrier ⟨.direct, .quic⟩) 0,
      .call .drop 0, .advance 0]
  have hover : (pathMachine.run ops).Over := ⟨by decide, by decide, by decide, by decide⟩
  refine ⟨ops, hover, by decide, by decide, fun h => ?_⟩
  have honce := h.once hover 0 (by decide)
  revert honce
  decide

end SshMobile.Connect
