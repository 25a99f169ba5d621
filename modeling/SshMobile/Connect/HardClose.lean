import SshMobile.Connect.Ownership

/-!
# A hard close revokes every lease

When `hard_close` or `security_failure` has returned, the slots, the draining paths and the call
of the manager are empty, so every path it ever owned is closed. A closed path stays closed, and a
hard-closed manager publishes nothing, so this does not change whatever other tasks do, including
those that looked a path up before the hard close and acquire it afterwards.

## Main definitions

* `PathState.Shut`: the manager is hard-closed or gone
* `Revoked`: no path is active

## Main results

* `revoked_of_shut`: what holds when the call returns
* `Revoked.step`: no step revives a path or grants a lease
* `hard_close_revokes_leases`: what holds ever after
-/

namespace SshMobile.Connect

open Library

/-! ## After a hard close -/

/-- The manager is hard-closed, or gone. -/
def PathState.Shut (s : PathState) : Prop :=
  ∀ manager, s.manager = some manager → manager.hardClosed = true

/-- A lease or a path was handed out. -/
def PathOutput.grants : PathOutput → Bool
  | .acquired .. | .published _ => true
  | _ => false

/-- **Revoked**: no path is active, so no lease on one is and none yields a carrier. -/
structure Revoked (s : PathState) : Prop where
  shut : s.Shut
  inactive : ∀ id, s.memory.isActive id = false

variable {s : PathState}

/-- When a hard close has returned, the manager has no place left where it could keep a path that
is not closed. -/
theorem revoked_of_shut (h : Control s) (hshut : s.Shut) (hcall : s.managerCall = []) :
    Revoked s := by
  refine ⟨hshut, fun id => ?_⟩
  by_contra hactive
  rcases h.owned (by simpa using hactive) with ⟨manager, hmanager, howns⟩ | ⟨stage, hstage, _⟩
  · obtain ⟨hslots, _, hdraining⟩ := h.closing hmanager (hshut manager hmanager)
    rcases howns with ⟨kind, hpath⟩ | hmem
    · cases (hslots kind).symm.trans hpath
    · rcases hdraining with ⟨reason, drops, hdrain⟩ | hnil
      · rw [hcall] at hdrain
        cases hdrain
      · rw [hnil] at hmem
        cases hmem
  · rw [hcall] at hstage
    cases hstage

variable {output : PathOutput}

theorem grants_eq_false (hgrants : ∀ lease id, output ≠ .acquired lease id)
    (hpublishes : ∀ id, output ≠ .published id) : output.grants = false := by
  cases output with
  | acquired lease id => exact absurd rfl (hgrants lease id)
  | published id => exact absurd rfl (hpublishes id)
  | _ => rfl

theorem Borrowed.grants {memory memory' : PathMemory} {now : ℕ} {stage : BorrowStage}
    (h : Borrowed memory now stage memory' output)
    (hinactive : ∀ id, memory.isActive id = false) : output.grants = false := by
  cases h with
  | kept hgrants hpublishes => exact grants_eq_false hgrants hpublishes
  | acquired hok =>
    have hactive := PathMemory.isActive_of_tryAcquire hok
    rw [hinactive] at hactive
    cases hactive
  | closed => rfl

/-- What is closed stays closed. -/
theorem inactive_of_move {memory memory' : PathMemory}
    (hinactive : ∀ id, memory.isActive id = false) (hmove : memory.Move memory') (id : ℕ) :
    memory'.isActive id = false := by
  by_contra hactive
  have hbefore := hmove.isActive (Bool.not_eq_false _ |>.mp hactive)
  rw [hinactive id] at hbefore
  cases hbefore

/-- A closing stage creates no path, and once all paths are closed it grants nothing. -/
theorem executeManager_closing (hinactive : ∀ id, s.memory.isActive id = false)
    (manager : PeerPathManager) (now : ℕ) {stage : ManagerStage} (hstage : stage.isClosing = true) :
    s.memory.Move (executeManager s manager now stage).1.memory ∧
      (executeManager s manager now stage).2.2.grants = false := by
  cases stage with
  | borrow stage =>
    obtain ⟨memory, hstate, hborrowed⟩ := executeBorrow_borrowed s now stage
    refine ⟨?_, hborrowed.grants hinactive⟩
    simp only [executeManager, hstate]
    exact hborrowed.move
  | takeEntry id reason => exact ⟨.none, rfl⟩
  | retire id reason => exact ⟨s.memory.retire_move id reason, rfl⟩
  | reapDraining index =>
    simp only [executeManager]
    split
    · exact ⟨.none, rfl⟩
    · split_ifs <;> exact ⟨.none, rfl⟩
  | closeDraining reason drops =>
    simp only [executeManager]
    split
    · exact ⟨.none, rfl⟩
    · exact ⟨s.memory.closeWithReason_move _ reason, rfl⟩
  | recordActivity id => exact ⟨s.memory.recordActivity_move id now, rfl⟩
  | publishCheck | createPath | install | keepIfActive | directIdle | relayIdle => cases hstage

/-- No stage takes a hard close back. -/
theorem executeManager_shut {manager : PeerPathManager} (now : ℕ)
    (hmanager : s.manager = some manager) (hclosed : manager.hardClosed = true)
    (stage : ManagerStage) : (executeManager s manager now stage).1.Shut := by
  have hsame : s.Shut := by
    intro other hother
    cases hmanager.symm.trans hother
    exact hclosed
  cases stage with
  | borrow stage =>
    obtain ⟨memory, hstate, -⟩ := executeBorrow_borrowed s now stage
    simp only [executeManager, hstate]
    exact hsame
  | publishCheck profile carrier createdAt =>
    simp only [executeManager]
    split
    all_goals
      rintro _ ⟨⟩
      split_ifs <;> simp [hclosed]
  | createPath profile carrier createdAt =>
    simp only [executeManager]
    split_ifs
    · exact hsame
    · exact hsame
    · rintro _ ⟨⟩
      simp [hclosed]
  | install kind id =>
    rintro _ ⟨⟩
    simp [hclosed]
  | takeEntry id reason | retire id reason | directIdle observed | recordActivity id => exact hsame
  | keepIfActive id =>
    simp only [executeManager]
    split_ifs
    · rintro _ ⟨⟩
      exact hclosed
    · exact hsame
  | reapDraining index =>
    simp only [executeManager]
    split
    · exact hsame
    · split_ifs
      · exact hsame
      · rintro _ ⟨⟩
        exact hclosed
  | closeDraining reason drops =>
    simp only [executeManager]
    split
    · cases drops <;> rintro _ ⟨⟩
      exact hclosed
    · rintro _ ⟨⟩
      exact hclosed
  | relayIdle observed directExpired =>
    rintro _ ⟨⟩
    split_ifs <;> simp [hclosed]

theorem PathState.Shut.action (h : s.Shut) (op : PathOp) : (pathAction s op).1.Shut := by
  rcases pathAction_cases s op with ⟨call, now, rfl⟩ | ⟨now, rfl⟩ | ⟨-, hout⟩
  · simp only [pathAction]
    split
    · rename_i manager hmanager hcall
      have hstarted := start_started manager s.handed now call
      split
      all_goals
        rintro _ ⟨⟩
        exact hstarted.hardClosed (h manager hmanager)
    · exact h
  · simp only [pathAction]
    split
    · rename_i manager stage rest hmanager hcall
      exact executeManager_shut now hmanager (h manager hmanager) stage
    · exact h
  · generalize pathAction s op = result at hout ⊢
    cases hout <;> exact h

/-- The beginning of a call grants nothing. -/
theorem start_grants (manager : PeerPathManager) (carrier now : ℕ) (call : ManagerCall) :
    (manager.start carrier now call).2.2.grants = false := by
  cases call <;> simp only [PeerPathManager.start] <;> (repeat' split) <;> rfl

/-- **What is revoked stays revoked**, and no task gets a lease or a path. -/
theorem Revoked.action (h : Revoked s) (hcontrol : Control s) (op : PathOp) :
    (∀ id, (pathAction s op).1.memory.isActive id = false) ∧
      (pathAction s op).2.grants = false := by
  rcases pathAction_cases s op with ⟨call, now, rfl⟩ | ⟨now, rfl⟩ | ⟨-, hout⟩
  · rw [call_memory]
    refine ⟨h.inactive, ?_⟩
    simp only [pathAction]
    split
    · split <;> exact start_grants ..
    · rfl
  · simp only [pathAction]
    split
    · rename_i manager stage rest hmanager hcall
      have hstages := (hcontrol.closing hmanager (h.shut manager hmanager)).2.1
      obtain ⟨hmove, hgrants⟩ := executeManager_closing h.inactive manager now
        (hstages stage (by rw [hcall]; exact List.mem_cons_self))
      exact ⟨inactive_of_move h.inactive hmove, hgrants⟩
    · exact ⟨h.inactive, rfl⟩
  · generalize pathAction s op = result at hout ⊢
    cases hout with
    | kept hgrants hpublishes => exact ⟨h.inactive, grants_eq_false hgrants hpublishes⟩
    | borrowed _ _ hborrowed =>
      exact ⟨inactive_of_move h.inactive hborrowed.move, hborrowed.grants h.inactive⟩
    | released => exact ⟨inactive_of_move h.inactive (s.memory.release_move ..), rfl⟩

theorem Revoked.step (h : Revoked s) (hcontrol : Control s) (op : PathOp) :
    Revoked (pathStep s op).1 ∧ (pathStep s op).2.grants = false := by
  obtain ⟨hinactive, hgrants⟩ := h.action hcontrol op
  refine ⟨⟨h.shut.action op, fun id => ?_⟩, hgrants⟩
  by_contra hactive
  have hbefore := PathMemory.isActive_of_closeAll _ (Bool.not_eq_false _ |>.mp hactive)
  rw [hinactive id] at hbefore
  cases hbefore

/-- Nothing is granted on a run from a revoked state, and it ends in one. -/
theorem Revoked.run (h : Revoked s) (hledger : Ledger s) (hcontrol : Control s)
    (ops : List PathOp) :
    Revoked (pathMachine.runFrom s ops) ∧
      ∀ entry ∈ pathMachine.transcriptFrom s ops, entry.2.grants = false := by
  induction ops generalizing s with
  | nil => exact ⟨h, nofun⟩
  | cons op ops ih =>
    obtain ⟨hnext, hgrants⟩ := h.step hcontrol op
    obtain ⟨hend, hrest⟩ := ih hnext (hledger.step op) (hcontrol.step hledger.fresh op)
    exact ⟨hend, List.forall_mem_cons.mpr ⟨hgrants, hrest⟩⟩

theorem PathState.Shut.run (h : s.Shut) (ops : List PathOp) : (pathMachine.runFrom s ops).Shut := by
  induction ops generalizing s with
  | nil => exact h
  | cons op ops ih => exact ih (h.action op)

/-- Both calls shut the manager as soon as they begin. -/
theorem shut_of_hardClose {close : ManagerCall}
    (hclose : close = .hardClose ∨ close = .securityFailure) (now : ℕ)
    (hfree : s.managerCall = []) : (pathStep s (.call close now)).1.Shut := by
  rintro manager' hmanager'
  rcases hmanager : s.manager with _ | manager
  · rcases hclose with rfl | rfl <;>
      simp [pathStep, pathAction, PathState.dropUnheld, hmanager] at hmanager'
  · rcases hclose with rfl | rfl <;>
      (simp [pathStep, pathAction, PathState.dropUnheld, hmanager, hfree,
        PeerPathManager.start] at hmanager'; rw [← hmanager'])

/-- **A hard close revokes every lease.** Once `hard_close` or `security_failure` has returned, and
whatever happens afterwards, no path the manager ever created is active or has a carrier, and no
task is granted a lease or publishes a path. -/
theorem hard_close_revokes_leases {close : ManagerCall}
    (hclose : close = .hardClose ∨ close = .securityFailure) (before during after : List PathOp)
    (now : ℕ) (hbegins : (pathMachine.run before).managerCall = [])
    (hreturned : (pathMachine.run (before ++ .call close now :: during)).managerCall = []) :
    (∀ id path, (pathMachine.run (before ++ .call close now :: during ++ after)).memory.paths.get?
        id = some path → path.inner.isActive = false ∧ path.inner.carrier = none) ∧
      ∀ entry ∈ pathMachine.transcriptFrom
        (pathMachine.run (before ++ .call close now :: during)) after,
        entry.2.grants = false := by
  have hshut : (pathMachine.run (before ++ .call close now :: during)).Shut := by
    rw [Machine.run_append]
    exact (shut_of_hardClose hclose now hbegins).run during
  have hrevoked := revoked_of_shut (control_run _) hshut hreturned
  obtain ⟨hend, hgrants⟩ := hrevoked.run (ledger_run _) (control_run _) after
  refine ⟨fun id path hpath => ?_, hgrants⟩
  have hclosed : path.inner.isActive = false := by
    rw [Machine.run_append] at hpath
    simpa [PathMemory.isActive, hpath] using hend.inactive id
  exact ⟨hclosed, path.sound.carrier_eq_none hclosed⟩

/-- A direct path is published and leased, and the manager is hard-closed: the lease stays, but it
yields no carrier, and a second acquisition fails. -/
theorem hard_close_revokes_a_lease :
    ∃ before during after : List PathOp,
      (pathMachine.run before).memory.isActive 1 = true ∧
      (pathMachine.run (before ++ .call .hardClose 1 :: during)).memory.liveLeases 1 = 1 ∧
      (∀ id path, (pathMachine.run
          (before ++ .call .hardClose 1 :: during ++ after)).memory.paths.get? id = some path →
        path.inner.isActive = false ∧ path.inner.carrier = none) ∧
      ∀ entry ∈ pathMachine.transcriptFrom
        (pathMachine.run (before ++ .call .hardClose 1 :: during)) after,
        entry.2.grants = false :=
  ⟨[.call (.publishReadyWithCarrier ⟨.direct, .quic⟩) 0, .advance 0, .advance 0, .advance 0,
      .projectionAcquire 1, .resume 0 0],
    [.advance 1, .advance 1, .advance 1, .advance 1], [.projectionAcquire 1, .resume 1 2],
    by decide +kernel, by decide +kernel,
    hard_close_revokes_leases (.inl rfl) _ _ _ 1 (by decide +kernel) (by decide +kernel)⟩

end SshMobile.Connect
