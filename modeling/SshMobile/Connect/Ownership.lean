import SshMobile.Connect.Carriers

/-!
# What the manager owns

Paths leave the two slots of the manager by replacement, by idle retirement and by draining, and
leases on them stay live. The manager nevertheless keeps a reference to every path that is not
closed: in a slot, in the list of draining paths, or in the stages its call still has to run.

A path in a slot is never draining: it is retired only after it was taken out. Without this,
`publish_ready_with_carrier` could drop a leased path from its slot and lose sight of it.

## Main definitions

* `PathState.Owns`: where the manager keeps a path that is not closed
* `Control`: the invariant of the manager and its call
* `Started`: what the beginning of a call leaves to its stages

## Main results

* `start_started`: the beginning of every call
* `Control.execute`: every stage of the manager's call keeps the invariant
* `control_run`: the invariant holds after every run
* `active_paths_owned`: in every run, no path with a carrier is orphaned
-/

namespace SshMobile.Connect

open Library Connection

/-! ## Paths in slots -/

namespace PhysicalPath

variable {path : PhysicalPath}

theorem not_draining_of_closed (h : path.inner.isActive = false) :
    path.inner.state ≠ .draining := by
  grind [PhysicalPathInner.isActive]

theorem not_draining_releaseLease (now : ℕ) (h : path.inner.state ≠ .draining) :
    (path.releaseLease now).1.inner.state ≠ .draining := by
  grind [releaseLease, PhysicalPathInner.releaseLease]

theorem state_recordActivity (path : PhysicalPath) (now : ℕ) :
    (path.recordActivity now).inner.state = path.inner.state := by
  simp only [recordActivity, PhysicalPathInner.recordActivity]
  split_ifs <;> rfl

end PhysicalPath

variable {memory' : PathMemory} {id : ℕ}

namespace PathMemory

/-- **A path that may be in a slot**: it is of the slot's kind, and it is not draining. -/
def Slotted (memory : PathMemory) (kind : PathKind) (id : ℕ) : Prop :=
  ∃ path, memory.paths.get? id = some path ∧ path.handle.kind = kind ∧
    path.inner.state ≠ .draining

variable {kind : PathKind} {other : ℕ}

section

variable {memory : PathMemory} (h : memory.Slotted kind id)

include h

theorem Slotted.insert {path path' : PhysicalPath} (hpath : memory.paths.get? other = some path)
    (hpaths : memory'.paths = memory.paths.insert other path')
    (hhandle : path'.handle = path.handle)
    (hstate : id = other → path.inner.state ≠ .draining → path'.inner.state ≠ .draining) :
    memory'.Slotted kind id := by
  grind [Slotted]

theorem Slotted.tryAcquire {now lease : ℕ}
    (hok : memory.tryAcquire other now = .ok (memory', lease)) : memory'.Slotted kind id := by
  unfold PathMemory.tryAcquire at hok
  split at hok
  · cases hok
  · split at hok
    · cases hok
    · rename_i after hafter
      cases hok
      obtain ⟨_, hchange, hstate, _⟩ := PhysicalPath.tryAcquire_ok hafter
      grind [PhysicalPath.Change.handle, Slotted]

theorem Slotted.closeWithReason (other : ℕ) (reason : PathCloseReason) :
    (memory.closeWithReason other reason).Slotted kind id := by
  unfold PathMemory.closeWithReason
  split
  · exact h
  · rename_i path hpath
    refine h.insert hpath rfl rfl fun _ _ => ?_
    exact PhysicalPath.not_draining_of_closed (path.closeWithReason_isActive reason)

theorem Slotted.retireNormal (hne : id ≠ other) : (memory.retireNormal other).Slotted kind id := by
  unfold PathMemory.retireNormal
  split
  · exact h
  · rename_i path hpath
    exact h.insert hpath rfl rfl fun heq => absurd heq hne

theorem Slotted.retire (reason : PathCloseReason) (hne : id ≠ other) :
    (memory.retire other reason).Slotted kind id := by
  cases reason with
  | normalRetire => exact h.retireNormal hne
  | hardClose => exact h.closeWithReason other .hardClose
  | securityFailure => exact h.closeWithReason other .securityFailure

theorem Slotted.recordActivity (other now : ℕ) :
    (memory.recordActivity other now).Slotted kind id := by
  unfold PathMemory.recordActivity
  split
  · exact h
  · rename_i path hpath
    refine h.insert hpath rfl rfl fun _ hdraining => ?_
    rwa [path.state_recordActivity now]

theorem Slotted.release (lease now : ℕ) : (memory.release lease now).Slotted kind id := by
  unfold PathMemory.release
  split
  · exact h
  · split
    · exact h
    · rename_i path hpath
      exact h.insert hpath rfl rfl fun _ => PhysicalPath.not_draining_releaseLease now

theorem Slotted.closeAll (ids : List ℕ) : (memory.closeAll ids).Slotted kind id :=
  closeAll_induction (P := fun memory => memory.Slotted kind id)
    (fun _ other h => h.closeWithReason other .hardClose) ids memory h

theorem Slotted.add (handle : PathHandle) (carrier createdAt : ℕ)
    (hfresh : memory.paths.get? handle.id = none) :
    (memory.add handle carrier createdAt).Slotted kind id := by
  obtain ⟨path, hpath, hkind, hdraining⟩ := h
  refine ⟨path, ?_, hkind, hdraining⟩
  have hne : id ≠ handle.id := by
    rintro rfl
    cases hfresh.symm.trans hpath
  exact (Table.get?_insert_of_ne hne ..).trans hpath

end

theorem slotted_add (memory : PathMemory) (handle : PathHandle) (carrier createdAt : ℕ) :
    (memory.add handle carrier createdAt).Slotted handle.kind handle.id :=
  ⟨.new handle carrier createdAt, Table.get?_insert_self .., rfl, nofun⟩

theorem isActive_add {memory : PathMemory} {handle : PathHandle} {carrier createdAt : ℕ}
    (h : (memory.add handle carrier createdAt).isActive id = true) :
    id = handle.id ∨ memory.isActive id = true := by
  grind [isActive_eq_true_iff, add]

end PathMemory

variable {stage : BorrowStage} {output : PathOutput}

theorem Borrowed.slotted {memory : PathMemory} {now : ℕ} {kind : PathKind}
    (h : Borrowed memory now stage memory' output) (hslotted : memory.Slotted kind id) :
    memory'.Slotted kind id := by
  cases h with
  | kept => exact hslotted
  | acquired hok => exact hslotted.tryAcquire hok
  | closed => exact hslotted.closeWithReason _ _

/-! ## Slots -/

namespace PeerPathManager

variable (manager : PeerPathManager)

@[simp]
theorem path_take (kind other : PathKind) :
    (manager.take kind).path other = if other = kind then none else manager.path other := by
  cases kind <;> cases other <;> rfl

@[simp]
theorem path_install (kind other : PathKind) (id : ℕ) :
    (manager.install kind id).path other =
      if other = kind then some id else manager.path other := by
  cases kind <;> cases other <;> rfl

@[simp]
theorem drainingPaths_take (kind : PathKind) :
    (manager.take kind).drainingPaths = manager.drainingPaths := by
  cases kind <;> rfl

@[simp]
theorem hardClosed_take (kind : PathKind) :
    (manager.take kind).hardClosed = manager.hardClosed := by
  cases kind <;> rfl

@[simp]
theorem drainingPaths_install (kind : PathKind) (id : ℕ) :
    (manager.install kind id).drainingPaths = manager.drainingPaths := by
  cases kind <;> rfl

@[simp]
theorem hardClosed_install (kind : PathKind) (id : ℕ) :
    (manager.install kind id).hardClosed = manager.hardClosed := by
  cases kind <;> rfl

end PeerPathManager

/-! ## The manager and its call -/

namespace ManagerStage

/-- The paths a stage answers for: it closes them, or it gives them to the manager. -/
def owns : ManagerStage → List ℕ
  | .install _ id | .keepIfActive id => [id]
  | .retire id reason => if reason = .normalRetire then [] else [id]
  | _ => []

/-- The paths a stage retires. -/
def retires : ManagerStage → List ℕ
  | .takeEntry id _ | .retire id _ | .keepIfActive id => [id]
  | _ => []

def isPublishing : ManagerStage → Bool
  | .publishCheck .. | .createPath .. | .install .. => true
  | _ => false

/-- The stages a hard-closed manager may still run. -/
def isClosing : ManagerStage → Bool
  | .borrow _ | .reapDraining _ | .closeDraining .. | .recordActivity _ => true
  | .takeEntry _ reason | .retire _ reason => reason != .normalRetire
  | _ => false

end ManagerStage

/-- **Where the manager keeps a path**: in a slot, in the list of draining paths, or in what its
call still has to do. -/
def PathState.Owns (s : PathState) (id : ℕ) : Prop :=
  (∃ manager, s.manager = some manager ∧
    ((∃ kind, manager.path kind = some id) ∨ id ∈ manager.drainingPaths)) ∨
  ∃ stage ∈ s.managerCall, id ∈ stage.owns

/-- A path fit for a slot that the manager's call is not about to retire. -/
def PathState.Keeps (s : PathState) (kind : PathKind) (id : ℕ) : Prop :=
  s.memory.Slotted kind id ∧ ∀ stage ∈ s.managerCall, id ∉ stage.retires

/-- A path is fit for one slot only. -/
theorem PathState.Keeps.kind_unique {s : PathState} {kind kind' : PathKind}
    (h : s.Keeps kind id) (h' : s.Keeps kind' id) : kind = kind' := by
  obtain ⟨⟨path, hpath, rfl, _⟩, _⟩ := h
  obtain ⟨⟨path', hpath', rfl, _⟩, _⟩ := h'
  rw [hpath] at hpath'
  cases hpath'
  rfl

/-- **The invariant of the manager and its call.** -/
structure Control (s : PathState) : Prop where
  owned : ∀ {id}, s.memory.isActive id = true → s.Owns id
  slots : ∀ {manager}, s.manager = some manager → ∀ {kind id}, manager.path kind = some id →
    s.Keeps kind id
  installs : ∀ {kind id}, .install kind id ∈ s.managerCall →
    s.Keeps kind id ∧ ∀ {manager}, s.manager = some manager → manager.path kind = none
  publishes : ∀ stage ∈ s.managerCall.dropLast, stage.isPublishing = false
  drains : ∀ {manager reason drops}, s.manager = some manager →
    .closeDraining reason drops ∈ s.managerCall → manager.hardClosed = true
  closing : ∀ {manager}, s.manager = some manager → manager.hardClosed = true →
    (∀ kind, manager.path kind = none) ∧ (∀ stage ∈ s.managerCall, stage.isClosing = true) ∧
      ((∃ reason drops, .closeDraining reason drops ∈ s.managerCall) ∨ manager.drainingPaths = [])

/-- The state after a stage of the manager's call, which goes on with the stages it led to. -/
def PathState.executed (s : PathState) (manager : PeerPathManager) (now : ℕ) (stage : ManagerStage)
    (rest : List ManagerStage) : PathState :=
  { (executeManager s manager now stage).1 with
    managerCall := (executeManager s manager now stage).2.1 ++ rest }

theorem control_empty : Control .empty where
  owned h := nomatch h
  slots h _ _ hpath := by
    cases h
    rename_i kind id
    cases kind <;> cases hpath
  installs h := nomatch h
  publishes := nofun
  drains _ h := nomatch h
  closing h hclosed := by
    cases h
    cases hclosed

theorem mem_dropLast_append {stages rest : List ManagerStage} {stage : ManagerStage}
    (h : stage ∈ (stages ++ rest).dropLast) : stage ∈ stages ∨ stage ∈ rest.dropLast := by
  rcases rest.eq_nil_or_concat with rfl | ⟨init, last, rfl⟩
  · grind [List.dropLast_sublist]
  · simp_all

variable {s s' : PathState} {stage : ManagerStage} {rest next : List ManagerStage}
  {manager' manager : PeerPathManager}

namespace Control

/-- The stages of others leave the manager alone; only their effect on the memory matters. -/
theorem memory (h : Control s) {memory : PathMemory}
    (hactive : ∀ id, memory.isActive id = true → s.memory.isActive id = true)
    (hslotted : ∀ kind id, s.memory.Slotted kind id → memory.Slotted kind id)
    (registry : List ℕ) (calls : Table ℕ (List BorrowStage)) (nextCall : ℕ) :
    Control { s with memory, registry, calls, nextCall } where
  owned hid := h.owned (hactive _ hid)
  slots hmanager _ _ hpath := (h.slots hmanager hpath).imp (hslotted _ _) id
  installs hstage := (h.installs hstage).imp (fun hkeeps => hkeeps.imp (hslotted _ _) id) fun h => h
  publishes := h.publishes
  drains := h.drains
  closing := h.closing

/-- A stage that publishes is the last of its call. -/
theorem rest_eq_nil (h : Control s) (hcall : s.managerCall = stage :: rest)
    (hstage : stage.isPublishing = true) : rest = [] := by
  rcases rest with _ | ⟨second, rest⟩
  · rfl
  · have hfirst := h.publishes stage (by rw [hcall]; exact List.mem_cons_self)
    exact absurd hstage (by simp [hfirst])

theorem dropLast_rest (h : Control s) (hcall : s.managerCall = stage :: rest) :
    ∀ other ∈ rest.dropLast, other.isPublishing = false := by
  intro other hother
  rcases rest with _ | ⟨second, rest⟩
  · cases hother
  · exact h.publishes other (by simp_all)

section

variable (h : Control s) (hmanager : s.manager = some manager)

include h hmanager

/-- **What a step leaves to the manager**: the paths that leave their slots and are not closed are
handed to the stages to come, or drain. -/
theorem retake (rest : List ManagerStage) (hrest : ∀ stage ∈ rest, stage ∈ s.managerCall)
    (howned : ∀ stage ∈ s.managerCall, ∀ id ∈ stage.owns, s'.memory.isActive id = true → stage ∈
      rest ∨ id ∈ manager'.drainingPaths) (hmanager' : s'.manager = some manager')
    (hcall : s'.managerCall = next ++ rest)
    (hactive : ∀ id, s'.memory.isActive id = true → s.memory.isActive id = true ∨ ∃ stage ∈ next,
      id ∈ stage.owns) (hslotted : ∀ kind id, s.Keeps kind id → s'.memory.Slotted kind id)
    (hpaths : ∀ kind, manager'.path kind = manager.path kind ∨ manager'.path kind = none ∧ ∀ id,
      manager.path kind = some id → s'.memory.isActive id = true → ∃ stage ∈ next, id ∈ stage.owns)
    (hdraining : ∀ id ∈ manager.drainingPaths, s'.memory.isActive id = true → id ∈
      manager'.drainingPaths)
    (hretires : ∀ stage ∈ next, ∀ id ∈ stage.retires, (∃ old ∈ s.managerCall, id ∈ old.retires) ∨
      ∃ kind, manager.path kind = some id ∧ manager'.path kind = none)
    (hinstalls : ∀ kind id, .install kind id ∈ next → s'.Keeps kind id ∧ manager'.path kind = none)
    (hpublishes : ∀ stage ∈ (next ++ rest).dropLast, stage.isPublishing = false)
    (hdrains : ∀ reason drops, .closeDraining reason drops ∈ next ++ rest → manager'.hardClosed =
      true)
    (hclosing : manager'.hardClosed = true → (∀ kind, manager'.path kind = none) ∧ (∀ stage ∈ next
      ++ rest, stage.isClosing = true) ∧ ((∃ reason drops, .closeDraining reason drops ∈ next ++
      rest) ∨ manager'.drainingPaths = [])) : Control s' := by
  -- a path that is kept is not the one of a slot that was emptied
  have hkeeps : ∀ {kind id}, s.Keeps kind id →
      (manager.path kind = some id → manager'.path kind ≠ none) → s'.Keeps kind id := by
    intro kind id hkept hslot
    refine ⟨hslotted kind id hkept, fun stage hstage hid => ?_⟩
    rw [hcall] at hstage
    rcases List.mem_append.mp hstage with hstage | hstage
    · rcases hretires stage hstage id hid with ⟨old, hold, hid⟩ | ⟨kind', hpath', hnone⟩
      · exact hkept.2 old hold hid
      · obtain rfl := hkept.kind_unique (h.slots hmanager hpath')
        exact hslot hpath' hnone
    · exact hkept.2 stage (hrest stage hstage) hid
  refine ⟨?_, ?_, ?_, hcall ▸ hpublishes, ?_, ?_⟩
  · intro id hid
    have hnext : (∃ stage ∈ next, id ∈ stage.owns) → s'.Owns id := by
      rintro ⟨stage, hstage, howns⟩
      exact .inr ⟨stage, hcall ▸ List.mem_append_left _ hstage, howns⟩
    rcases hactive id hid with hold | hnew
    · rcases h.owned hold with ⟨other, hother, ⟨kind, hpath⟩ | hdrains⟩ | ⟨stage, hstage, howns⟩
      · cases hmanager.symm.trans hother
        rcases hpaths kind with hsame | ⟨_, htaken⟩
        · exact .inl ⟨manager', hmanager', .inl ⟨kind, hsame.trans hpath⟩⟩
        · exact hnext (htaken id hpath hid)
      · cases hmanager.symm.trans hother
        exact .inl ⟨manager', hmanager', .inr (hdraining id hdrains hid)⟩
      · rcases howned stage hstage id howns hid with hstage | hdrains
        · exact .inr ⟨stage, hcall ▸ List.mem_append_right _ hstage, howns⟩
        · exact .inl ⟨manager', hmanager', .inr hdrains⟩
    · exact hnext hnew
  · intro other hother kind id hpath
    cases hmanager'.symm.trans hother
    rcases hpaths kind with hsame | ⟨hnone, _⟩
    · refine hkeeps (h.slots hmanager (hsame.symm.trans hpath)) fun _ hnone => ?_
      cases hnone.symm.trans hpath
    · cases hnone.symm.trans hpath
  · intro kind id hinstall
    rw [hcall] at hinstall
    rcases List.mem_append.mp hinstall with hinstall | hinstall
    · obtain ⟨hkept, hnone⟩ := hinstalls kind id hinstall
      refine ⟨hkept, fun hother => ?_⟩
      cases hmanager'.symm.trans hother
      exact hnone
    · obtain ⟨hkept, hslot⟩ := h.installs (hrest _ hinstall)
      refine ⟨hkeeps hkept fun hpath => ?_, fun hother => ?_⟩
      · cases (hslot hmanager).symm.trans hpath
      · cases hmanager'.symm.trans hother
        rcases hpaths kind with hsame | ⟨hnone, _⟩
        exacts [hsame.trans (hslot hmanager), hnone]
  · intro other reason drops hother hdrain
    cases hmanager'.symm.trans hother
    exact hdrains reason drops (hcall ▸ hdrain)
  · intro other hother hclosed
    cases hmanager'.symm.trans hother
    rw [hcall]
    exact hclosing hclosed

/-- A stage that leaves the slots alone. -/
theorem advance (hcall : s.managerCall = stage :: rest) (hmanager' : s'.manager = some manager')
    (hcall' : s'.managerCall = next ++ rest)
    (hactive : ∀ id, s'.memory.isActive id = true → s.memory.isActive id = true)
    (hslotted : ∀ kind id, id ∉ stage.retires → s.memory.Slotted kind id → s'.memory.Slotted kind
      id) (hpaths : ∀ kind, manager'.path kind = manager.path kind)
    (hhard : manager'.hardClosed = manager.hardClosed)
    (howns : ∀ id, id ∈ stage.owns ∨ id ∈ manager.drainingPaths → s'.memory.isActive id = true →
      id ∈ manager'.drainingPaths)
    (hnext : ∀ new ∈ next, (∀ id ∈ new.retires, id ∈ stage.retires) ∧ new.isPublishing = false ∧
      (∀ reason drops, new = .closeDraining reason drops → manager.hardClosed = true) ∧
      (stage.isClosing = true → new.isClosing = true))
    (hdrains : manager.hardClosed = true → (∃ reason drops, stage = .closeDraining reason drops) ∨
      manager.drainingPaths = [] → (∃ reason drops, .closeDraining reason drops ∈ next) ∨
      manager'.drainingPaths = []) : Control s' := by
  have hrest : ∀ {other}, other ∈ rest → other ∈ s.managerCall := fun hother => by
    rw [hcall]
    exact List.mem_cons_of_mem _ hother
  have hhead : stage ∈ s.managerCall := by
    rw [hcall]
    exact List.mem_cons_self
  refine h.retake hmanager rest (fun _ => hrest) ?_ hmanager' hcall'
    (fun id hid => .inl (hactive id hid))
    (fun kind id hkept => hslotted kind id (hkept.2 stage hhead) hkept.1)
    (fun kind => .inl (hpaths kind)) (fun id hid => howns id (.inr hid))
    (fun new hnew id hid => .inl ⟨stage, hhead, (hnext new hnew).1 id hid⟩) ?_ ?_ ?_ ?_
  · intro other hother id hid hnow
    rw [hcall] at hother
    rcases List.mem_cons.mp hother with rfl | hother
    exacts [.inr (howns id (.inl hid) hnow), .inl hother]
  · intro kind id hinstall
    cases (hnext _ hinstall).2.1
  · intro other hother
    rcases mem_dropLast_append hother with hother | hother
    exacts [(hnext other hother).2.1, h.dropLast_rest hcall other hother]
  · intro reason drops hdrain
    rw [hhard]
    rcases List.mem_append.mp hdrain with hdrain | hdrain
    exacts [(hnext _ hdrain).2.2.1 reason drops rfl, h.drains hmanager (hrest hdrain)]
  · intro hclosed
    rw [hhard] at hclosed
    obtain ⟨hslots, hclosing, hdraining⟩ := h.closing hmanager hclosed
    refine ⟨fun kind => (hpaths kind).trans (hslots kind), fun other hother => ?_, ?_⟩
    · rcases List.mem_append.mp hother with hother | hother
      · exact (hnext other hother).2.2.2 (hclosing stage hhead)
      · exact hclosing other (hrest hother)
    · have hnow : (∃ reason drops, .closeDraining reason drops ∈ next) ∨
          manager'.drainingPaths = [] → (∃ reason drops, .closeDraining reason drops ∈
            next ++ rest) ∨ manager'.drainingPaths = [] := by
        rintro (⟨reason, drops, hmem⟩ | hnil)
        exacts [.inl ⟨reason, drops, List.mem_append_left _ hmem⟩, .inr hnil]
      rcases hdraining with ⟨reason, drops, hmem⟩ | hnil
      · rw [hcall] at hmem
        rcases List.mem_cons.mp hmem with heq | hmem
        · exact hnow (hdrains hclosed (.inl ⟨reason, drops, heq.symm⟩))
        · exact .inl ⟨reason, drops, List.mem_append_right _ hmem⟩
      · exact hnow (hdrains hclosed (.inr hnil))

end

end Control

/-! ## Retiring what was in a slot -/

variable {slot : Option ℕ}

open ManagerStage

theorem owns_retireSlot (hslot : slot = some id) (reason : PathCloseReason) :
    ∃ stage ∈ retireSlot slot reason, id ∈ stage.owns := by
  subst hslot
  cases reason with
  | normalRetire =>
    exact ⟨.keepIfActive id, by simp [retireSlot, retirePath], by simp [owns]⟩
  | hardClose =>
    exact ⟨.retire id .hardClose, by simp [retireSlot, retirePath], by simp [owns]⟩
  | securityFailure =>
    exact ⟨.retire id .securityFailure, by simp [retireSlot, retirePath],
      by simp [owns]⟩

/-- A stage of a slot's retirement is about the path of that slot, and publishes nothing. -/
theorem mem_retireSlot {reason : PathCloseReason} (h : stage ∈ retireSlot slot reason) :
    (∀ id ∈ stage.retires, slot = some id) ∧ stage.isPublishing = false ∧
      (∀ reason drops, stage ≠ .closeDraining reason drops) ∧
        (reason ≠ .normalRetire → stage.isClosing = true) := by
  rcases slot with _ | path
  · cases h
  · grind [retireSlot, retirePath, retires, isPublishing,
      isClosing]

/-! ## The beginning of a call -/

/-- What the beginning of a call does to the manager, and which stages it leads to. -/
structure Started (manager manager' : PeerPathManager) (next : List ManagerStage) : Prop where
  paths : ∀ kind, manager'.path kind = manager.path kind ∨ manager'.path kind = none ∧
    ∀ id, manager.path kind = some id → ∃ stage ∈ next, id ∈ stage.owns
  draining : manager'.drainingPaths = manager.drainingPaths
  retires : ∀ stage ∈ next, ∀ id ∈ stage.retires,
    ∃ kind, manager.path kind = some id ∧ manager'.path kind = none
  installs : ∀ kind id, .install kind id ∉ next
  publishes : ∀ stage ∈ next.dropLast, stage.isPublishing = false
  drains : ∀ reason drops, .closeDraining reason drops ∈ next → manager'.hardClosed = true
  hardClosed : manager.hardClosed = true → manager'.hardClosed = true
  closing : manager'.hardClosed = true →
    (∀ kind, manager'.path kind = none) ∧ (∀ stage ∈ next, stage.isClosing = true) ∧
        (∃ reason drops, .closeDraining reason drops ∈ next) ∨
      manager.hardClosed = true ∧
        ((∀ kind, manager.path kind = none) → ∀ stage ∈ next, stage.isClosing = true)

section

variable (hpaths : ∀ kind, manager'.path kind = manager.path kind)
  (hdraining : manager'.drainingPaths = manager.drainingPaths)
  (hhard : manager'.hardClosed = manager.hardClosed)

include hpaths hdraining hhard

theorem Started.same (hretires : ∀ stage ∈ next, stage.retires = [])
    (hinstalls : ∀ kind id, .install kind id ∉ next)
    (hpublishes : ∀ stage ∈ next.dropLast, stage.isPublishing = false)
    (hdrains : ∀ reason drops, .closeDraining reason drops ∉ next)
    (hclosing : manager.hardClosed = true → ∀ stage ∈ next, stage.isClosing = true) :
    Started manager manager' next where
  paths kind := .inl (hpaths kind)
  draining := hdraining
  retires stage hstage id hid := by
    simp_all
  installs := hinstalls
  publishes := hpublishes
  drains reason drops hdrain := absurd hdrain (hdrains reason drops)
  hardClosed h := hhard.trans h
  closing h := .inr ⟨hhard.symm.trans h, fun _ => hclosing (hhard.symm.trans h)⟩

theorem Started.nothing : Started manager manager' [] :=
  .same hpaths hdraining hhard nofun nofun nofun nofun nofun

end

/-- One slot is hard-closed. -/
theorem Started.closeSlot (kind : PathKind)
    (hpaths : ∀ other, manager'.path other = if other = kind then none else manager.path other)
    (hdraining : manager'.drainingPaths = manager.drainingPaths)
    (hhard : manager'.hardClosed = manager.hardClosed) :
    Started manager manager' (retireSlot (manager.path kind) .hardClose) where
  paths other := by
    rw [hpaths other]
    split_ifs with heq
    · exact .inr ⟨rfl, fun id hid => owns_retireSlot (heq ▸ hid) .hardClose⟩
    · exact .inl rfl
  draining := hdraining
  retires stage hstage id hid :=
    ⟨kind, (mem_retireSlot hstage).1 id hid, (hpaths kind).trans (if_pos rfl)⟩
  installs other id hinstall := by cases (mem_retireSlot hinstall).2.1
  publishes stage hstage := (mem_retireSlot ((List.dropLast_sublist _).mem hstage)).2.1
  drains reason drops hdrain := absurd rfl ((mem_retireSlot hdrain).2.2.1 reason drops)
  hardClosed h := hhard.trans h
  closing h := .inr ⟨hhard.symm.trans h, fun _ stage hstage => (mem_retireSlot hstage).2.2.2 nofun⟩

/-- Both slots are retired, and one more stage sees to the draining paths. -/
theorem Started.retireAll (reason : PathCloseReason)
    {last : ManagerStage} (hpaths : ∀ kind, manager'.path kind = none)
    (hdraining : manager'.drainingPaths = manager.drainingPaths)
    (hhard : manager.hardClosed = true → manager'.hardClosed = true)
    (hlast : last.retires = [] ∧ last.isPublishing = false ∧ last.isClosing = true)
    (hdrains : ∀ reason drops, last = .closeDraining reason drops → manager'.hardClosed = true)
    (hclosing : manager'.hardClosed = true →
      reason ≠ .normalRetire ∧ (∃ reason drops, last = .closeDraining reason drops) ∨
        manager.hardClosed = true ∧ reason = .normalRetire) :
    Started manager manager'
      (retireSlot manager.directPath reason ++ retireSlot manager.relayPath reason ++ [last]) := by
  have hcases : ∀ {stage}, stage ∈ retireSlot manager.directPath reason ++
      retireSlot manager.relayPath reason ++ [last] →
      (∃ kind, stage ∈ retireSlot (manager.path kind) reason) ∨ stage = last := by
    intro stage hstage
    rcases List.mem_append.mp hstage with hstage | hstage
    · rcases List.mem_append.mp hstage with hstage | hstage
      exacts [.inl ⟨.direct, hstage⟩, .inl ⟨.relay, hstage⟩]
    · exact .inr (List.mem_singleton.mp hstage)
  have hmem : ∀ {kind stage}, stage ∈ retireSlot (manager.path kind) reason →
      stage ∈ retireSlot manager.directPath reason ++ retireSlot manager.relayPath reason ++
        [last] := by
    intro kind stage hstage
    refine List.mem_append_left _ ?_
    cases kind with
    | direct => exact List.mem_append_left _ hstage
    | relay => exact List.mem_append_right _ hstage
  refine ⟨?_, hdraining, ?_, ?_, ?_, ?_, hhard, ?_⟩
  · intro kind
    refine .inr ⟨hpaths kind, fun id hid => ?_⟩
    obtain ⟨stage, hstage, howns⟩ := owns_retireSlot hid reason
    exact ⟨stage, hmem hstage, howns⟩
  · intro stage hstage id hid
    rcases hcases hstage with ⟨kind, hstage⟩ | rfl
    · exact ⟨kind, (mem_retireSlot hstage).1 id hid, hpaths kind⟩
    · rw [hlast.1] at hid
      cases hid
  · intro kind id hinstall
    rcases hcases hinstall with ⟨_, hinstall⟩ | rfl
    · cases (mem_retireSlot hinstall).2.1
    · cases hlast.2.1
  · intro stage hstage
    rcases hcases ((List.dropLast_sublist _).mem hstage) with ⟨_, hstage⟩ | rfl
    exacts [(mem_retireSlot hstage).2.1, hlast.2.1]
  · intro reason' drops hdrain
    rcases hcases hdrain with ⟨_, hdrain⟩ | heq
    exacts [absurd rfl ((mem_retireSlot hdrain).2.2.1 reason' drops), hdrains _ _ heq.symm]
  · intro h
    rcases hclosing h with ⟨hreason, reason', drops, rfl⟩ | ⟨hclosed, _⟩
    · refine .inl ⟨hpaths, fun stage hstage => ?_, reason', drops, by simp⟩
      rcases hcases hstage with ⟨_, hstage⟩ | rfl
      exacts [(mem_retireSlot hstage).2.2.2 hreason, hlast.2.2]
    · refine .inr ⟨hclosed, fun hnone stage hstage => ?_⟩
      rcases hcases hstage with ⟨kind, hstage⟩ | rfl
      · rw [hnone kind] at hstage
        cases hstage
      · exact hlast.2.2

open PeerPathManager

theorem start_started (manager : PeerPathManager) (carrier now : ℕ) (call : ManagerCall) :
    Started manager (manager.start carrier now call).1 (manager.start carrier now call).2.1 := by
  cases call with
  | publishReadyWithCarrier profile | retireEphemeral =>
    simp only [start]
    split_ifs with hrefused
    · exact .nothing (fun _ => rfl) rfl rfl
    · refine .same (fun _ => rfl) rfl rfl ?_ (by simp) (by simp) (by simp) ?_
      · simp [retires]
      · simp_all
  | ensureDirectProbe generation requiredCapabilities budget =>
    simp only [start]
    split_ifs
    · exact .nothing (fun _ => rfl) rfl rfl
    · split
      · split_ifs
        · exact .nothing (fun _ => rfl) rfl rfl
        · exact .nothing (fun kind => by cases kind <;> rfl) rfl rfl
      · exact .nothing (fun kind => by cases kind <;> rfl) rfl rfl
  | finishDirectProbe generation =>
    simp only [start]
    split_ifs
    · exact .nothing (fun kind => by cases kind <;> rfl) rfl rfl
    · exact .nothing (fun _ => rfl) rfl rfl
  | acquireWithAuthorization requiredCapabilities allowDirect allowRelay =>
    exact .same (fun _ => rfl) rfl rfl (by simp [start, retires])
      (by simp [start]) (by simp [start])
      (by simp [start]) (by simp [start, isClosing])
  | acquireRelay requiredCapabilities =>
    simp only [start]
    split
    · exact .nothing (fun _ => rfl) rfl rfl
    · exact .same (fun _ => rfl) rfl rfl (by simp [retires]) (by simp) (by simp)
        (by simp) (by simp [isClosing])
  | recordActivity =>
    have hstages : ∀ stage ∈ (manager.start carrier now .recordActivity).2.1,
        ∃ id, stage = .recordActivity id := by
      intro stage hstage
      obtain ⟨id, _, rfl⟩ := List.mem_map.mp hstage
      exact ⟨id, rfl⟩
    refine .same (fun _ => rfl) rfl rfl ?_ ?_ ?_ ?_ ?_
    · intro stage hstage
      obtain ⟨id, rfl⟩ := hstages stage hstage
      rfl
    · grind
    · intro stage hstage
      obtain ⟨id, rfl⟩ := hstages stage ((List.dropLast_sublist _).mem hstage)
      rfl
    · grind
    · intro _ stage hstage
      obtain ⟨id, rfl⟩ := hstages stage hstage
      rfl
  | normalDrain =>
    exact .retireAll .normalRetire (fun kind => by cases kind <;> rfl) rfl id ⟨rfl, rfl, rfl⟩
      (by simp) fun h => .inr ⟨h, rfl⟩
  | hardClose | securityFailure | drop =>
    exact .retireAll _ (fun kind => by cases kind <;> rfl) rfl (fun _ => rfl)
      ⟨rfl, rfl, rfl⟩ (fun _ _ _ => rfl) fun _ => .inl ⟨(by simp), _, _, rfl⟩
  | hardCloseDirect => exact .closeSlot .direct (fun kind => by cases kind <;> rfl) rfl rfl
  | hardCloseRelay => exact .closeSlot .relay (fun kind => by cases kind <;> rfl) rfl rfl
  | hardCloseDirectIfHandle expected =>
    simp only [start]
    split_ifs
    · exact .closeSlot .direct (fun kind => by cases kind <;> rfl) rfl rfl
    · exact .nothing (fun _ => rfl) rfl rfl
  | hardCloseRelayIfHandle expected =>
    simp only [start]
    split_ifs
    · exact .closeSlot .relay (fun kind => by cases kind <;> rfl) rfl rfl
    · exact .nothing (fun _ => rfl) rfl rfl

namespace Control

variable {profile : Route} {createdAt : ℕ} {reason : PathCloseReason}

section

variable (h : Control s) (hmanager : s.manager = some manager)

include h hmanager

theorem started (hcall : s.managerCall = []) (hstarted : Started manager manager' next)
    (hmemory : s'.memory = s.memory) (hmanager' : s'.manager = some manager')
    (hcall' : s'.managerCall = next) : Control s' := by
  refine h.retake hmanager [] nofun ?_ hmanager' (hcall'.trans (List.append_nil _).symm)
    (fun id hid => .inl (hmemory ▸ hid)) (fun kind id hkept => hmemory ▸ hkept.1) ?_
    (fun id hid _ => hstarted.draining ▸ hid)
    (fun stage hstage id hid => .inr (hstarted.retires stage hstage id hid)) ?_ ?_ ?_ ?_
  · simp_all
  · intro kind
    rcases hstarted.paths kind with hsame | ⟨hnone, htaken⟩
    exacts [.inl hsame, .inr ⟨hnone, fun id hid _ => htaken id hid⟩]
  · intro kind id hinstall
    exact absurd hinstall (hstarted.installs kind id)
  · rw [List.append_nil]
    exact hstarted.publishes
  · rw [List.append_nil]
    exact hstarted.drains
  · intro hclosed
    rw [List.append_nil]
    rcases hstarted.closing hclosed with ⟨hpaths, hstages, hdrains⟩ | ⟨hold, hstages⟩
    · exact ⟨hpaths, hstages, .inl hdrains⟩
    · obtain ⟨hpaths, _, hdrains⟩ := h.closing hmanager hold
      refine ⟨fun kind => ?_, hstages hpaths, .inr ?_⟩
      · rcases hstarted.paths kind with hsame | ⟨hnone, _⟩
        exacts [hsame.trans (hpaths kind), hnone]
      · grind [Started.draining]

/-- A stage that leaves the manager alone. -/
theorem plain (hcall : s.managerCall = stage :: rest) (hmanager' : s'.manager = some manager)
    (hcall' : s'.managerCall = next ++ rest)
    (hactive : ∀ id, s'.memory.isActive id = true → s.memory.isActive id = true)
    (hslotted : ∀ kind id, id ∉ stage.retires → s.memory.Slotted kind id →
      s'.memory.Slotted kind id) (howns : ∀ id ∈ stage.owns, s'.memory.isActive id = false)
    (hstage : ∀ reason drops, stage ≠ .closeDraining reason drops)
    (hnext : ∀ new ∈ next, (∀ id ∈ new.retires, id ∈ stage.retires) ∧ new.isPublishing = false ∧
      (∀ reason drops, new ≠ .closeDraining reason drops) ∧
        (stage.isClosing = true → new.isClosing = true)) : Control s' := by
  refine h.advance hmanager hcall hmanager' hcall' hactive hslotted (fun _ => rfl) rfl ?_ ?_ ?_
  · rintro id (hid | hid) hnow
    · rw [howns id hid] at hnow
      cases hnow
    · exact hid
  · intro new hnew
    obtain ⟨hretires, hpublishes, hdrains, hclosing⟩ := hnext new hnew
    simp_all
  · simp_all

/-- A hard-closed manager runs closing stages only. -/
theorem hardClosed_eq_false (hcall : s.managerCall = stage :: rest)
    (hstage : stage.isClosing = false) : manager.hardClosed = false := by
  by_contra hclosed
  have hstages := (h.closing hmanager (by simpa using hclosed)).2.1
  simp_all

/-- A borrowing stage of the manager's call. -/
theorem borrow {stage : BorrowStage} (hcall : s.managerCall = .borrow stage :: rest) (now : ℕ) :
    Control (s.executed manager now (.borrow stage) rest) := by
  obtain ⟨memory, hstate, hborrowed⟩ := executeBorrow_borrowed s now stage
  simp only [PathState.executed, executeManager]
  rw [hstate]
  refine h.plain hmanager hcall hmanager rfl (fun _ => hborrowed.move.isActive)
    (fun _ _ _ => hborrowed.slotted) (by simp [owns]) (by simp) ?_
  intro new hnew
  obtain ⟨other, _, rfl⟩ := List.mem_map.mp hnew
  exact ⟨(by simp [retires]), rfl, (by simp), fun _ => rfl⟩

/-- A publication up to its `create_path`, or up to its failure: the slots only lose paths that
are closed. -/
theorem checked (hcall : s.managerCall = stage :: rest)
    (hstage : stage.isPublishing = true ∧ stage.owns = [] ∧
      stage.isClosing = false) (hmanager' : s'.manager = some manager')
    (hcall' : s'.managerCall = next ++ rest) (hmemory : s'.memory.paths = s.memory.paths)
    (hpaths : ∀ kind, manager'.path kind = manager.path kind ∨ manager'.path kind = none ∧
      ∀ id, manager.path kind = some id → s.memory.isActive id = false)
    (hdraining : manager'.drainingPaths = manager.drainingPaths)
    (hhard : manager'.hardClosed = manager.hardClosed)
    (hnext : next = [] ∨ ∃ profile carrier createdAt,
      next = [.createPath profile carrier createdAt]) : Control s' := by
  obtain rfl := h.rest_eq_nil hcall hstage.1
  have hopen := h.hardClosed_eq_false hmanager hcall hstage.2.2
  have hactive : ∀ id, s'.memory.isActive id = s.memory.isActive id := fun id => by
    simp only [PathMemory.isActive, hmemory]
  refine h.retake hmanager [] (by simp) ?_ hmanager' hcall' (fun id hid => .inl (hactive id ▸ hid))
    ?_ ?_ (fun id hid _ => hdraining ▸ hid) ?_ ?_ ?_ ?_ ?_
  · simp_all
  · grind [PathMemory.Slotted, PathState.Keeps]
  · intro kind
    refine (hpaths kind).imp id (And.imp id fun hclosed id hid hnow => ?_)
    simp_all
  · grind [retires]
  · grind
  · grind
  · grind
  · simp_all

theorem publishCheck {carrier : ℕ}
    (hcall : s.managerCall = .publishCheck profile carrier createdAt :: rest) (now : ℕ) :
    Control (s.executed manager now (.publishCheck profile carrier createdAt) rest) := by
  let manager' :=
    if profileCapabilityMask profile ≠ 0 ∧
        (manager.path (.fromProfile profile)).any (!s.memory.isReady ·) then
      manager.take (.fromProfile profile)
    else manager
  -- A path in a slot that is not ready is closed, since it is not draining.
  have hpaths : ∀ kind, manager'.path kind = manager.path kind ∨ manager'.path kind = none ∧
      ∀ id, manager.path kind = some id → s.memory.isActive id = false := by
    intro kind
    simp only [manager']
    split_ifs with hdead
    · by_cases hkind : kind = .fromProfile profile
      · subst hkind
        refine .inr ⟨by simp, fun id hid => ?_⟩
        obtain ⟨⟨path, hpath, _, hdraining⟩, _⟩ := h.slots hmanager hid
        grind [PathMemory.isReady, PathMemory.isActive, PhysicalPathInner.isReady,
          PhysicalPathInner.isActive]
      · exact .inl (by simp [hkind])
    · exact .inl rfl
  have hdraining : manager'.drainingPaths = manager.drainingPaths := by
    simp only [manager']
    split_ifs <;> simp
  have hhard : manager'.hardClosed = manager.hardClosed := by
    simp only [manager']
    split_ifs <;> simp
  simp only [PathState.executed, executeManager]
  split
  · exact h.checked hmanager hcall ⟨rfl, rfl, rfl⟩ rfl rfl rfl hpaths hdraining
      hhard (.inl rfl)
  · exact h.checked hmanager hcall ⟨rfl, rfl, rfl⟩ rfl rfl rfl hpaths hdraining
      hhard (.inr ⟨profile, carrier, createdAt, rfl⟩)

end

section

variable (h : Control s)

include h

theorem createPath (hfresh : s.Fresh)
    (hmanager : s.manager = some manager) {carrier : ℕ}
    (hcall : s.managerCall = .createPath profile carrier createdAt :: rest) (now : ℕ) :
    Control (s.executed manager now (.createPath profile carrier createdAt) rest) := by
  simp only [PathState.executed, executeManager]
  split_ifs
  · exact h.checked hmanager hcall ⟨rfl, rfl, rfl⟩ hmanager rfl rfl (fun _ => .inl rfl) rfl rfl
      (.inl rfl)
  · exact h.checked hmanager hcall ⟨rfl, rfl, rfl⟩ hmanager rfl rfl (fun _ => .inl rfl) rfl rfl
      (.inl rfl)
  -- The path is created; what was in its slot is retired, and then it is installed.
  obtain rfl := h.rest_eq_nil hcall rfl
  have hopen := h.hardClosed_eq_false hmanager hcall rfl
  have hnew := hfresh.get?_nextId
  refine h.retake hmanager [] (by simp) ?_ rfl rfl ?_ ?_ ?_ (by simp +contextual) ?_ ?_ ?_ ?_ ?_
  · intro other hother id hid _
    rw [hcall, List.mem_singleton] at hother
    subst hother
    cases hid
  · intro id hid
    rcases PathMemory.isActive_add hid with rfl | hold
    · exact .inr ⟨.install (.fromProfile profile) s.nextId, by simp, by simp [ManagerStage.owns]⟩
    · exact .inl hold
  · exact fun kind id hkept => hkept.1.add _ carrier createdAt hnew
  · intro kind
    rw [PeerPathManager.path_take]
    split_ifs with hkind
    · refine .inr ⟨rfl, fun id hid _ => ?_⟩
      obtain ⟨stage, hstage, howns⟩ := owns_retireSlot (hkind ▸ hid) .normalRetire
      grind
    · exact .inl rfl
  · intro stage hstage id hid
    rcases List.mem_append.mp hstage with hstage | hstage
    · exact .inr ⟨_, (mem_retireSlot hstage).1 id hid, by simp⟩
    · rw [List.mem_singleton] at hstage
      subst hstage
      cases hid
  · intro kind id hinstall
    rcases List.mem_append.mp hinstall with hinstall | hinstall
    · cases (mem_retireSlot hinstall).2.1
    · rw [List.mem_singleton] at hinstall
      cases hinstall
      refine ⟨⟨PathMemory.slotted_add s.memory ⟨s.nextId, profile, _⟩ carrier createdAt, ?_⟩,
        by simp⟩
      intro stage hstage hid
      simp only [List.append_nil] at hstage
      rcases List.mem_append.mp hstage with hstage | hstage
      · obtain ⟨⟨path, hpath, _⟩, _⟩ := h.slots hmanager ((mem_retireSlot hstage).1 _ hid)
        cases hnew.symm.trans hpath
      · rw [List.mem_singleton] at hstage
        subst hstage
        cases hid
  · grind [mem_retireSlot]
  · intro reason drops hdrain
    rw [List.append_nil] at hdrain
    rcases List.mem_append.mp hdrain with hdrain | hdrain
    · exact absurd rfl ((mem_retireSlot hdrain).2.2.1 reason drops)
    · simp at hdrain
  · simp_all

section

variable (hmanager : s.manager = some manager)

include hmanager

theorem install {kind : PathKind} (hcall : s.managerCall = .install kind id :: rest) (now : ℕ) :
    Control (s.executed manager now (.install kind id) rest) := by
  obtain rfl := h.rest_eq_nil hcall rfl
  have hopen := h.hardClosed_eq_false hmanager hcall rfl
  have hmem : .install kind id ∈ s.managerCall := by
    rw [hcall]
    exact List.mem_cons_self
  obtain ⟨⟨hslotted, _⟩, hvacant⟩ := h.installs hmem
  simp only [PathState.executed, executeManager]
  refine ⟨?_, ?_, (by simp), (by simp), (by simp), ?_⟩
  · intro other hid
    refine .inl ⟨_, rfl, ?_⟩
    rcases h.owned hid with ⟨_, hother, ⟨kind', hpath⟩ | hdraining⟩ | ⟨stage, hstage, howns⟩
    · cases hmanager.symm.trans hother
      have hne : kind' ≠ kind := by
        grind
      exact .inl ⟨kind', by simp [hne, hpath]⟩
    · simp_all
    · rw [hcall, List.mem_singleton] at hstage
      subst hstage
      rw [owns, List.mem_singleton] at howns
      exact .inl ⟨kind, by simp [howns]⟩
  · intro other hother kind' id' hpath
    cases hother
    rw [path_install] at hpath
    split_ifs at hpath with hkind
    · cases hpath
      exact ⟨hkind ▸ hslotted, (by simp)⟩
    · exact ⟨(h.slots hmanager hpath).1, (by simp)⟩
  · simp_all

theorem retirement (hcall : s.managerCall = .retire id reason :: rest) (now : ℕ) :
    Control (s.executed manager now (.retire id reason) rest) := by
  refine h.plain hmanager hcall hmanager rfl (fun _ => (s.memory.retire_move id reason).isActive)
    ?_ ?_ nofun nofun
  · intro kind other hother hslot
    exact hslot.retire reason fun heq => hother (by simp [retires, heq])
  · intro other hother
    cases reason with
    | normalRetire => cases hother
    | hardClose | securityFailure =>
      obtain rfl := List.mem_singleton.mp hother
      exact s.memory.isActive_closeWithReason_self other _

theorem keepIfActive (hcall : s.managerCall = .keepIfActive id :: rest) (now : ℕ) :
    Control (s.executed manager now (.keepIfActive id) rest) := by
  have hopen := h.hardClosed_eq_false hmanager hcall rfl
  simp only [PathState.executed, executeManager]
  split_ifs with hactive
  · refine h.advance hmanager hcall rfl rfl (fun _ hid => hid) (fun _ _ _ hslot => hslot)
      (fun kind => by cases kind <;> rfl) rfl ?_ (by simp) ?_
    · rintro other (hother | hother) _
      · exact List.mem_append_right _ hother
      · exact List.mem_append_left _ hother
    · simp_all
  · refine h.plain hmanager hcall hmanager rfl (fun _ hid => hid) (fun _ _ _ hslot => hslot)
      ?_ (by simp) (by simp)
    intro other hother
    obtain rfl := List.mem_singleton.mp hother
    simpa using hactive

/-- `reap_draining_paths` forgets closed paths only. -/
theorem reapDraining {index : ℕ} (hcall : s.managerCall = .reapDraining index :: rest) (now : ℕ) :
    Control (s.executed manager now (.reapDraining index) rest) := by
  simp only [PathState.executed, executeManager]
  split
  · exact h.plain hmanager hcall hmanager rfl (fun _ hid => hid) (fun _ _ _ hslot => hslot)
      (by simp [owns]) (by simp) (by simp)
  · split_ifs with hactive
    · refine h.plain hmanager hcall hmanager rfl (fun _ hid => hid) (fun _ _ _ hslot => hslot)
        (by simp [owns]) (by simp) ?_
      simp [retires, isPublishing, isClosing]
    · refine h.advance hmanager hcall rfl rfl (fun _ hid => hid) (fun _ _ _ hslot => hslot)
        (fun kind => by cases kind <;> rfl) rfl ?_ ?_ ?_
      · rintro other (hother | hother) hnow
        · cases hother
        · grind [List.getElem?_of_mem, List.mem_eraseIdx_iff_getElem?]
      · simp [retires, isPublishing, isClosing]
      · simp_all

theorem closeDraining {drops : Bool} (hcall : s.managerCall = .closeDraining reason drops :: rest)
    (now : ℕ) :
    Control (s.executed manager now (.closeDraining reason drops) rest) := by
  have hrest : ∀ {other}, other ∈ rest → other ∈ s.managerCall := fun hother => by
    simp_all
  have hclosed : manager.hardClosed = true :=
    h.drains hmanager (by rw [hcall]; exact List.mem_cons_self)
  simp only [PathState.executed, executeManager]
  split
  · rename_i hnil
    cases drops with
    | false =>
      refine h.advance hmanager hcall rfl rfl (fun _ hid => hid) (fun _ _ _ hslot => hslot)
        (fun _ => rfl) rfl ?_ (by simp) fun _ _ => .inr hnil
      rintro other (hother | hother) _
      exacts [(by cases hother), hother]
    | true =>
      -- The manager goes; its slots and its list are empty.
      refine ⟨?_, (by simp), ?_, ?_, (by simp), (by simp)⟩
      · intro id hid
        rcases h.owned hid with ⟨_, hother, ⟨kind, hpath⟩ | hdraining⟩ | ⟨stage, hstage, howns⟩
        · cases hmanager.symm.trans hother
          cases ((h.closing hmanager hclosed).1 kind).symm.trans hpath
        · simp_all
        · rw [hcall] at hstage
          rcases List.mem_cons.mp hstage with rfl | hstage
          · cases howns
          · exact .inr ⟨stage, hstage, howns⟩
      · intro kind id hinstall
        obtain ⟨⟨hslot, hretires⟩, _⟩ := h.installs (hrest hinstall)
        grind [PathState.Keeps]
      · exact h.dropLast_rest hcall
  · rename_i id others hpaths
    refine h.advance hmanager hcall rfl rfl
      (fun _ => (s.memory.closeWithReason_move id reason).isActive)
      (fun _ _ _ hslot => hslot.closeWithReason id reason) (fun kind => by cases kind <;> rfl) rfl
      ?_ ?_ fun _ _ => .inl ⟨reason, drops, List.mem_singleton_self _⟩
    · rintro other (hother | hother) hnow
      · cases hother
      · rw [hpaths] at hother
        rcases List.mem_cons.mp hother with rfl | hother
        · have hgone := s.memory.isActive_closeWithReason_self other reason
          exact absurd hnow (by simp [hgone])
        · exact hother
    · intro new hnew
      obtain rfl := List.mem_singleton.mp hnew
      exact ⟨(by simp [retires]), rfl, fun _ _ _ => hclosed, fun hnow => hnow⟩

theorem relayIdle {observed : ℕ} {directExpired : Bool}
    (hcall : s.managerCall = .relayIdle observed directExpired :: rest) (now : ℕ) :
    Control (s.executed manager now (.relayIdle observed directExpired) rest) := by
  have hopen := h.hardClosed_eq_false hmanager hcall rfl
  simp only [PathState.executed, executeManager]
  generalize manager.relayPath.any (s.memory.isEphemeralIdle · observed) = relayExpired
  have hcases : ∀ {stage}, stage ∈
      (if directExpired then retireSlot manager.directPath .normalRetire else []) ++
        (if relayExpired then retireSlot manager.relayPath .normalRetire else []) →
      ∃ kind, stage ∈ retireSlot (manager.path kind) .normalRetire ∧
        (if relayExpired then (if directExpired then manager.take .direct else manager).take .relay
          else if directExpired then manager.take .direct else manager).path kind = none := by
    intro stage hstage
    rcases List.mem_append.mp hstage with hstage | hstage
    · split_ifs at hstage with hexpired
      · exact ⟨.direct, hstage, by simp only [if_pos hexpired]; split_ifs <;> simp⟩
      · cases hstage
    · split_ifs at hstage with hexpired
      · exact ⟨.relay, hstage, by simp only [if_pos hexpired]; simp⟩
      · cases hstage
  refine h.retake hmanager rest ?_ ?_ rfl rfl (fun id hid => .inl hid) (fun _ _ hkept => hkept.1)
    ?_ ?_ ?_ ?_ ?_ ?_ ?_
  · simp_all
  · intro stage hstage id hid _
    rw [hcall] at hstage
    rcases List.mem_cons.mp hstage with rfl | hstage
    exacts [(by cases hid), .inl hstage]
  · intro kind
    cases kind with
    | direct =>
      cases directExpired with
      | true =>
        refine .inr ⟨by cases relayExpired <;> rfl, fun id hid _ => ?_⟩
        obtain ⟨stage, hstage, howns⟩ := owns_retireSlot hid .normalRetire
        exact ⟨stage, List.mem_append_left _ hstage, howns⟩
      | false => exact .inl (by cases relayExpired <;> rfl)
    | relay =>
      cases relayExpired with
      | true =>
        refine .inr ⟨rfl, fun id hid _ => ?_⟩
        obtain ⟨stage, hstage, howns⟩ := owns_retireSlot hid .normalRetire
        exact ⟨stage, List.mem_append_right _ hstage, howns⟩
      | false => exact .inl (by cases directExpired <;> rfl)
  · split_ifs <;> simp +contextual
  · intro stage hstage id hid
    obtain ⟨kind, hmem, hnone⟩ := hcases hstage
    exact .inr ⟨kind, (mem_retireSlot hmem).1 id hid, hnone⟩
  · intro kind id hinstall
    obtain ⟨_, hmem, _⟩ := hcases hinstall
    cases (mem_retireSlot hmem).2.1
  · intro stage hstage
    rcases mem_dropLast_append hstage with hstage | hstage
    · obtain ⟨_, hmem, _⟩ := hcases hstage
      exact (mem_retireSlot hmem).2.1
    · exact h.dropLast_rest hcall stage hstage
  · intro reason drops hdrain
    rcases List.mem_append.mp hdrain with hdrain | hdrain
    · obtain ⟨_, hmem, _⟩ := hcases hdrain
      exact absurd rfl ((mem_retireSlot hmem).2.2.1 reason drops)
    · have := h.drains hmanager (by rw [hcall]; exact List.mem_cons_of_mem _ hdrain)
      rw [hopen] at this
      cases this
  · intro hclosed
    have hsame :
        (if relayExpired then (if directExpired then manager.take .direct else manager).take .relay
          else if directExpired then manager.take .direct else manager).hardClosed =
            manager.hardClosed := by
      split_ifs <;> simp
    simp_all

end

/-- Every stage of the manager's call keeps the invariant. -/
theorem execute (hfresh : s.Fresh) (hmanager : s.manager = some manager)
    (hcall : s.managerCall = stage :: rest) (now : ℕ) :
    Control (s.executed manager now stage rest) := by
  cases stage with
  | borrow stage => exact h.borrow hmanager hcall now
  | publishCheck profile carrier createdAt => exact h.publishCheck hmanager hcall now
  | createPath profile carrier createdAt => exact h.createPath hfresh hmanager hcall now
  | install kind id => exact h.install hmanager hcall now
  | takeEntry id reason =>
    refine h.plain hmanager hcall hmanager rfl (fun _ hid => hid) (fun _ _ _ hslot => hslot)
      (by simp [owns]) (by simp) ?_
    intro new hnew
    simp only [executeManager] at hnew
    split_ifs at hnew
    · obtain rfl := List.mem_singleton.mp hnew
      exact ⟨fun _ hid => hid, rfl, (by simp), fun hclosing => hclosing⟩
    · cases hnew
  | retire id reason => exact h.retirement hmanager hcall now
  | keepIfActive id => exact h.keepIfActive hmanager hcall now
  | reapDraining index => exact h.reapDraining hmanager hcall now
  | closeDraining reason drops => exact h.closeDraining hmanager hcall now
  | directIdle observed =>
    refine h.plain hmanager hcall hmanager rfl (fun _ hid => hid) (fun _ _ _ hslot => hslot)
      (by simp [owns]) (by simp) ?_
    intro new hnew
    obtain rfl := List.mem_singleton.mp hnew
    exact ⟨(by simp [retires]), rfl, (by simp), (by simp [isClosing])⟩
  | relayIdle observed directExpired => exact h.relayIdle hmanager hcall now
  | recordActivity id =>
    exact h.plain hmanager hcall hmanager rfl
      (fun _ => (s.memory.recordActivity_move id now).isActive)
      (fun _ _ _ hslot => hslot.recordActivity id now) (by simp [owns]) (by simp)
      (by simp [executeManager])

theorem call (call : ManagerCall) (now : ℕ) : Control (pathAction s (.call call now)).1 := by
  simp only [pathAction]
  split
  · rename_i manager hmanager hcall
    have hstarted := start_started manager s.handed now call
    split
    · exact h.started hmanager hcall hstarted rfl rfl rfl
    · exact h.started hmanager hcall hstarted rfl rfl rfl
  · exact h

theorem action (hfresh : s.Fresh) (op : PathOp) : Control (pathAction s op).1 := by
  rcases pathAction_cases s op with ⟨call, now, rfl⟩ | ⟨now, rfl⟩ | ⟨-, hout⟩
  · exact h.call call now
  · simp only [pathAction]
    split
    · rename_i hmanager hcall
      exact h.execute hfresh hmanager hcall now
    · exact h
  · generalize pathAction s op = result at hout ⊢
    cases hout with
    | kept => exact h.memory (fun _ hid => hid) (fun _ _ hslot => hslot) ..
    | borrowed _ _ hborrowed =>
      exact h.memory (fun _ => hborrowed.move.isActive) (fun _ _ => hborrowed.slotted) ..
    | released =>
      exact h.memory (fun _ => (s.memory.release_move ..).isActive)
        (fun _ _ hslot => hslot.release ..) ..

theorem step (hfresh : s.Fresh) (op : PathOp) : Control (pathStep s op).1 := by
  refine (h.action hfresh op).memory (fun _ => ?_) (fun _ _ hslot => hslot.closeAll _) ..
  exact PathMemory.isActive_of_closeAll _

end

end Control

theorem control_run (ops : List PathOp) : Control (pathMachine.run ops) := by
  have hboth : Ledger (pathMachine.run ops) ∧ Control (pathMachine.run ops) :=
    pathMachine.run_always (I := fun s => Ledger s ∧ Control s) ⟨ledger_empty, control_empty⟩
      (fun _ op h => ⟨h.1.step op, h.2.step h.1.fresh op⟩) ops
  exact hboth.2

/-- **No path is orphaned**: in every interleaving a path that still has a carrier is kept by the
manager, and a path in a slot is of the slot's kind, not draining, and in no other slot. -/
theorem active_paths_owned (ops : List PathOp) :
    let s := pathMachine.run ops
    (∀ id, s.memory.isActive id = true → s.Owns id) ∧
      ∀ manager, s.manager = some manager → ∀ kind id, manager.path kind = some id →
        s.memory.Slotted kind id ∧ ∀ other, manager.path other = some id → other = kind := by
  have hcontrol := control_run ops
  refine ⟨fun id => hcontrol.owned, fun manager hmanager kind id hpath => ?_⟩
  have hkeeps := hcontrol.slots hmanager hpath
  exact ⟨hkeeps.1, fun other hother => (hcontrol.slots hmanager hother).kind_unique hkeeps⟩

end SshMobile.Connect
