import SshMobile.Library.Machine
import SshMobile.Transfer.Manager

/-!
# The lifecycle of transfers

Receivers, senders, cancellations and reconnects work on the sessions of one manager in any order.
A session that has reached an end stays there, and what a transfer is never changes while its
session exists: whose it is, what is transferred, and from where. A new connection claims a paused
transfer in order to continue it; the claim ends the pause, so nobody else claims the transfer
before it was paused again.

## Main definitions

* `TransferOp`, `transferStep`, `transferMachine`: the runs of a manager
* `Claims`, `Pauses`: a step claims a transfer, a step pauses it
* `SessionChange`: what a step can do to a session

## Main results

* `transferStep_change`: every step is one of these
* `transfer_discipline`: ends are final, transfers stay what they are, and claims are exclusive
-/

namespace SshMobile.Transfer

open Library

/-! ## Runs -/

inductive TransferOp
  | registerIncoming (manifest : FileManifest) (peerId : String)
  | claimIncomingResume (manifest : FileManifest) (peerId : String)
  | registerOutgoing (manifest : FileManifest) (sourcePath peerId : String)
  | markTransferring (transferId : String)
  | markVerifying (transferId : String)
  | markCompleted (transferId : String)
  | updateProgress (transferId : String) (bytes : ℕ)
  | pauseForNetwork (transferId : String)
  | failTransfer (transferId : String) (reason : TransferFailureReason)
  | cancelTransfer (transferId : String)
  | takeResumableForPeer (order : String → ℕ) (peerId sessionId : String)
  | pausePeerTransfers (order : String → ℕ) (peerId : String)
  | removeTransfer (transferId : String)

inductive TransferOutput
  | done (result : Bool)
  | claimed (offset : Option ℕ)
  | resumed (transfers : List ResumableTransfer)
  | paused (transferIds : List String)
  | removed

def transferStep (manager : TransferManager) : TransferOp → TransferManager × TransferOutput
  | .registerIncoming manifest peerId => (registerIncoming manager manifest peerId).map id .done
  | .claimIncomingResume manifest peerId =>
    (claimIncomingResume manager manifest peerId).map id .claimed
  | .registerOutgoing manifest sourcePath peerId =>
    (registerOutgoing manager manifest sourcePath peerId).map id .done
  | .markTransferring transferId => (markTransferring manager transferId).map id .done
  | .markVerifying transferId => (markVerifying manager transferId).map id .done
  | .markCompleted transferId => (markCompleted manager transferId).map id .done
  | .updateProgress transferId bytes => (updateProgress manager transferId bytes).map id .done
  | .pauseForNetwork transferId => (pauseForNetwork manager transferId).map id .done
  | .failTransfer transferId reason => (failTransfer manager transferId reason).map id .done
  | .cancelTransfer transferId => (cancelTransfer manager transferId).map id .done
  | .takeResumableForPeer order peerId sessionId =>
    (takeResumableForPeer order manager peerId sessionId).map id .resumed
  | .pausePeerTransfers order peerId =>
    (pausePeerTransfers manager peerId, .paused (pausedIds order manager peerId))
  | .removeTransfer transferId => (removeTransfer manager transferId, .removed)

/-- The runs of a manager, with its callers in any order. -/
def transferMachine : Machine TransferManager TransferOp TransferOutput where
  start := ∅
  step := transferStep

/-- **The step claims the transfer**: its caller goes on with it. -/
def Claims (id : String) : TransferOp × TransferOutput → Prop
  | (.claimIncomingResume manifest _, .claimed (some _)) => manifest.transferId = id
  | (.takeResumableForPeer _ _ _, .resumed transfers) => ∃ t ∈ transfers, t.transferId = id
  | _ => False

/-- **The step pauses the transfer.** -/
def Pauses (id : String) (manager : TransferManager) (op : TransferOp) : Prop :=
  ∃ item item', manager.get? id = some item ∧ item.state.isRunning = true ∧
    (transferStep manager op).1.get? id = some item' ∧ item'.state = .paused

/-! ## One step -/

/-- The two sessions are of the same transfer: its identifier, peer, manifest and source, and so
its direction, since only an outgoing transfer has a source. -/
structure SameIdentity (item item' : TransferSession) : Prop where
  transferId : item'.transferId = item.transferId
  peerId : item'.peerId = item.peerId
  manifest : item'.manifest = item.manifest
  sourcePath : item'.sourcePath = item.sourcePath

theorem SameIdentity.refl (item : TransferSession) : SameIdentity item item :=
  ⟨rfl, rfl, rfl, rfl⟩

theorem SameIdentity.trans {item item' item'' : TransferSession} (h : SameIdentity item item')
    (h' : SameIdentity item' item'') : SameIdentity item item'' where
  transferId := h'.transferId.trans h.transferId
  peerId := h'.peerId.trans h.peerId
  manifest := h'.manifest.trans h.manifest
  sourcePath := h'.sourcePath.trans h.sourcePath

/-- **What a step can do to a session**: from the session before the step to the one after it. -/
inductive SessionChange (id : String) (op : TransferOp) (out : TransferOutput) :
    Option TransferSession → Option TransferSession → Prop
  | rest {entry : Option TransferSession} (hclaims : ¬ Claims id (op, out)) :
    SessionChange id op out entry entry
  | registered {item : TransferSession} (hstate : item.state ≠ .paused)
      (hclaims : ¬ Claims id (op, out)) : SessionChange id op out none (some item)
  | updated {item item' : TransferSession} (h : SameIdentity item item')
      (hactive : item.state.isTerminal = false)
      (hpaused : item'.state = .paused → item.state.isRunning = true)
      (hclaims : ¬ Claims id (op, out)) : SessionChange id op out (some item) (some item')
  | claimed {item : TransferSession} (hpaused : item.state = .paused) :
    SessionChange id op out (some item) (some { item with state := .resuming })
  | removed {item : TransferSession} (hop : op = .removeTransfer id)
      (hclaims : ¬ Claims id (op, out)) : SessionChange id op out (some item) none

variable {manager : TransferManager} {id : String}

section Change

variable {op : TransferOp} {out : TransferOutput}

/-- A transition that stays within a transfer is a change of its session. -/
theorem change_transition {allowed : TransferState → Bool}
    {update : TransferSession → TransferSession} {transferId : String}
    (hupdate : ∀ item, SameIdentity item (update item))
    (hactive : ∀ state, allowed state = true → state.isTerminal = false)
    (hpaused : ∀ item, allowed item.state = true → (update item).state = .paused →
      item.state.isRunning = true)
    (hclaims : ¬ Claims id (op, out)) :
    SessionChange id op out (manager.get? id)
      ((transition allowed update manager transferId).1.get? id) := by
  rw [get?_transition fun item => (hupdate item).transferId]
  split_ifs with hid
  · rcases manager.get? id with _ | item
    · exact .rest hclaims
    · rw [Option.map_some]
      split_ifs with hallowed
      · exact .updated (hupdate item) (hactive _ hallowed) (hpaused item hallowed) hclaims
      · exact .rest hclaims
  · exact .rest hclaims

variable (manifest : FileManifest) (peerId : String)

theorem change_registerIncoming (hclaims : ¬ Claims id (op, out)) :
    SessionChange id op out (manager.get? id)
      ((registerIncoming manager manifest peerId).1.get? id) := by
  rw [get?_registerIncoming]
  split_ifs with hid
  · rcases manager.get? id with _ | item
    · exact .registered (by rintro ⟨⟩) hclaims
    · dsimp only
      split_ifs with hpaused
      · have hstate : item.state = .paused := (of_decide_eq_true hpaused).1
        refine .updated ⟨rfl, rfl, rfl, rfl⟩ ?_ (by rintro ⟨⟩) hclaims
        rw [hstate]
        rfl
      · exact .rest hclaims
  · exact .rest hclaims

theorem get?_registerOutgoing {manifest : FileManifest} {sourcePath peerId : String} :
    (registerOutgoing manager manifest sourcePath peerId).1.get? id =
      if id = manifest.transferId then
        some ((manager.get? id).getD (newSession manifest peerId (some sourcePath) .offering))
      else manager.get? id := by
  rw [registerOutgoing]
  rcases hitem : manager.get? manifest.transferId with _ | item
  · have hkey : (newSession manifest peerId (some sourcePath) .offering).transferId =
        manifest.transferId := rfl
    rw [Keyed.get?_put, hkey]
    split_ifs with hid
    · rw [hid, hitem, Option.getD_none]
    · rfl
  · split_ifs with hid
    · rw [hid, hitem, Option.getD_some]
    · rfl

theorem change_registerOutgoing (sourcePath peerId : String) (hclaims : ¬ Claims id (op, out)) :
    SessionChange id op out (manager.get? id)
      ((registerOutgoing manager manifest sourcePath peerId).1.get? id) := by
  rw [get?_registerOutgoing]
  split_ifs with hid
  · rcases manager.get? id with _ | item
    · exact .registered (by rintro ⟨⟩) hclaims
    · exact .rest hclaims
  · exact .rest hclaims

theorem claimIncomingResume_snd :
    (claimIncomingResume manager manifest peerId).2 =
      ((manager.get? manifest.transferId).filter (·.isPausedFor manifest peerId)).map
        (·.confirmedOffset) := by
  grind [claimIncomingResume]

theorem change_claimIncomingResume :
    SessionChange id (.claimIncomingResume manifest peerId)
      (.claimed (claimIncomingResume manager manifest peerId).2) (manager.get? id)
      ((claimIncomingResume manager manifest peerId).1.get? id) := by
  rw [get?_claimIncomingResume, claimIncomingResume_snd]
  split_ifs with hid
  · subst hid
    rcases manager.get? manifest.transferId with _ | item
    · exact .rest id
    · rw [Option.map_some, Option.filter_some]
      split_ifs with hpaused
      · exact .claimed (of_decide_eq_true hpaused).1
      · exact .rest id
  · refine .rest fun hclaims => ?_
    generalize ((manager.get? manifest.transferId).filter _).map _ = offset at hclaims
    cases offset with
    | none => exact hclaims
    | some offset => exact hid hclaims.symm

/-- The transfers that a new connection claims are those that become resuming. -/
theorem mem_takeResumable {order : String → ℕ} {peerId sessionId : String} :
    (∃ t ∈ (takeResumableForPeer order manager peerId sessionId).2, t.transferId = id) ↔
      ∃ item, manager.get? id = some item ∧ item.state = .paused ∧ item.peerId = peerId ∧
        item.sourcePath.isSome = true := by
  constructor
  · grind [takeResumableForPeer, Keyed.mem_iter, Keyed.key_of_get?]
  · rintro ⟨item, hitem, hpaused, hpeer, hsource⟩
    obtain ⟨sourcePath, hsource⟩ := Option.isSome_iff_exists.mp hsource
    refine ⟨⟨item.transferId, item.peerId, sessionId, sourcePath, item.manifest,
      item.confirmedOffset⟩, ?_, (Keyed.key_of_get? hitem : item.transferId = id)⟩
    simp only [takeResumableForPeer, List.mem_filterMap, Prod.exists]
    refine ⟨id, item, Keyed.mem_iter.mpr hitem, ?_⟩
    simp_all

theorem change_takeResumableForPeer (order : String → ℕ) (peerId sessionId : String) :
    SessionChange id (.takeResumableForPeer order peerId sessionId)
      (.resumed (takeResumableForPeer order manager peerId sessionId).2) (manager.get? id)
      ((takeResumableForPeer order manager peerId sessionId).1.get? id) := by
  have hclaims : Claims id (.takeResumableForPeer order peerId sessionId,
      .resumed (takeResumableForPeer order manager peerId sessionId).2) ↔
        ∃ item, manager.get? id = some item ∧ item.state = .paused ∧ item.peerId = peerId ∧
          item.sourcePath.isSome = true :=
    mem_takeResumable
  rw [get?_takeResumableForPeer]
  rcases hitem : manager.get? id with _ | item
  · refine .rest fun h => ?_
    simp_all
  · rw [Option.map_some, TransferSession.takenFor]
    split_ifs with htaken
    · exact .claimed htaken.1
    · refine .rest fun h => htaken ?_
      simp_all

theorem change_pausePeerTransfers (hclaims : ¬ Claims id (op, out)) :
    SessionChange id op out (manager.get? id) ((pausePeerTransfers manager peerId).get? id) := by
  rw [get?_pausePeerTransfers]
  rcases manager.get? id with _ | item
  · exact .rest hclaims
  · rw [Option.map_some, TransferSession.pausedFor]
    split_ifs with hrunning
    · exact .updated ⟨rfl, rfl, rfl, rfl⟩ (isTerminal_of_isRunning hrunning.2)
        (fun _ => hrunning.2) hclaims
    · exact .rest hclaims

theorem change_removeTransfer (transferId : String) :
    SessionChange id (.removeTransfer transferId) .removed (manager.get? id)
      ((removeTransfer manager transferId).get? id) := by
  rw [removeTransfer, Keyed.get?_erase]
  split_ifs with hid
  · rcases manager.get? id with _ | item
    · exact .rest not_false
    · exact .removed (by rw [hid]) not_false
  · exact .rest not_false

/-- **One step** of a manager, seen from a transfer. -/
theorem transferStep_change (manager : TransferManager) (id : String) (op : TransferOp) :
    SessionChange id op (transferStep manager op).2 (manager.get? id)
      ((transferStep manager op).1.get? id) := by
  cases op with
  | registerIncoming manifest peerId =>
    exact change_registerIncoming manifest peerId not_false
  | claimIncomingResume manifest peerId => exact change_claimIncomingResume manifest peerId
  | registerOutgoing manifest sourcePath peerId =>
    exact change_registerOutgoing manifest sourcePath peerId not_false
  | markTransferring transferId =>
    refine change_transition (fun _ => ⟨rfl, rfl, rfl, rfl⟩) ?_ ?_ not_false
    · intro state hstart
      exact isTerminal_of_isRunning (isRunning_of_mayStart hstart)
    · rintro item - ⟨⟩
  | markVerifying transferId =>
    show SessionChange id _ _ _ ((markVerifying manager transferId).1.get? id)
    refine change_transition (fun _ => ⟨rfl, rfl, rfl, rfl⟩) ?_ ?_ not_false
    · intro state hstate
      rw [eq_of_beq hstate]
      rfl
    · rintro item - ⟨⟩
  | markCompleted transferId =>
    show SessionChange id _ _ _ ((markCompleted manager transferId).1.get? id)
    refine change_transition (fun _ => ⟨rfl, rfl, rfl, rfl⟩) ?_ ?_ not_false
    · intro state hstate
      rcases Bool.or_eq_true_iff.mp hstate with h | h <;> rw [eq_of_beq h] <;> rfl
    · rintro item - ⟨⟩
  | updateProgress transferId bytes | pauseForNetwork transferId =>
    exact change_transition (fun _ => ⟨rfl, rfl, rfl, rfl⟩) (fun _ => isTerminal_of_isRunning)
      (fun _ hrunning _ => hrunning) not_false
  | failTransfer transferId reason =>
    show SessionChange id _ _ _ ((failTransfer manager transferId reason).1.get? id)
    refine change_transition (fun _ => ⟨rfl, rfl, rfl, rfl⟩) ?_ ?_ not_false
    · simp
    · rintro item - ⟨⟩
  | cancelTransfer transferId =>
    show SessionChange id _ _ _ ((cancelTransfer manager transferId).1.get? id)
    refine change_transition (fun _ => ⟨rfl, rfl, rfl, rfl⟩) ?_ ?_ not_false
    · simp
    · rintro item - ⟨⟩
  | takeResumableForPeer order peerId sessionId =>
    exact change_takeResumableForPeer order peerId sessionId
  | pausePeerTransfers order peerId => exact change_pausePeerTransfers peerId not_false
  | removeTransfer transferId => exact change_removeTransfer transferId

end Change

/-! ## Runs -/

section Runs

/-- While its session exists a transfer stays the same, and an ended one keeps its end. -/
theorem step_identity {op : TransferOp} {item : TransferSession}
    (hitem : manager.get? id = some item) (hop : op ≠ .removeTransfer id) :
    ∃ item', (transferStep manager op).1.get? id = some item' ∧ SameIdentity item item' ∧
      (item.state.isTerminal = true → item'.state = item.state) := by
  have hchange := transferStep_change manager id op
  generalize (transferStep manager op).1.get? id = entry' at hchange ⊢
  rw [hitem] at hchange
  cases hchange with
  | rest => exact ⟨item, rfl, .refl item, fun _ => rfl⟩
  | @updated _ item' h hactive =>
    simp_all
  | claimed hpaused =>
    refine ⟨_, rfl, ⟨rfl, rfl, rfl, rfl⟩, fun hterminal => ?_⟩
    rw [hpaused] at hterminal
    cases hterminal
  | removed hremoved => exact absurd hremoved hop

theorem runFrom_identity {ops : List TransferOp} {item : TransferSession}
    (hitem : manager.get? id = some item) (hops : .removeTransfer id ∉ ops) :
    ∃ item', (transferMachine.runFrom manager ops).get? id = some item' ∧
      SameIdentity item item' ∧ (item.state.isTerminal = true → item'.state = item.state) := by
  refine transferMachine.runFrom_invariant
    (I := fun m => ∃ item', m.get? id = some item' ∧ SameIdentity item item' ∧
      (item.state.isTerminal = true → item'.state = item.state))
    ⟨item, hitem, .refl item, fun _ => rfl⟩ ?_
    (transferMachine.alongFrom_of_forall (P := (· ≠ .removeTransfer id)) manager ?_)
  · rintro m op ⟨item₁, hitem₁, hsame₁, hend₁⟩ hop
    obtain ⟨item₂, hitem₂, hsame₂, hend₂⟩ := step_identity hitem₁ hop
    refine ⟨item₂, hitem₂, hsame₁.trans hsame₂, fun hterminal => ?_⟩
    simp_all
  · rintro op hop rfl
    exact hops hop

/-- No session of the transfer is paused. -/
def NotPaused (id : String) (manager : TransferManager) : Prop :=
  ∀ item, manager.get? id = some item → item.state ≠ .paused

/-- Only a claim of a paused transfer succeeds, and it ends the pause. -/
theorem Claims.step {op : TransferOp} (h : Claims id (op, (transferStep manager op).2)) :
    (∃ item, manager.get? id = some item ∧ item.state = .paused) ∧
      NotPaused id (transferStep manager op).1 := by
  have hchange := transferStep_change manager id op
  rw [NotPaused]
  generalize manager.get? id = entry at hchange
  generalize (transferStep manager op).1.get? id = entry' at hchange
  cases hchange with
  | claimed hpaused =>
    simp_all
  | rest hclaims | registered _ hclaims | updated _ _ _ hclaims | removed _ hclaims =>
    exact absurd h hclaims

/-- A transfer that is not paused stays so, unless the step pauses it. -/
theorem NotPaused.step (h : NotPaused id manager) (op : TransferOp) :
    Pauses id manager op ∨ NotPaused id (transferStep manager op).1 := by
  have hchange := transferStep_change manager id op
  rw [Pauses, NotPaused]
  rw [NotPaused] at h
  generalize manager.get? id = entry at hchange h ⊢
  generalize (transferStep manager op).1.get? id = entry' at hchange ⊢
  cases hchange with
  | rest => exact .inr h
  | registered hstate =>
    simp_all
  | @updated item item' _ _ hpaused =>
    grind
  | claimed hpaused => exact absurd hpaused (h _ rfl)
  | removed =>
    right
    rintro item ⟨⟩

/-- Along a run that does not pause the transfer it stays unpaused. -/
theorem NotPaused.runFrom (h : NotPaused id manager) (ops : List TransferOp) :
    NotPaused id (transferMachine.runFrom manager ops) ∨
      ∃ before op after, ops = before ++ op :: after ∧
        Pauses id (transferMachine.runFrom manager before) op := by
  induction ops generalizing manager with
  | nil => exact .inl h
  | cons op ops ih =>
    rcases h.step op with hpauses | hstep
    · exact .inr ⟨[], op, ops, rfl, hpauses⟩
    · rcases ih hstep with hrun | ⟨before, op', after, rfl, hpauses⟩
      · exact .inl hrun
      · exact .inr ⟨op :: before, op', after, rfl, hpauses⟩

end Runs

/-! ## The discipline of transfers -/

/-- **The discipline of transfers** along a run of a manager. -/
structure TransferDiscipline (ops : List TransferOp) : Prop where
  /-- An ended transfer keeps its state until it is removed. -/
  final : ∀ before after id item, ops = before ++ after →
    (transferMachine.run before).get? id = some item → item.state.isTerminal = true →
    .removeTransfer id ∉ after →
    ∃ item', (transferMachine.run ops).get? id = some item' ∧ item'.state = item.state
  /-- A transfer stays what it is until it is removed. -/
  fixed : ∀ before after id item, ops = before ++ after →
    (transferMachine.run before).get? id = some item → .removeTransfer id ∉ after →
    ∃ item', (transferMachine.run ops).get? id = some item' ∧ SameIdentity item item'
  /-- Between two claims of a transfer it was paused. -/
  exclusive : ∀ before op between op' after id, ops = before ++ op :: between ++ op' :: after →
    Claims id (op, (transferStep (transferMachine.run before) op).2) →
    Claims id (op', (transferStep (transferMachine.run (before ++ op :: between)) op').2) →
    ∃ between₁ pause between₂, between = between₁ ++ pause :: between₂ ∧
      Pauses id (transferMachine.run (before ++ op :: between₁)) pause

/-- **Transfers are disciplined**: ends are final, transfers stay what they are, and a transfer is
claimed again only after it was paused again. -/
theorem transfer_discipline (ops : List TransferOp) : TransferDiscipline ops where
  final := by
    rintro before after id item rfl hitem hterminal hafter
    obtain ⟨item', hitem', -, hstate⟩ := runFrom_identity hitem hafter
    refine ⟨item', ?_, hstate hterminal⟩
    rwa [transferMachine.run_append]
  fixed := by
    rintro before after id item rfl hitem hafter
    obtain ⟨item', hitem', hsame, -⟩ := runFrom_identity hitem hafter
    grind [Machine.run_append]
  exclusive := by
    rintro before op between op' after id - hclaims hclaims'
    obtain ⟨item, hitem, hpaused⟩ := hclaims'.step.1
    have hstart := hclaims.step.2
    rcases hstart.runFrom between with hrun | ⟨between₁, pause, between₂, rfl, hpauses⟩
    · rw [transferMachine.run_append] at hitem
      exact absurd hpaused (hrun item hitem)
    · refine ⟨between₁, pause, between₂, rfl, ?_⟩
      rwa [transferMachine.run_append]

end SshMobile.Transfer
