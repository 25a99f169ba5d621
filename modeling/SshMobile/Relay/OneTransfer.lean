import SshMobile.Relay.Dispatch

/-!
# The transfer that an envelope is about

The handlers of file envelopes work on one transfer each: the one that the envelope names, or whose
session it names. What they do to the tables concerns that transfer only, and of the files they
write or remove at most one. For each handler, the transfer and the file action are given as
functions of the state and the envelope.

## Main definitions

* `SameTransfer`, `OnlyTransfer`: the tables as far as one transfer goes
* `Isolated`: a transfer's entries and its partial file are as they were
* `Owner`, `Foreign`: a transfer of another peer
* `admitAction`, `chunkWrite`: what an offer and a chunk do to the files

## Main results

* `isolated_iff_of_other`: a handler of another transfer disturbs only through the files
* `admitOffer_only`, `receiveRelayChunk_of_some`, `completeRelayIncoming_of_some`: each handler's
  transfer and its action
-/

namespace SshMobile.Relay

open Library Transfer Crypto

/-! ## One transfer among others -/

/-- **The entries of a transfer are as they were.** -/
structure SameTransfer (transferId : String) (a b : RelayTransfers) : Prop where
  activeIncoming : b.activeIncoming.get? transferId = a.activeIncoming.get? transferId
  pendingIncoming : b.pendingIncoming.get? transferId = a.pendingIncoming.get? transferId
  acceptances : b.acceptances.get? transferId = a.acceptances.get? transferId
  completions : b.completions.get? transferId = a.completions.get? transferId
  manager : b.manager.get? transferId = a.manager.get? transferId

/-- **Only one transfer is touched.** -/
def OnlyTransfer (touched : String) (a b : RelayTransfers) : Prop :=
  ∀ transferId, transferId ≠ touched → SameTransfer transferId a b

variable {transferId : String}

section Transfers

variable {a b c : RelayTransfers} {touched : String}

theorem SameTransfer.refl (transferId : String) (a : RelayTransfers) :
    SameTransfer transferId a a :=
  ⟨rfl, rfl, rfl, rfl, rfl⟩

theorem SameTransfer.trans (h : SameTransfer transferId a b) (h' : SameTransfer transferId b c) :
    SameTransfer transferId a c where
  activeIncoming := h'.activeIncoming.trans h.activeIncoming
  pendingIncoming := h'.pendingIncoming.trans h.pendingIncoming
  acceptances := h'.acceptances.trans h.acceptances
  completions := h'.completions.trans h.completions
  manager := h'.manager.trans h.manager

theorem OnlyTransfer.refl (touched : String) (a : RelayTransfers) : OnlyTransfer touched a a :=
  fun _ _ => .refl _ _

theorem OnlyTransfer.trans (h : OnlyTransfer touched a b) (h' : OnlyTransfer touched b c) :
    OnlyTransfer touched a c :=
  fun _ hne => (h _ hne).trans (h' _ hne)

theorem onlyTransfer_manager {manager : TransferManager}
    (h : ∀ id, id ≠ touched → manager.get? id = a.manager.get? id) :
    OnlyTransfer touched a { a with manager := manager } :=
  fun _ hne => ⟨rfl, rfl, rfl, rfl, h _ hne⟩

theorem onlyTransfer_putPending (pending : PendingRelayIncoming) :
    OnlyTransfer pending.transferId a
      { a with pendingIncoming := a.pendingIncoming.put pending } :=
  fun _ hne => ⟨rfl, Keyed.get?_put_of_ne hne _, rfl, rfl, rfl⟩

theorem onlyTransfer_erasePending (touched : String) :
    OnlyTransfer touched a { a with pendingIncoming := a.pendingIncoming.erase touched } :=
  fun _ hne => ⟨rfl, Keyed.get?_erase_of_ne hne _, rfl, rfl, rfl⟩

theorem onlyTransfer_putActive (active : ActiveRelayIncoming) :
    OnlyTransfer active.offer.transferId a
      { a with activeIncoming := a.activeIncoming.put active } :=
  fun _ hne => ⟨Keyed.get?_put_of_ne (v := active) hne a.activeIncoming, rfl, rfl, rfl, rfl⟩

theorem onlyTransfer_eraseActive (touched : String) :
    OnlyTransfer touched a { a with activeIncoming := a.activeIncoming.erase touched } :=
  fun _ hne => ⟨Keyed.get?_erase_of_ne hne _, rfl, rfl, rfl, rfl⟩

end Transfers

variable {σ L : Type} [DecidableEq L] {env : CallEnv L} {s : RelayRuntime σ L}

section Isolation

/-- The path of a transfer's partial file. -/
def partialPath (s : RelayRuntime σ L) (transferId : String) : Option String :=
  match s.transfers.activeIncoming.get? transferId with
  | some active => some active.temporaryPath
  | none => s.receiveDirectory.map fun directory => relayPartialPath directory transferId

/-- **A transfer is left alone**: its entries, and what is at the path of its partial file. -/
def Isolated (env : CallEnv L) (transferId : String) (s s' : RelayRuntime σ L) : Prop :=
  SameTransfer transferId s.transfers s'.transfers ∧
    ∀ path, partialPath s transferId = some path →
      s'.files.look (env.locate path) = s.files.look (env.locate path)

/-- The path of a transfer's partial file leads to a location. -/
def PartFileAt (env : CallEnv L) (s : RelayRuntime σ L) (transferId : String) (loc : L) : Prop :=
  ∃ path, partialPath s transferId = some path ∧ env.locate path = loc

/-- A call of the file system changes what is at the path of a transfer's partial file. -/
def TouchesPartFile (env : CallEnv L) (s : RelayRuntime σ L) (transferId : String)
    (action : Action L) : Prop :=
  ∃ loc, PartFileAt env s transferId loc ∧ action.Changes s.files loc

/-- The owner of a transfer: the sender of what is offered or received, and the receiver of what
waits for its answer. -/
def Owner (a : RelayTransfers) (transferId peerId : String) : Prop :=
  (∃ active, a.activeIncoming.get? transferId = some active ∧ active.offer.senderId = peerId) ∨
    (∃ pending, a.pendingIncoming.get? transferId = some pending ∧ pending.senderId = peerId) ∨
    ((a.acceptances.contains transferId = true ∨ a.completions.contains transferId = true) ∧
      ∃ item, a.manager.get? transferId = some item ∧ item.peerId = peerId)

/-- **A foreign transfer**: another peer owns it, and no record of it names `peerId`. -/
structure Foreign (a : RelayTransfers) (transferId peerId : String) : Prop where
  owned : ∃ owner, owner ≠ peerId ∧ Owner a transferId owner
  active_ne : ∀ active, a.activeIncoming.get? transferId = some active →
    active.offer.senderId ≠ peerId
  pending_ne : ∀ pending, a.pendingIncoming.get? transferId = some pending →
    pending.senderId ≠ peerId
  session_ne : ∀ item, a.manager.get? transferId = some item → item.peerId ≠ peerId

variable {s' : RelayRuntime σ L}

theorem isolated_of_same (htransfers : s'.transfers = s.transfers) (hfiles : s'.files = s.files) :
    Isolated env transferId s s' := by
  refine ⟨?_, fun path _ => ?_⟩
  · rw [htransfers]
    exact .refl _ _
  · rw [hfiles]

/-- The files change by one call. -/
theorem isolated_iff_of_action {action : Action L} (hfiles : s'.files = action.apply s.files) :
    Isolated env transferId s s' ↔
      SameTransfer transferId s.transfers s'.transfers ∧
        ¬ TouchesPartFile env s transferId action := by
  grind [Action.look_apply_eq_iff, Isolated, TouchesPartFile, PartFileAt]

/-- The entries do not differ if another transfer is the only one that was touched. -/
theorem isolated_iff_of_other {action : Action L} {touched : String}
    (hfiles : s'.files = action.apply s.files)
    (honly : OnlyTransfer touched s.transfers s'.transfers) (hne : transferId ≠ touched) :
    Isolated env transferId s s' ↔ ¬ TouchesPartFile env s transferId action := by
  grind [isolated_iff_of_action, OnlyTransfer]

end Isolation

/-! ## Offers -/

variable {codec : RelayCodec} {services : RelayServices σ}

section Offers

variable {pending : PendingRelayIncoming}

theorem onlyTransfer_backToPending (a : RelayTransfers) (pending : PendingRelayIncoming) :
    OnlyTransfer pending.transferId a (a.backToPending pending) :=
  fun _ hne =>
    ⟨rfl, Keyed.get?_put_of_ne hne _, rfl, rfl, get?_pauseForNetwork.trans (if_neg hne)⟩

/-- Starting a session touches its own transfer, and no file. -/
theorem startIncoming_only (directory : String) (opened : Opened) :
    OnlyTransfer pending.transferId s.transfers
        (startIncoming codec services s pending directory opened).1.transfers ∧
      (startIncoming codec services s pending directory opened).1.files = s.files := by
  rw [startIncoming]
  split
  · exact ⟨.refl _ _, rfl⟩
  have hstarted : ∀ id, id ≠ pending.transferId →
      (markTransferring (updateProgress s.transfers.manager pending.transferId opened.offset).1
        pending.transferId).1.get? id = s.transfers.manager.get? id := by
    grind [get?_markTransferring, get?_updateProgress]
  dsimp only
  generalize markTransferring (updateProgress s.transfers.manager pending.transferId
    opened.offset).1 pending.transferId = marked at hstarted ⊢
  obtain ⟨started, _ | _⟩ := marked
  · exact ⟨onlyTransfer_manager hstarted, rfl⟩
  have hmanager : OnlyTransfer pending.transferId s.transfers
      { s.transfers with manager := started } := onlyTransfer_manager hstarted
  -- without a path the file goes back to the pending ones, and without an answer too
  generalize services.acquirePathLeaseForRelayData s.services pending.senderId = lease
  obtain ⟨rest, _ | _ | _⟩ := lease
  · exact ⟨hmanager.trans (onlyTransfer_backToPending _ _), rfl⟩
  · exact ⟨hmanager, rfl⟩
  · dsimp only
    generalize services.sendDataEnvelope rest dataEnvFileAccept
      (codec.encodeAcceptance (acceptanceOf pending opened.offset)) = sent
    obtain ⟨rest, _ | _⟩ := sent
    · exact ⟨(hmanager.trans (onlyTransfer_eraseActive pending.transferId)).trans
        (onlyTransfer_backToPending _ _), rfl⟩
    · exact ⟨hmanager.trans (onlyTransfer_putActive (activeOf pending directory opened)), rfl⟩

/-- The call of the file system by which the file of a pending offer is opened. -/
def acceptAction (codec : RelayCodec) (env : CallEnv L) (s : RelayRuntime σ L)
    (pending : PendingRelayIncoming) : Action L :=
  match s.receiveDirectory with
  | none => .keep
  | some directory => (openIncoming codec env s.files pending directory).1

/-- Accepting an offer touches its own transfer, and opens its file. -/
theorem acceptPending_only
    (hpending : s.transfers.pendingIncoming.get? pending.transferId = some pending) :
    OnlyTransfer pending.transferId s.transfers
        (acceptPendingRelayIncoming codec services env s pending.transferId).1.transfers ∧
      (acceptPendingRelayIncoming codec services env s pending.transferId).1.files =
        (acceptAction codec env s pending).apply s.files := by
  rw [acceptPendingRelayIncoming, hpending, acceptAction]
  rcases s.receiveDirectory with _ | directory
  · exact ⟨onlyTransfer_erasePending _, rfl⟩
  · dsimp only
    generalize openIncoming codec env s.files pending directory = opening
    obtain ⟨action, _ | opened⟩ := opening
    · exact ⟨onlyTransfer_erasePending _, rfl⟩
    · refine ⟨OnlyTransfer.trans ?_ (startIncoming_only directory opened).1,
        (startIncoming_only directory opened).2⟩
      exact onlyTransfer_erasePending _

/-- An offer that was recorded is accepted without asking: its session was paused, or its file is in
its place. -/
def acceptsAtOnce (codec : RelayCodec) (env : CallEnv L) (s : RelayRuntime σ L)
    (pending : PendingRelayIncoming) (isNewOffer : Bool) : Bool :=
  match claimIncomingResume s.transfers.manager pending.manifest pending.senderId with
  | (claimed, resumeOffset) =>
    match completedPath codec env s pending.manifest with
    | .error _ => false
    | .ok completed =>
      (registerOffer claimed pending isNewOffer resumeOffset).2 &&
        (resumeOffset.isSome || completed)

/-- The call of the file system by which an offer that was recorded is admitted. -/
def admitAction (codec : RelayCodec) (env : CallEnv L) (s : RelayRuntime σ L)
    (pending : PendingRelayIncoming) (isNewOffer : Bool) : Action L :=
  match acceptsAtOnce codec env s pending isNewOffer with
  | true => acceptAction codec env s pending
  | false => .keep

/-- Where a completed file lies does not depend on the transfers. -/
theorem completedPath_transfers (transfers : RelayTransfers) (manifest : FileManifest) :
    completedPath codec env { s with transfers } manifest = completedPath codec env s manifest :=
  rfl

section Afresh

variable (codec : RelayCodec) (env : CallEnv L)

/-- Nothing is found at a path; one that cannot be looked at counts as free. -/
def DestinationFree (files : FileStore L) (path : String) : Prop :=
  env.faults.lookDestination = true ∨ files.entries.get? (env.locate path) = none

/-- **The partial file of an offer is made or emptied** when the offer is accepted: the file is not
in its place, and what there is of it is not resumed. -/
structure OpensEmpty (files : FileStore L) (pending : PendingRelayIncoming) (directory : String) :
    Prop where
  createDirectory : env.faults.createDirectory = false
  notCompleted : existingCompletedFile codec env files env.faults.lookCompletedAgain
    pending.manifest directory = .ok false
  free : DestinationFree env files (finalPath directory pending.manifest)
  partFile : ∃ content, lookPartFile env files pending.manifest directory = .ok content ∧
    existingPartialOffset pending.manifest content = 0 ∧
    ¬ (env.faults.readPartFile = true ∧ content.isSome = true)
  openPartFile : env.faults.openPartFile = false

/-- **An offer starts its file afresh**: it is accepted at once because its session was paused, and
its partial file is made or emptied. -/
structure StartsAfresh (s : RelayRuntime σ L) (pending : PendingRelayIncoming)
    (directory : String) : Prop extends OpensEmpty codec env s.files pending directory where
  paused : ∃ item, s.transfers.manager.get? pending.manifest.transferId = some item ∧
    item.isPausedFor pending.manifest pending.senderId = true
  directory : s.receiveDirectory = some directory
  lookCompleted : env.faults.lookCompleted = false

end Afresh

section

variable {files : FileStore L} {directory : String} {isNewOffer : Bool}

theorem destinationFree_iff {path : String} :
    DestinationFree env files path ↔
      ¬ (!env.faults.lookDestination && (files.entries.get? (env.locate path)).isSome) = true := by
  rw [DestinationFree]
  cases env.faults.lookDestination <;> simp

theorem openIncoming_of_opensEmpty (h : OpensEmpty codec env files pending directory) :
    (openIncoming codec env files pending directory).1 =
      .truncate (env.locate (relayPartialPath directory pending.manifest.transferId)) := by
  obtain ⟨hcreate, hcompleted, hfree, ⟨content, hlook, hoffset, hread⟩, hopen⟩ := h
  rw [openIncoming, hcreate, if_neg Bool.false_ne_true, hcompleted]
  dsimp only
  rw [if_neg (destinationFree_iff.mp hfree), hlook]
  grind [openPartialFile, validRelayOffset]

theorem openIncoming_of_not_opensEmpty (h : ¬ OpensEmpty codec env files pending directory) :
    (openIncoming codec env files pending directory).1 = .keep := by
  by_contra hkeep
  refine h ?_
  rw [openIncoming] at hkeep
  split at hkeep
  · simp_all
  split at hkeep
  · simp_all
  · simp_all
  rename_i hcreate _ hcompleted
  split at hkeep
  · simp_all
  rename_i hfree
  split at hkeep
  · simp_all
  rename_i content hlook
  dsimp only at hkeep
  split at hkeep
  · simp_all
  rw [openPartialFile] at hkeep
  refine ⟨Bool.eq_false_iff.mpr hcreate, hcompleted, destinationFree_iff.mpr hfree,
    ⟨content, hlook, ?_⟩, ?_⟩
  · grind
  · grind

/-- A file is opened by emptying it, or without any change. -/
theorem acceptAction_cases (codec : RelayCodec) (env : CallEnv L) (s : RelayRuntime σ L)
    (pending : PendingRelayIncoming) :
    acceptAction codec env s pending = .keep ∨
      ∃ directory, s.receiveDirectory = some directory ∧ acceptAction codec env s pending =
        .truncate (env.locate (relayPartialPath directory pending.manifest.transferId)) := by
  rw [acceptAction]
  rcases s.receiveDirectory with _ | directory
  · exact .inl rfl
  by_cases hempty : OpensEmpty codec env s.files pending directory
  · exact .inr ⟨directory, rfl, openIncoming_of_opensEmpty hempty⟩
  · exact .inl (openIncoming_of_not_opensEmpty hempty)

theorem admitAction_cases (codec : RelayCodec) (env : CallEnv L) :
    admitAction codec env s pending isNewOffer = .keep ∨
      admitAction codec env s pending isNewOffer = acceptAction codec env s pending := by
  grind [admitAction]

/-- A file that is not in its place when it is accepted was not there before. -/
theorem completedPath_of_opensEmpty (h : OpensEmpty codec env s.files pending directory)
    (hdirectory : s.receiveDirectory = some directory) :
    completedPath codec env s pending.manifest =
      if env.faults.lookCompleted then .error .library else .ok false := by
  have hcompleted := h.notCompleted
  rw [completedPath, hdirectory]
  rw [existingCompletedFile] at hcompleted
  grind [existingCompletedFile]

/-- **What admitting an offer does to the files**: nothing, unless it starts its file afresh. -/
theorem admitAction_changes_iff {loc : L} :
    (admitAction codec env s pending isNewOffer).Changes s.files loc ↔
      ∃ directory, StartsAfresh codec env s pending directory ∧
        (Action.truncate (env.locate (relayPartialPath directory
          pending.manifest.transferId))).Changes s.files loc := by
  rw [admitAction, acceptsAtOnce, acceptAction]
  constructor
  · intro hchanges
    rcases hdirectory : s.receiveDirectory with _ | directory
    · rw [hdirectory] at hchanges
      split at hchanges <;> exact absurd hchanges not_false
    refine ⟨directory, ?_⟩
    rw [hdirectory] at hchanges
    split at hchanges
    · rename_i haccepts
      dsimp only at hchanges
      by_cases hempty : OpensEmpty codec env s.files pending directory
      · rw [openIncoming_of_opensEmpty hempty] at hchanges
        refine ⟨⟨hempty, ?_, hdirectory, ?_⟩, hchanges⟩
        · grind [claimIncomingResume, completedPath_of_opensEmpty]
        · grind [completedPath_of_opensEmpty]
      · rw [openIncoming_of_not_opensEmpty hempty] at hchanges
        exact absurd hchanges not_false
    · exact absurd hchanges not_false
  · rintro ⟨directory, hstarts, hchanges⟩
    obtain ⟨item, hitem, hpaused⟩ := hstarts.paused
    have hcompleted := completedPath_of_opensEmpty hstarts.toOpensEmpty hstarts.directory
    rw [hstarts.lookCompleted, if_neg Bool.false_ne_true] at hcompleted
    have hclaim : (claimIncomingResume s.transfers.manager pending.manifest
        pending.senderId).2 = some item.confirmedOffset := by
      grind [claimIncomingResume]
    dsimp only
    rw [hclaim, hcompleted, hstarts.directory]
    dsimp only [registerOffer]
    rw [Option.isNone_some, Bool.and_false, if_neg Bool.false_ne_true]
    dsimp only [Option.isSome_some, Bool.true_or, Bool.and_true]
    rw [openIncoming_of_opensEmpty hstarts.toOpensEmpty]
    exact hchanges

end

/-- Admitting an offer touches its own transfer, and opens its file if it is accepted at once. -/
theorem admitOffer_only (codec : RelayCodec) (services : RelayServices σ) (env : CallEnv L)
    (hpending : s.transfers.pendingIncoming.get? pending.transferId = some pending)
    (hkey : pending.manifest.transferId = pending.transferId) (isNewOffer : Bool) :
    OnlyTransfer pending.transferId s.transfers
        (admitOffer codec services env s pending isNewOffer).1.transfers ∧
      (admitOffer codec services env s pending isNewOffer).1.files =
        (admitAction codec env s pending isNewOffer).apply s.files := by
  have hclaim : ∀ id, id ≠ pending.transferId →
      (claimIncomingResume s.transfers.manager pending.manifest pending.senderId).1.get? id =
        s.transfers.manager.get? id := fun id hne =>
    get?_claimIncomingResume_of_ne fun heq => hne (heq.trans hkey)
  rw [admitOffer, admitAction, acceptsAtOnce]
  generalize claimIncomingResume s.transfers.manager pending.manifest pending.senderId = claim
    at hclaim ⊢
  obtain ⟨claimed, resumeOffset⟩ := claim
  dsimp only at hclaim ⊢
  rw [completedPath_transfers]
  rcases completedPath codec env s pending.manifest with error | completed
  · exact ⟨onlyTransfer_manager hclaim, rfl⟩
  -- claiming and registering look at the manifest's identifier, which is that of the offer
  have hregister : ∀ id, id ≠ pending.transferId →
      (registerOffer claimed pending isNewOffer resumeOffset).1.get? id =
        s.transfers.manager.get? id := by
    grind [registerOffer, get?_registerIncoming_of_ne]
  generalize registerOffer claimed pending isNewOffer resumeOffset = registered at hregister ⊢
  obtain ⟨registered, result⟩ := registered
  have hmanager : OnlyTransfer pending.transferId s.transfers
      { s.transfers with manager := registered } := onlyTransfer_manager hregister
  cases result with
  | false => exact ⟨hmanager.trans (onlyTransfer_erasePending _), rfl⟩
  | true =>
    dsimp only
    generalize (resumeOffset.isSome || completed) = accepts
    cases accepts with
    | false => exact ⟨hmanager, rfl⟩
    | true =>
      have hpending' : ({ s with transfers := { s.transfers with manager := registered } } :
          RelayRuntime σ L).transfers.pendingIncoming.get? pending.transferId = some pending :=
        hpending
      exact ⟨hmanager.trans (acceptPending_only hpending').1, (acceptPending_only hpending').2⟩

variable {senderId : String} {body : Bytes} {isNewOffer : Bool}

/-- **An offer is recorded**: it is well formed, its file is not being received, and there is room
for it, or it repeats the one that is recorded. -/
def RecordsOffer (codec : RelayCodec) (s : RelayRuntime σ L) (senderId : String) (body : Bytes)
    (pending : PendingRelayIncoming) (isNewOffer : Bool) : Prop :=
  senderId ∈ s.peers ∧ decodeOffer codec s.identity senderId body = .ok pending ∧
    s.transfers.activeIncoming.get? pending.transferId = none ∧
    match s.transfers.pendingIncoming.get? pending.transferId with
    | none =>
      isNewOffer = true ∧ s.transfers.pendingIncoming.size < maxPendingIncomingTransfers
    | some previous => isNewOffer = false ∧ sameOffer previous pending = true

/-- The body determines the offer, and the tables whether it is new. -/
theorem RecordsOffer.unique {pending' : PendingRelayIncoming} {isNewOffer' : Bool}
    (h : RecordsOffer codec s senderId body pending isNewOffer)
    (h' : RecordsOffer codec s senderId body pending' isNewOffer') :
    pending' = pending ∧ isNewOffer' = isNewOffer := by
  obtain ⟨-, hdecode, -, hroom⟩ := h
  grind [RecordsOffer]

/-- The runtime with an offer recorded. -/
def RelayRuntime.recorded (s : RelayRuntime σ L) (pending : PendingRelayIncoming) :
    RelayRuntime σ L :=
  { s with
      transfers := { s.transfers with
        pendingIncoming := s.transfers.pendingIncoming.put pending } }

theorem receiveRelayOffer_of_records (h : RecordsOffer codec s senderId body pending isNewOffer) :
    receiveRelayOffer codec services env s senderId body =
      admitOffer codec services env (s.recorded pending) pending isNewOffer := by
  obtain ⟨hpeer, hdecode, hactive, hroom⟩ := h
  rw [receiveRelayOffer, if_neg (not_not.mpr hpeer), hdecode]
  dsimp only
  rw [Keyed.contains, hactive, Option.isSome_none, if_neg Bool.false_ne_true]
  rcases hprevious : s.transfers.pendingIncoming.get? pending.transferId with _ | previous
  · rw [hprevious] at hroom
    obtain ⟨rfl, hsize⟩ := hroom
    exact if_neg (Nat.not_le.mpr hsize)
  · rw [hprevious] at hroom
    obtain ⟨rfl, hsame⟩ := hroom
    dsimp only
    rw [hsame]
    rfl

theorem receiveRelayOffer_of_not_records
    (h : ∀ pending isNewOffer, ¬ RecordsOffer codec s senderId body pending isNewOffer) :
    (receiveRelayOffer codec services env s senderId body).1 = s := by
  rw [receiveRelayOffer]
  split
  · rfl
  rename_i hpeer
  split
  · rfl
  rename_i pending hdecode
  split
  · rfl
  have hactive' : s.transfers.activeIncoming.get? pending.transferId = none := by
    grind [Keyed.contains, Option.isSome_eq_false_iff, Option.isNone_iff_eq_none]
  split
  · split
    · rfl
    · refine absurd ⟨not_not.mp hpeer, hdecode, hactive', ?_⟩ (h pending true)
      simp_all
  · split
    · rfl
    · refine absurd ⟨not_not.mp hpeer, hdecode, hactive', ?_⟩ (h pending false)
      simp_all

theorem onlyTransfer_recorded (s : RelayRuntime σ L) (pending : PendingRelayIncoming) :
    OnlyTransfer pending.transferId s.transfers (s.recorded pending).transfers :=
  onlyTransfer_putPending pending

section

variable {peerId : String} (hforeign : Foreign s.transfers pending.transferId peerId)
  (h : RecordsOffer codec s peerId body pending isNewOffer)

include hforeign h

/-- **A foreign transfer is offered**: only its waiters make it foreign, and it has a session with
another peer. -/
theorem Foreign.offered :
    s.transfers.pendingIncoming.get? pending.transferId = none ∧ isNewOffer = true ∧
      ∃ item, s.transfers.manager.get? pending.transferId = some item ∧ item.peerId ≠ peerId := by
  obtain ⟨-, hdecode, hactive, hroom⟩ := h
  obtain ⟨owner, -, howner⟩ := hforeign.owned
  rcases hpending : s.transfers.pendingIncoming.get? pending.transferId with _ | previous
  · rw [hpending] at hroom
    refine ⟨rfl, hroom.1, ?_⟩
    rcases howner with ⟨active, hsome, -⟩ | ⟨previous, hsome, -⟩ | ⟨-, item, hitem, -⟩
    · rw [hactive] at hsome
      cases hsome
    · rw [hpending] at hsome
      cases hsome
    · exact ⟨item, hitem, hforeign.session_ne item hitem⟩
  · -- an offer that repeats the recorded one comes from the same peer
    have hsame : previous.senderId = pending.senderId := by
      grind [sameOffer]
    exact absurd (hsame.trans (decodeOffer_ok hdecode).1.1) (hforeign.pending_ne previous hpending)

/-- **An offer for a foreign transfer** is refused, but its record stays if its file cannot be
looked up. -/
theorem sameTransfer_offered (services : RelayServices σ) (env : CallEnv L) :
    (admitOffer codec services env (s.recorded pending) pending isNewOffer).1.files = s.files ∧
      (SameTransfer pending.transferId s.transfers
          (admitOffer codec services env (s.recorded pending) pending isNewOffer).1.transfers ↔
        ∃ completed, completedPath codec env s pending.manifest = .ok completed) := by
  -- the transfer has a session of another peer, so the offer can neither claim nor register it
  obtain ⟨hnone, rfl, item, hitem, hpeer⟩ := hforeign.offered h
  obtain ⟨hsender, hkey⟩ := (decodeOffer_ok h.2.1).1
  have hitem' : s.transfers.manager.get? pending.manifest.transferId = some item := by
    rwa [hkey]
  have hclaim : claimIncomingResume (s.recorded pending).transfers.manager pending.manifest
      pending.senderId = (s.transfers.manager, none) :=
    claimIncomingResume_of_peer_ne hitem' (hsender ▸ hpeer)
  have hregister : registerOffer s.transfers.manager pending true none =
      (s.transfers.manager, false) :=
    registerIncoming_of_peer_ne hitem' (hsender ▸ hpeer)
  have hsame : completedPath codec env { s.recorded pending with
      transfers := { (s.recorded pending).transfers with manager := s.transfers.manager } }
        pending.manifest = completedPath codec env s pending.manifest := rfl
  rw [admitOffer, hclaim]
  dsimp only
  rw [hsame]
  rcases completedPath codec env s pending.manifest with error | completed
  · refine ⟨rfl, ?_⟩
    constructor
    -- the lookup of the file fails after the offer was recorded, and the record stays
    · intro hsameTransfer
      have hput : (s.transfers.pendingIncoming.put pending).get? pending.transferId = none :=
        hsameTransfer.pendingIncoming.trans hnone
      simp_all
    · simp
  · rw [hregister]
    refine ⟨rfl, fun _ => ⟨completed, rfl⟩, fun _ => ⟨rfl, ?_, rfl, rfl, rfl⟩⟩
    simp_all

end

end Offers

/-! ## Chunks, completions and cancellations -/

section Files

/-- What a chunk hands to a file: the record of the file, the open file and the decrypted bytes;
`none` if the chunk is refused. -/
def chunkWrite (services : RelayServices σ) (env : CallEnv L) (s : RelayRuntime σ L)
    (sessionId : String) (sequence : UInt64) (ciphertext : Bytes) :
    Option (ActiveRelayIncoming × OpenFile × Bytes) :=
  match chunkTarget env s sessionId with
  | none => none
  | some (_, active) =>
    match active.file with
    | none => none
    | some file =>
      if active.alreadyCompleted || sequence.toNat != active.nextSequence ||
          decide (ciphertext.length < 16) then
        none
      else
        match services.decryptApplicationPayload s.services active.offer.senderId
            active.offer.cryptoSessionId (fileChunkAad active.offer.cryptoSessionId
              active.offer.transferId active.offer.manifestHash sequence) ciphertext with
        | (_, .error _) => none
        | (_, .ok clear) =>
          if clear.isEmpty ||
              decide (active.offer.manifest.fileSize < active.receivedBytes + clear.length) then
            none
          else some (active, file, clear)

/-- What a chunk does to the files: nothing, if the write before has failed. -/
def chunkAction (env : CallEnv L) (file : OpenFile) (clear : Bytes) : Action L :=
  if file.failed then .keep else .write file.id file.position (env.faults.written clear)

variable {active : ActiveRelayIncoming} {sessionId id sessionOrTransferId : String}

/-- A chunk touches its own transfer, and never leaves the record as it was. -/
theorem writeChunk_only {file : OpenFile} {clear : Bytes}
    (hactive : s.transfers.activeIncoming.get? active.offer.transferId = some active)
    (hfile : active.file = some file) (hclear : clear ≠ []) :
    OnlyTransfer active.offer.transferId s.transfers
        (writeChunk env s active file clear).1.transfers ∧
      (writeChunk env s active file clear).1.files =
        (chunkAction env file clear).apply s.files ∧
      ¬ SameTransfer active.offer.transferId s.transfers
        (writeChunk env s active file clear).1.transfers := by
  -- the record that replaces the old one differs from it
  have hchanged : ∀ active' : ActiveRelayIncoming,
      active'.offer.transferId = active.offer.transferId → active' ≠ active →
      (s.transfers.activeIncoming.put active').get? active.offer.transferId ≠
        s.transfers.activeIncoming.get? active.offer.transferId := by
    intro active' hkey hne heq
    have hself := (Keyed.get?_put_self active' s.transfers.activeIncoming).symm
    simp_all
  rw [writeChunk, chunkAction]
  by_cases hfailed : file.failed = true
  · rw [if_pos hfailed, if_pos hfailed]
    refine ⟨onlyTransfer_putActive { active with file := some { file with failed := false } }, rfl,
      fun hsame => hchanged { active with file := some { file with failed := false } } rfl
        (fun heq => ?_) hsame.activeIncoming⟩
    have hreported := congrArg ActiveRelayIncoming.file heq
    grind
  rw [if_neg hfailed, if_neg hfailed]
  dsimp only
  have hput : OnlyTransfer active.offer.transferId s.transfers
      { s.transfers with
          activeIncoming := s.transfers.activeIncoming.put
            (active.absorb (file.after env.faults clear) clear) } :=
    onlyTransfer_putActive (active.absorb (file.after env.faults clear) clear)
  -- the number of bytes that were received has grown
  have habsorbed := hchanged (active.absorb (file.after env.faults clear) clear) rfl fun heq => by
    have hgrown := congrArg ActiveRelayIncoming.receivedBytes heq
    have hpos := List.length_pos_iff.mpr hclear
    change active.receivedBytes + clear.length = active.receivedBytes at hgrown
    omega
  split
  · refine ⟨hput.trans (onlyTransfer_manager fun id hne => ?_), rfl,
      fun hsame => habsorbed hsame.activeIncoming⟩
    exact get?_updateProgress.trans (if_neg hne)
  · exact ⟨hput, rfl, fun hsame => habsorbed hsame.activeIncoming⟩

theorem chunkTarget_some (h : chunkTarget env s sessionId = some (id, active)) :
    active.offer.transferId = id ∧
      s.transfers.activeIncoming.get? active.offer.transferId = some active := by
  have hget := (Keyed.find?_some h).1
  have hkey : active.offer.transferId = id := s.transfers.activeIncoming.key_eq hget
  exact ⟨hkey, hkey ▸ hget⟩

/-- **A chunk is refused**, and leaves the files and the tables as they were, **or written**. -/
theorem receiveRelayChunk_cases (services : RelayServices σ) (env : CallEnv L)
    (s : RelayRuntime σ L) (sessionId : String) (sequence : UInt64) (ciphertext : Bytes) :
    (chunkWrite services env s sessionId sequence ciphertext = none ∧
      (receiveRelayChunk services env s sessionId sequence ciphertext).1.transfers = s.transfers ∧
      (receiveRelayChunk services env s sessionId sequence ciphertext).1.files = s.files) ∨
    ∃ active file clear rest,
      s.transfers.activeIncoming.get? active.offer.transferId = some active ∧
      active.file = some file ∧ clear ≠ [] ∧
      chunkWrite services env s sessionId sequence ciphertext = some (active, file, clear) ∧
      (receiveRelayChunk services env s sessionId sequence ciphertext).1 =
        (writeChunk env { s with services := rest } active file clear).1 := by
  rw [chunkWrite, receiveRelayChunk]
  -- the checks of the call and of `chunkWrite` go together, one after the other
  rcases htarget : chunkTarget env s sessionId with _ | ⟨id, active⟩
  · exact .inl ⟨rfl, rfl, rfl⟩
  dsimp only
  rcases hfile : active.file with _ | file
  · exact .inl ⟨rfl, rfl, rfl⟩
  dsimp only
  by_cases hchecked : (active.alreadyCompleted || sequence.toNat != active.nextSequence ||
      decide (ciphertext.length < 16)) = true
  · simp_all
  rw [if_neg hchecked, if_neg hchecked]
  generalize services.decryptApplicationPayload s.services active.offer.senderId
    active.offer.cryptoSessionId (fileChunkAad active.offer.cryptoSessionId
      active.offer.transferId active.offer.manifestHash sequence) ciphertext = decrypted
  obtain ⟨rest, _ | clear⟩ := decrypted
  · exact .inl ⟨rfl, rfl, rfl⟩
  dsimp only
  by_cases hfits : (clear.isEmpty ||
      decide (active.offer.manifest.fileSize < active.receivedBytes + clear.length)) = true
  · simp_all
  rw [if_neg hfits, if_neg hfits]
  refine .inr ⟨active, file, clear, rest, (chunkTarget_some htarget).2, hfile, ?_, rfl, rfl⟩
  rintro rfl
  exact hfits rfl

variable {ciphertext : Bytes}

theorem receiveRelayChunk_of_none {sequence : UInt64}
    (h : chunkWrite services env s sessionId sequence ciphertext = none) :
    (receiveRelayChunk services env s sessionId sequence ciphertext).1.transfers = s.transfers ∧
      (receiveRelayChunk services env s sessionId sequence ciphertext).1.files = s.files := by
  grind [receiveRelayChunk_cases]

/-- **A chunk that is not refused** touches the transfer whose session it names. -/
theorem receiveRelayChunk_of_some {sequence : UInt64} {file : OpenFile} {clear : Bytes}
    (h : chunkWrite services env s sessionId sequence ciphertext = some (active, file, clear)) :
    OnlyTransfer active.offer.transferId s.transfers
        (receiveRelayChunk services env s sessionId sequence ciphertext).1.transfers ∧
      (receiveRelayChunk services env s sessionId sequence ciphertext).1.files =
        (chunkAction env file clear).apply s.files ∧
      ¬ SameTransfer active.offer.transferId s.transfers
        (receiveRelayChunk services env s sessionId sequence ciphertext).1.transfers := by
  rcases receiveRelayChunk_cases services env s sessionId sequence ciphertext with
    ⟨hnone, -⟩ | ⟨active', file', clear, rest, hactive, hfile, hclear, hwrite, hresult⟩
  · cases h.symm.trans hnone
  · cases h.symm.trans hwrite
    rw [hresult]
    exact writeChunk_only (s := { s with services := rest }) hactive hfile hclear

theorem acknowledgeCompletion_same (transferId senderId : String) :
    (acknowledgeCompletion services s transferId senderId).1.transfers = s.transfers ∧
      (acknowledgeCompletion services s transferId senderId).1.files = s.files := by
  grind [acknowledgeCompletion]

theorem get?_completionManager {manager : TransferManager}
    (hne : id ≠ transferId) (verdict : Completion) :
    (completionManager manager transferId verdict).get? id = manager.get? id := by
  have hended : ∀ m : TransferManager, (removeTransfer
      (markCompleted (markVerifying m transferId).1 transferId).1 transferId).get? id =
        m.get? id := by
    intro m
    have hverifying : (markVerifying m transferId).1.get? id = m.get? id :=
      get?_transition_of_ne (fun _ => rfl) hne
    rw [get?_removeTransfer_of_ne hne, ← hverifying]
    exact get?_transition_of_ne (fun _ => rfl) hne
  cases verdict with
  | failed reason error =>
    rw [completionManager, get?_removeTransfer_of_ne hne]
    exact get?_transition_of_ne (fun _ => rfl) hne
  | abandoned error => rfl
  | alreadyCompleted | identical | renamed => exact hended manager

section Completed

variable (codec : RelayCodec) (env : CallEnv L) (files : FileStore L)
  (active : ActiveRelayIncoming) (senderId : Option String)

/-- All bytes of the file have come, and the sender of the file says so. -/
def AllReceived : Prop :=
  senderId = some active.offer.senderId ∧ active.receivedBytes = active.offer.manifest.fileSize

/-- **The file can be put in its place**: its bytes have the announced hash, and all were
written. -/
@[grind cases]
structure ReadyToMove : Prop where
  received : AllReceived active senderId
  alreadyCompleted : active.alreadyCompleted = false
  hash : relayHashMatches codec.sha256 active.hasher active.offer.manifest.contentHash = true
  written : ∃ file, active.file = some file ∧ file.failed = false

/-- **A completion leaves the partial file where it is.** -/
@[grind cases]
inductive LeavesPartFile : Prop
  /-- The file was in its place when the offer was accepted. -/
  | alreadyCompleted (hreceived : AllReceived active senderId)
      (hcompleted : active.alreadyCompleted = true)
  /-- The file is not open. -/
  | closed (hreceived : AllReceived active senderId)
      (hhash : relayHashMatches codec.sha256 active.hasher active.offer.manifest.contentHash = true)
      (hfile : active.file = none)
  /-- What is at the final path cannot be compared with the file. -/
  | unreadable {error : RelayDataError} (hready : ReadyToMove codec active senderId)
      (hoccupied : ¬ DestinationFree env files active.finalPath)
      (herror : existingCompletedFile codec env files env.faults.lookCompleted
        active.offer.manifest (parent active.finalPath) = .error error)

/-- **A completion moves the partial file** to the final path. -/
@[grind cases]
structure MovesPartFile : Prop extends ReadyToMove codec active senderId where
  free : DestinationFree env files active.finalPath
  rename : env.faults.rename = false
  movable : files.Movable (env.locate active.temporaryPath) (env.locate active.finalPath)

end Completed

/-- **What a completion does to the files**, by the state of the file and of its two paths. -/
theorem completionAction_cases (codec : RelayCodec) (env : CallEnv L) (files : FileStore L)
    (active : ActiveRelayIncoming) (senderId : Option String) :
    (LeavesPartFile codec env files active senderId ∧
        completionAction env active (completion codec env files active senderId) = .keep) ∨
      (MovesPartFile codec env files active senderId ∧
        completionAction env active (completion codec env files active senderId) =
          .move (env.locate active.temporaryPath) (env.locate active.finalPath)) ∨
      (¬ LeavesPartFile codec env files active senderId ∧
        ¬ MovesPartFile codec env files active senderId ∧
        completionAction env active (completion codec env files active senderId) =
          if env.faults.remove then .keep else .remove (env.locate active.temporaryPath)) := by
  rw [completion]
  split
  · exact .inr (.inr ⟨by grind [AllReceived], by grind [AllReceived], rfl⟩)
  rename_i hreceived
  rw [not_or, not_not, not_not] at hreceived
  split
  · rename_i hcompleted
    exact .inl ⟨.alreadyCompleted hreceived hcompleted, rfl⟩
  split
  · exact .inr (.inr ⟨by grind, by grind, rfl⟩)
  rename_i hcompleted hhash
  rw [Bool.not_eq_true, Bool.not_eq_false'] at hhash
  rcases hfile : active.file with _ | file
  · exact .inl ⟨.closed hreceived hhash hfile, rfl⟩
  rw [Option.isNone_some, if_neg Bool.false_ne_true, Option.any_some]
  split
  · exact .inr (.inr ⟨by grind, by grind, rfl⟩)
  rename_i hwritten
  have hready : ReadyToMove codec active senderId :=
    ⟨hreceived, Bool.eq_false_iff.mpr hcompleted, hhash, file, hfile,
      Bool.eq_false_iff.mpr hwritten⟩
  split
  · rename_i hoccupied
    have hfree : ¬ DestinationFree env files active.finalPath := fun h =>
      destinationFree_iff.mp h hoccupied
    rcases hexisting : existingCompletedFile codec env files env.faults.lookCompleted
        active.offer.manifest (parent active.finalPath) with error | identical
    · exact .inl ⟨.unreadable hready hfree hexisting, rfl⟩
    · exact .inr (.inr ⟨by grind, by grind, by cases identical <;> rfl⟩)
  rename_i hfree
  have hfree' := destinationFree_iff.mpr hfree
  split
  · exact .inr (.inr ⟨by grind, by grind, rfl⟩)
  · exact .inr (.inl ⟨⟨hready, hfree', by grind, by grind⟩, rfl⟩)

/-- **A completion** ends the record of the file it names, and acts on its files. -/
theorem completeRelayIncoming_of_some (codec : RelayCodec) (services : RelayServices σ)
    (senderId : Option String)
    (h : completionTarget env s sessionOrTransferId = some (id, active)) :
    OnlyTransfer id s.transfers
        (completeRelayIncoming codec services env s sessionOrTransferId senderId).1.transfers ∧
      (completeRelayIncoming codec services env s sessionOrTransferId senderId).1.files =
        (completionAction env active (completion codec env s.files active senderId)).apply s.files ∧
      ¬ SameTransfer id s.transfers
        (completeRelayIncoming codec services env s sessionOrTransferId senderId).1.transfers := by
  have hactive := (Keyed.find?_some h).1
  rw [completeRelayIncoming, h]
  dsimp only
  generalize completion codec env s.files active senderId = verdict
  have honly : OnlyTransfer id s.transfers
      { s.transfers with
          activeIncoming := s.transfers.activeIncoming.erase id
          manager := completionManager s.transfers.manager id verdict } :=
    fun _ hne => ⟨Keyed.get?_erase_of_ne hne _, rfl, rfl, rfl, get?_completionManager hne verdict⟩
  have hgone : ¬ SameTransfer id s.transfers
      { s.transfers with
          activeIncoming := s.transfers.activeIncoming.erase id
          manager := completionManager s.transfers.manager id verdict } := by
    intro hsame
    have hnone := (Keyed.get?_erase_self id s.transfers.activeIncoming).symm.trans
      (hsame.activeIncoming.trans hactive)
    cases hnone
  grind [acknowledgeCompletion_same]

variable {order : String → ℕ}

theorem cancelledActive_some {a : RelayTransfers}
    (h : a.cancelledActive order sessionOrTransferId = some (id, active)) :
    a.activeIncoming.get? id = some active := by
  grind [RelayTransfers.cancelledActive, Keyed.find?_some]

/-- The session that a cancellation ends is that of the transfer it names, or of the one whose file
it stops. -/
theorem cancelledId_cases {a : RelayTransfers} :
    a.cancelledId order sessionOrTransferId = sessionOrTransferId ∨
      ∃ active, a.cancelledActive order sessionOrTransferId =
        some (a.cancelledId order sessionOrTransferId, active) := by
  grind [RelayTransfers.cancelledId, Keyed.key_of_get?]

theorem activeIncoming_receiveCancel (env : CallEnv L) (s : RelayRuntime σ L) {body : Bytes}
    (hbody : decodeUtf8 body = some id) :
    (receiveCancel env s body).1.transfers.activeIncoming =
      match s.transfers.cancelledActive env.order id with
      | some (stopped, _) => s.transfers.activeIncoming.erase stopped
      | none => s.transfers.activeIncoming := by
  rw [receiveCancel, hbody]
  rfl

/-- **A cancellation** touches the transfer it names, and the one whose file it stops. -/
theorem sameTransfer_receiveCancel_iff {peerId : String} {body : Bytes}
    (hforeign : Foreign s.transfers transferId peerId) (hbody : decodeUtf8 body = some id) :
    SameTransfer transferId s.transfers (receiveCancel env s body).1.transfers ↔
      transferId ≠ id ∧
        ∀ active, s.transfers.cancelledActive env.order id ≠ some (transferId, active) := by
  have hincoming := activeIncoming_receiveCancel env s hbody
  rw [receiveCancel, hbody] at hincoming ⊢
  constructor
  · intro hsame
    -- something is known of the transfer, and a cancellation by its name takes it away
    have hstopped : ∀ active,
        s.transfers.cancelledActive env.order id ≠ some (transferId, active) := by
      intro active hactive
      have hkept := hsame.activeIncoming.trans (cancelledActive_some hactive)
      rw [hincoming, hactive] at hkept
      simp_all
    refine ⟨?_, hstopped⟩
    rintro rfl
    obtain ⟨owner, -, howner⟩ := hforeign.owned
    rcases howner with ⟨active, hactive, -⟩ | ⟨pending, hpending, -⟩ | ⟨hwaits, -⟩
    · grind [RelayTransfers.cancelledActive]
    · have herased := (Keyed.get?_erase_self transferId s.transfers.pendingIncoming).symm.trans
        (hsame.pendingIncoming.trans hpending)
      cases herased
    · rcases hwaits with hwaits | hwaits
      · have herased := (Table.get?_erase_self transferId s.transfers.acceptances).symm.trans
          hsame.acceptances
        grind
      · have herased := (Table.get?_erase_self transferId s.transfers.completions).symm.trans
          hsame.completions
        grind
  · rintro ⟨hne, hstopped⟩
    refine ⟨?_, Keyed.get?_erase_of_ne hne _, Table.get?_erase_of_ne hne _,
      Table.get?_erase_of_ne hne _, ?_⟩
    · rw [hincoming]
      grind [Keyed.get?_erase_of_ne]
    · refine Eq.trans (b := if transferId = s.transfers.cancelledId env.order id then none
        else s.transfers.manager.get? transferId)
        (RelayTransfers.get?_cancelRelayIncoming s.receiveDirectory) (if_neg ?_)
      grind [cancelledId_cases]

end Files

end SshMobile.Relay
