import SshMobile.Relay.FileTransfer

/-!
# Resuming a file transfer over a relay

The sender refuses an acceptance that lies behind its own record, and the receiver refuses to accept
if its record is not the length of its partial file. So a transfer resumes exactly if the sender has
recorded none of the chunks that were lost, and the receiver has recorded all it has written. The
sender records a chunk when the socket has taken it, not when the receiver has it.

## Main definitions

* `Flow`: the chunks in flight and the lost ones lead from the partial file to what the sender has
  handed over
* `RecordsWritten`: the receiver is not paused between the write of a chunk and its record
* `BothPaused`: the connection is gone and both sessions wait for the next one
* `Resumes`: the next offer is accepted, and so is the acceptance

## Main results

* `Flow.step`, `flow_run`: every step keeps the flow, and so does every run
* `file_bytes_conserved`: at every moment, where the bytes of the file are
* `recorded_run`: what the receiver has recorded, of such runs
* `resumes_iff`: when a paused transfer resumes
-/

namespace SshMobile.Relay

open Library Transfer

/-! ## The flow of the file -/

/-- The contents of the partial file. -/
def ResumeState.content (s : ResumeState) : Bytes := s.partFile.getD []

/-- An offset in the file at which a chunk starts, or its end. -/
def FileTransfer.Offset (t : FileTransfer) (n : ℕ) : Prop :=
  n ≤ t.file.length ∧ (n = t.file.length ∨ relayFileChunkBytes ∣ n)

/-- **The chunks lead from one offset to another**: they are the chunks of the file in between. -/
def FileTransfer.Leads (t : FileTransfer) : ℕ → List Chunk → ℕ → Prop
  | first, [], last => first = last
  | first, chunk :: rest, last =>
    chunk.offset = first ∧ chunk.bytes = (t.file.drop first).take relayFileChunkBytes ∧
      chunk.bytes ≠ [] ∧ t.Leads (first + chunk.bytes.length) rest last

/-- The sender's session: its record is an offset of the file that was handed over. -/
structure SenderRecord (t : FileTransfer) (handed : ℕ) (item : TransferSession) : Prop where
  peerId : item.peerId = t.receiverId
  sourcePath : item.sourcePath.isSome = true
  offset : t.Offset item.confirmedOffset
  le_handed : item.confirmedOffset ≤ handed

/-- What a worker of the sender knows of the connection. -/
def PhaseSound (relayManifestHash : FileManifest → String) (t : FileTransfer) (s : ResumeState) :
    Phase → Prop
  | .waiting =>
    chunks s.toReceiver = [] ∧
      ∀ acceptance ∈ s.toSender,
        acceptance = relayAcceptance relayManifestHash t s.content.length ∧
          (s.connected = true → s.active.isSome = true)
  | .sending sequence transferred | .recording sequence transferred =>
    transferred = s.handed ∧
      (transferred < t.file.length → sequence * relayFileChunkBytes = transferred) ∧
      (s.connected = true → s.lost = [] ∧ s.active.isSome = true)

/-- **The flow of the file**: the partial file is the beginning of the file, and the chunks in
flight and the lost ones lead from there to what the sender has handed over. -/
structure Flow (relayManifestHash : FileManifest → String) (t : FileTransfer) (s : ResumeState) :
    Prop where
  content : s.content = t.file.take s.content.length
  written : t.Offset s.content.length
  handed : t.Offset s.handed
  leads : t.Leads s.content.length (chunks s.toReceiver ++ s.lost) s.handed
  sender : ∀ item, s.sender.get? t.id = some item → SenderRecord t s.handed item
  receiver : ∀ item, s.receiver.get? t.id = some item →
    item.manifest = t.manifest ∧ item.peerId = t.senderId
  attempt : ∀ attempt, s.attempt = some attempt → PhaseSound relayManifestHash t s attempt.phase
  active : ∀ active, s.active = some active → active.receivedBytes = s.content.length ∧
    (s.content.length < t.file.length →
      active.nextSequence * relayFileChunkBytes = s.content.length)
  flowing : chunks s.toReceiver ≠ [] → s.active.isSome = true

theorem relayFileChunkBytes_pos : 0 < relayFileChunkBytes := by decide

@[simp] theorem chunks_offer (rest : List Envelope) : chunks (.offer :: rest) = chunks rest := rfl

@[simp] theorem chunks_chunk (chunk : Chunk) (rest : List Envelope) :
    chunks (.chunk chunk :: rest) = chunk :: chunks rest := rfl

@[simp] theorem chunks_append (first rest : List Envelope) :
    chunks (first ++ rest) = chunks first ++ chunks rest := List.filterMap_append

variable {t : FileTransfer}

section Leads

variable {first last : ℕ}

variable {sent : List Chunk}

section

variable (h : t.Leads first sent last)

include h

theorem FileTransfer.Leads.snoc {chunk : Chunk} (hoffset : chunk.offset = last)
    (hbytes : chunk.bytes = (t.file.drop last).take relayFileChunkBytes) (hne : chunk.bytes ≠ []) :
    t.Leads first (sent ++ [chunk]) (last + chunk.bytes.length) := by
  induction sent generalizing first with
  | nil =>
    grind [Leads]
  | cons next sent ih => exact ⟨h.1, h.2.1, h.2.2.1, ih h.2.2.2⟩

/-- No chunk lies before the first offset. -/
theorem FileTransfer.Leads.le_offset :
    ∀ chunk ∈ sent, first ≤ chunk.offset := by
  induction sent generalizing first with
  | nil => simp
  | cons next sent ih =>
    grind [Leads]

/-- A record of what was handed over lies in what has arrived exactly if no chunk on the way was
recorded. -/
theorem FileTransfer.Leads.le_iff {record : ℕ} (hrecord : record ≤ last) :
    record ≤ first ↔ ∀ chunk ∈ sent, record ≤ chunk.offset := by
  refine ⟨fun hle chunk hmem => hle.trans (h.le_offset chunk hmem), fun hall => ?_⟩
  cases sent with
  | nil => exact hrecord.trans_eq h.symm
  | cons next sent => grind [Leads]

end

/-- The offset after a chunk is an offset again, and the next chunk has the next number. -/
theorem FileTransfer.Offset.next {sequence : ℕ} (hsequence : sequence * relayFileChunkBytes = first)
    (hlt : first < t.file.length) :
    let bytes := (t.file.drop first).take relayFileChunkBytes
    bytes ≠ [] ∧ t.Offset (first + bytes.length) ∧
      (first + bytes.length < t.file.length →
        (sequence + 1) * relayFileChunkBytes = first + bytes.length) := by
  have hpos := relayFileChunkBytes_pos
  have hlength : ((t.file.drop first).take relayFileChunkBytes).length =
      min relayFileChunkBytes (t.file.length - first) := by
    rw [List.length_take, List.length_drop]
  have hnext : (sequence + 1) * relayFileChunkBytes = first + relayFileChunkBytes := by
    rw [Nat.succ_mul, hsequence]
  refine ⟨fun h => ?_, ⟨by omega, ?_⟩, fun h => ?_⟩
  · have hzero := congrArg List.length h
    rw [hlength, List.length_nil] at hzero
    omega
  · rcases Nat.le_total relayFileChunkBytes (t.file.length - first) with hle | hle
    · right
      rw [hlength, Nat.min_eq_left hle, ← hnext]
      exact Nat.dvd_mul_left _ _
    · left
      omega
  · rw [hnext]
    omega

end Leads

theorem validRelayOffset_of_offset {n : ℕ} (h : t.Offset n) :
    validRelayOffset n t.manifest.fileSize = true := by
  grind [validRelayOffset, FileTransfer.fileSize_eq, Nat.mod_eq_zero_of_dvd, FileTransfer.Offset]

theorem existingPartialOffset_eq {partFile : Option Bytes}
    (h : (partFile.getD []).length ≤ t.file.length) :
    existingPartialOffset t.manifest partFile = (partFile.getD []).length := by
  rcases partFile with _ | content
  · rfl
  · rw [existingPartialOffset, t.fileSize_eq]
    exact if_pos h

theorem getD_openPartFile (partFile : Option Bytes) :
    (openPartFile partFile (partFile.getD []).length).getD [] = partFile.getD [] := by
  grind [openPartFile]

/-! ## Every step keeps the flow -/

variable {relayManifestHash : FileManifest → String} {s : ResumeState}

section Steps

variable {receiver : TransferManager} {handed : ℕ} {manager : TransferManager}
  {f : TransferSession → TransferSession}

/-- The two managers may change the states of the sessions, and the sender's record within what was
handed over. -/
theorem Flow.managers (h : Flow relayManifestHash t s) {sender : TransferManager}
    (hsender : ∀ item, sender.get? t.id = some item → SenderRecord t s.handed item)
    (hreceiver : ∀ item, receiver.get? t.id = some item →
      item.manifest = t.manifest ∧ item.peerId = t.senderId) :
    Flow relayManifestHash t { s with sender := sender, receiver := receiver } :=
  { h with sender := hsender, receiver := hreceiver }

/-- An attempt that ends. -/
theorem Flow.ended (h : Flow relayManifestHash t s) :
    Flow relayManifestHash t { s with attempt := none } :=
  { h with attempt := fun _ hattempt => nomatch hattempt }

theorem get?_removeTransfer_self (manager : TransferManager) (id : String) :
    (removeTransfer manager id).get? id = none := by
  rw [removeTransfer, Keyed.get?_erase, if_pos rfl]

theorem Flow.fail (h : Flow relayManifestHash t s) (reason : TransferFailureReason) :
    Flow relayManifestHash t (s.fail t reason) := by
  have hgone : ∀ item, (removeTransfer (failTransfer s.sender t.id reason).1 t.id).get? t.id =
      some item → SenderRecord t s.handed item := by
    grind [get?_removeTransfer_self]
  exact (h.managers hgone h.receiver).ended

/-- **What a worker knows goes over to another state**: the file may have grown only if chunks were
in flight, and on a connection that still stands nothing gets lost and the receiver goes on. -/
theorem PhaseSound.mono {s' : ResumeState} {phase : Phase}
    (h : PhaseSound relayManifestHash t s phase) (hhanded : s'.handed = s.handed)
    (hempty : chunks s.toReceiver = [] → chunks s'.toReceiver = [] ∧ s'.content = s.content)
    (hsent : ∀ acceptance ∈ s'.toSender, acceptance ∈ s.toSender ∨
      acceptance = relayAcceptance relayManifestHash t s.content.length ∧ s'.active.isSome = true)
    (hconnected : s'.connected = true → s.connected = true ∧ s'.lost = s.lost ∧
      (s.active.isSome = true → s'.active.isSome = true)) :
    PhaseSound relayManifestHash t s' phase := by
  have hstill (hs' : s'.connected = true)
      (hs : s.connected = true → s.lost = [] ∧ s.active.isSome = true) :
      s'.lost = [] ∧ s'.active.isSome = true := by
    simp_all
  cases phase with
  | waiting =>
    obtain ⟨hchunks, hcontent⟩ := hempty h.1
    refine ⟨hchunks, fun acceptance hmem => ?_⟩
    rw [hcontent]
    rcases hsent acceptance hmem with hmem | ⟨hnew, hactive⟩
    · refine ⟨(h.2 acceptance hmem).1, fun hs' => ?_⟩
      obtain ⟨hbefore, -, hactive⟩ := hconnected hs'
      exact hactive ((h.2 acceptance hmem).2 hbefore)
    · exact ⟨hnew, fun _ => hactive⟩
  | sending sequence transferred | recording sequence transferred =>
    exact ⟨h.1.trans hhanded.symm, h.2.1, fun hs' => hstill hs' h.2.2⟩

/-- Acceptances may get lost. -/
theorem Flow.acceptances (h : Flow relayManifestHash t s) {left : List RelayAcceptance}
    (hsub : ∀ acceptance ∈ left, acceptance ∈ s.toSender) :
    Flow relayManifestHash t { s with toSender := left } :=
  { h with
    attempt := fun attempt hattempt =>
      (h.attempt attempt hattempt).mono rfl (fun hempty => ⟨hempty, rfl⟩)
        (fun acceptance hmem => .inl (hsub acceptance hmem)) fun hs => ⟨hs, rfl, id⟩ }

/-! ### The sender's steps -/

/-- A record with another state. -/
theorem SenderRecord.congr {item item' : TransferSession} (h : SenderRecord t handed item)
    (hpeer : item'.peerId = item.peerId) (hpath : item'.sourcePath = item.sourcePath)
    (hoffset : item'.confirmedOffset = item.confirmedOffset) : SenderRecord t handed item' where
  peerId := hpeer.trans h.peerId
  sourcePath := hpath ▸ h.sourcePath
  offset := hoffset ▸ h.offset
  le_handed := hoffset ▸ h.le_handed

/-- A step that leaves the sessions their peer, their path and their record. -/
theorem SenderRecord.mono {manager' : TransferManager}
    (h : ∀ item, manager.get? t.id = some item → SenderRecord t handed item)
    (hget : manager'.get? t.id = (manager.get? t.id).map f)
    (hf : ∀ item, (f item).peerId = item.peerId ∧ (f item).sourcePath = item.sourcePath ∧
      (f item).confirmedOffset = item.confirmedOffset) :
    ∀ item, manager'.get? t.id = some item → SenderRecord t handed item := by
  intro item hitem
  rw [hget, Option.map_eq_some_iff] at hitem
  obtain ⟨item, hitem, rfl⟩ := hitem
  obtain ⟨hpeer, hpath, hoffset⟩ := hf item
  exact (h item hitem).congr hpeer hpath hoffset

theorem Flow.start (h : Flow relayManifestHash t s) (offset : ℕ) :
    Flow relayManifestHash t (s.start t offset) := by
  rw [ResumeState.start]
  split_ifs
  · exact h.fail _
  · exact
      { h with
        attempt := by
          rintro attempt hattempt
          obtain rfl := Option.some.inj hattempt
          exact ⟨rfl, fun _ hmem => absurd hmem List.not_mem_nil⟩
        flowing := fun hne => absurd rfl hne }

theorem Flow.dispatch (h : Flow relayManifestHash t s) :
    Flow relayManifestHash t (s.dispatch t) := by
  rw [ResumeState.dispatch]
  split_ifs
  · exact h
  · split
    · exact h
    · split_ifs
      · exact h.start 0
      · refine Flow.start (h.managers (SenderRecord.mono h.sender
          (get?_takeResumableForPeer _ _ _ _ _) fun item => ?_) h.receiver) _
        grind [TransferSession.takenFor]
      · exact h

section

variable (h : ∀ item, manager.get? t.id = some item → SenderRecord t handed item)

include h

/-- The record that a progress report leaves. -/
theorem sender_updateProgress {bytes : ℕ} (hoffset : t.Offset bytes) (hle : bytes ≤ handed) :
    ∀ item, (updateProgress manager t.id bytes).1.get? t.id = some item →
      SenderRecord t handed item := by
  intro item hitem
  rw [get?_updateProgress, if_pos rfl, Option.map_eq_some_iff] at hitem
  obtain ⟨item, hitem, rfl⟩ := hitem
  split_ifs
  · exact ⟨(h item hitem).peerId, (h item hitem).sourcePath, hoffset, hle⟩
  · exact h item hitem

theorem sender_pauseForNetwork :
    ∀ item, (pauseForNetwork manager t.id).1.get? t.id = some item →
      SenderRecord t handed item :=
  SenderRecord.mono h (get?_pauseForNetwork.trans (if_pos rfl)) fun item => by
    split_ifs <;> exact ⟨rfl, rfl, rfl⟩

end

section

variable (h : Flow relayManifestHash t s)

include h

theorem Flow.accept : Flow relayManifestHash t (s.accept relayManifestHash t) := by
  rw [ResumeState.accept]
  split
  · rename_i offset acceptance rest hattempt hacceptance
    -- the receiver has answered this offer, so its answer is the length of the partial file
    obtain ⟨hempty, hall⟩ := h.attempt _ hattempt
    have hrest : Flow relayManifestHash t { s with toSender := rest } :=
      h.acceptances fun acceptance hmem => hacceptance ▸ List.mem_cons_of_mem _ hmem
    obtain ⟨rfl, hactive⟩ := hall acceptance (hacceptance ▸ List.mem_cons_self)
    split_ifs
    · exact hrest.fail _
    · generalize hmark : markTransferring s.sender t.id = marked
      rcases marked with ⟨sender, _ | _⟩
      · exact hrest.fail _
      · -- The record is now the offset that the receiver asked for.
        obtain ⟨item, hitem, _, rfl⟩ := transition_true hmark
        have hrecord := h.sender item hitem
        have hkey : t.id = item.transferId := (Keyed.key_of_get? hitem).symm
        refine
          { h with
            handed := h.written
            leads := ?_
            sender := ?_
            attempt := ?_ }
        · rw [hempty]
          rfl
        · intro item' hitem'
          rw [get?_updateProgress, if_pos rfl, Keyed.get?_put, if_pos hkey, Option.map_some,
            Option.some.injEq] at hitem'
          subst hitem'
          exact ⟨hrecord.peerId, hrecord.sourcePath, h.written, Nat.le_refl _⟩
        · intro attempt hsome
          obtain rfl := Option.some.inj hsome
          refine ⟨rfl, fun hlt => ?_, fun hconnected => ⟨rfl, hactive hconnected⟩⟩
          rcases h.written.2 with heq | hdvd
          · exact absurd heq (Nat.ne_of_lt hlt)
          · exact Nat.div_mul_cancel hdvd
  · exact h

theorem Flow.send : Flow relayManifestHash t (s.send t) := by
  rw [ResumeState.send]
  split
  · rename_i offset sequence transferred hattempt
    obtain ⟨htransferred, hsequence, hconnected⟩ := h.attempt _ hattempt
    split_ifs with hif
    · rw [t.fileSize_eq] at hif
      obtain ⟨hlost, hactive⟩ := hconnected hif.1
      -- the chunk starts where the last one ended, and its number is its place in the file
      obtain ⟨hne, hoffset, hnext⟩ := FileTransfer.Offset.next (hsequence hif.2) hif.2
      have hle : s.handed ≤ transferred +
          ((t.file.drop transferred).take relayFileChunkBytes).length :=
        htransferred ▸ Nat.le_add_right _ _
      refine
        { h with
          handed := hoffset
          leads := ?_
          sender := fun item hitem => ?_
          attempt := ?_
          flowing := fun _ => hactive }
      · have hleads := h.leads
        rw [hlost, List.append_nil] at hleads
        rw [hlost, List.append_nil, chunks_append]
        exact FileTransfer.Leads.snoc (htransferred ▸ hleads) (hsequence hif.2) rfl hne
      · have hrecord := h.sender item hitem
        exact ⟨hrecord.peerId, hrecord.sourcePath, hrecord.offset, hrecord.le_handed.trans hle⟩
      · intro attempt hsome
        obtain rfl := Option.some.inj hsome
        exact ⟨rfl, hnext, fun _ => ⟨hlost, hactive⟩⟩
    · exact h
  · exact h

theorem Flow.recordSent : Flow relayManifestHash t (s.recordSent t) := by
  rw [ResumeState.recordSent]
  split
  · rename_i offset sequence transferred hattempt
    have hsound := h.attempt _ hattempt
    have hsender := sender_updateProgress h.sender (hsound.1 ▸ h.handed) (Nat.le_of_eq hsound.1)
    exact
      { h with
        sender := hsender
        attempt := fun attempt hsome => by
          obtain rfl := Option.some.inj hsome
          exact hsound }
  · exact h

theorem Flow.workerFails : Flow relayManifestHash t (s.workerFails t) := by
  have hsender := sender_pauseForNetwork h.sender
  rw [ResumeState.workerFails]
  generalize pauseForNetwork s.sender t.id = paused at hsender ⊢
  rcases paused with ⟨sender, _ | _⟩
  · split
    exacts [h.fail _, h.fail _, h]
  · have hpaused := (h.managers hsender h.receiver).ended
    split
    exacts [hpaused, hpaused, h]

theorem Flow.teardown : Flow relayManifestHash t (s.teardown t) := by
  rw [ResumeState.teardown]
  split_ifs
  · exact h
  · refine h.managers (SenderRecord.mono h.sender (get?_pausePeerTransfers _ _ _) fun item => ?_)
      h.receiver
    grind [TransferSession.pausedFor]

theorem Flow.joinTasks : Flow relayManifestHash t (s.joinTasks t) := by
  grind [ResumeState.joinTasks, ended]

end

/-! ### The receiver's steps -/

/-- The receiver's session belongs to the transfer. -/
def ReceiverRecord (t : FileTransfer) (manager : TransferManager) : Prop :=
  ∀ item, manager.get? t.id = some item → item.manifest = t.manifest ∧ item.peerId = t.senderId

section

variable (h : ReceiverRecord t manager)

include h

/-- A step that leaves the sessions their manifest and their peer. -/
theorem ReceiverRecord.mono {manager' : TransferManager}
    (hget : manager'.get? t.id = (manager.get? t.id).map f)
    (hf : ∀ item, (f item).manifest = item.manifest ∧ (f item).peerId = item.peerId) :
    ReceiverRecord t manager' := by
  grind [Option.map_eq_some_iff, ReceiverRecord]

theorem ReceiverRecord.updateProgress (bytes : ℕ) :
    ReceiverRecord t (updateProgress manager t.id bytes).1 :=
  h.mono (get?_updateProgress.trans (if_pos rfl)) fun item => by split_ifs <;> exact ⟨rfl, rfl⟩

theorem ReceiverRecord.markTransferring :
    ReceiverRecord t (markTransferring manager t.id).1 :=
  h.mono (get?_markTransferring.trans (if_pos rfl)) fun item => by split_ifs <;> exact ⟨rfl, rfl⟩

theorem ReceiverRecord.pauseForNetwork :
    ReceiverRecord t (pauseForNetwork manager t.id).1 :=
  h.mono (get?_pauseForNetwork.trans (if_pos rfl)) fun item => by split_ifs <;> exact ⟨rfl, rfl⟩

end

section

variable (h : Flow relayManifestHash t s)

include h

/-- The receiver's side may change, where the contents of the partial file stay and a file that is
being received still is. -/
theorem Flow.receiverSide {s' : ResumeState}
    (hrest : s' = { s with
      toSender := s'.toSender
      receiver := s'.receiver
      pending := s'.pending
      active := s'.active
      recording := s'.recording
      partFile := s'.partFile })
    (hcontent : s'.content = s.content) (hreceiver : ReceiverRecord t s'.receiver)
    (hsent : ∀ acceptance ∈ s'.toSender, acceptance ∈ s.toSender ∨
      acceptance = relayAcceptance relayManifestHash t s.content.length ∧ s'.active.isSome = true)
    (hactive : ∀ active, s'.active = some active → active.receivedBytes = s.content.length ∧
      (s.content.length < t.file.length →
        active.nextSequence * relayFileChunkBytes = s.content.length))
    (hstill : s.active.isSome = true → s'.active.isSome = true) :
    Flow relayManifestHash t s' := by
  obtain ⟨sender, attempt, handed, connected, toReceiver, toSender, lost, receiver, pending, active,
    recording, partFile, cancelled⟩ := s'
  obtain ⟨rfl, rfl, rfl, rfl, rfl, rfl, rfl⟩ : sender = s.sender ∧ attempt = s.attempt ∧
      handed = s.handed ∧ connected = s.connected ∧ toReceiver = s.toReceiver ∧ lost = s.lost ∧
      cancelled = s.cancelled := by
    simpa using hrest
  exact
    { content := by rw [hcontent]; exact h.content
      written := by rw [hcontent]; exact h.written
      handed := h.handed
      leads := by rw [hcontent]; exact h.leads
      sender := h.sender
      receiver := hreceiver
      attempt := fun attempt hattempt =>
        (h.attempt attempt hattempt).mono rfl (fun hempty => ⟨hempty, hcontent⟩) hsent
          fun hs => ⟨hs, rfl, hstill⟩
      active := by rw [hcontent]; exact hactive
      flowing := fun hne => hstill (h.flowing hne) }

/-- The partial file is opened at its end, and the session may change its state. -/
theorem Flow.opened (hreceiver : ReceiverRecord t receiver) (pending : Bool) :
    Flow relayManifestHash t
      { s with
        receiver := receiver
        pending := pending
        partFile := openPartFile s.partFile s.content.length } :=
  h.receiverSide rfl (getD_openPartFile s.partFile) hreceiver (fun _ hmem => .inl hmem) h.active id

theorem Flow.acceptPending :
    Flow relayManifestHash t (s.acceptPending relayManifestHash t).1 := by
  have hoffset : existingPartialOffset t.manifest s.partFile = s.content.length :=
    existingPartialOffset_eq h.written.1
  -- the refusals come first: an offset off the chunks, a record that differs, a session that may
  -- not start, a connection that is gone
  rw [ResumeState.acceptPending, hoffset]
  split
  · exact h.receiverSide rfl rfl h.receiver (fun _ hmem => .inl hmem) h.active id
  split
  · exact h.opened h.receiver false
  have hmarked : ReceiverRecord t (markTransferring
      (updateProgress s.receiver t.id s.content.length).1 t.id).1 :=
    ReceiverRecord.markTransferring (ReceiverRecord.updateProgress h.receiver _)
  generalize markTransferring (updateProgress s.receiver t.id s.content.length).1 t.id =
    marked at hmarked
  rcases marked with ⟨receiver, _ | _⟩
  · exact h.opened hmarked false
  split_ifs
  · exact h.opened hmarked.pauseForNetwork true
  · refine h.receiverSide rfl (getD_openPartFile s.partFile) hmarked ?_ ?_ fun _ => rfl
    · simp
    · intro active hactive
      obtain rfl := Option.some.inj hactive
      refine ⟨rfl, fun hlt => ?_⟩
      rcases h.written.2 with heq | hdvd
      · exact absurd heq (Nat.ne_of_lt hlt)
      · exact Nat.div_mul_cancel hdvd

theorem Flow.receiveOffer :
    Flow relayManifestHash t (s.receiveOffer relayManifestHash t) := by
  have hclaimed : ReceiverRecord t (claimIncomingResume s.receiver t.manifest t.senderId).1 :=
    ReceiverRecord.mono h.receiver (get?_claimIncomingResume.trans (if_pos rfl)) fun item => by
      split_ifs <;> exact ⟨rfl, rfl⟩
  have hregistered : ReceiverRecord t (registerIncoming s.receiver t.manifest t.senderId).1 := by
    intro item hitem
    rw [get?_registerIncoming, if_pos (show t.id = t.manifest.transferId from rfl)] at hitem
    split at hitem
    · obtain rfl := Option.some.inj hitem
      exact ⟨rfl, rfl⟩
    · rename_i item' hitem'
      obtain rfl := Option.some.inj hitem
      split_ifs
      · exact h.receiver item' hitem'
      · exact h.receiver item' hitem'
  -- a file that is being received is not offered again; a paused one is claimed, a new one waits
  rw [ResumeState.receiveOffer]
  split
  · exact h
  split
  · rename_i receiver resumed heq
    rw [heq] at hclaimed
    exact Flow.acceptPending
      (h.receiverSide rfl rfl hclaimed (fun _ hmem => .inl hmem) h.active id)
  split
  · exact h
  split
  · rename_i receiver heq
    rw [heq] at hregistered
    exact h.receiverSide rfl rfl hregistered (fun _ hmem => .inl hmem) h.active id
  · exact h

/-- The next chunk is the one that the receiver expects, and is written at the end of the partial
file. -/
theorem Flow.receiveChunk {chunk : Chunk} {rest : List Envelope}
    (hnext : s.toReceiver = .chunk chunk :: rest) :
    Flow relayManifestHash t (ResumeState.receiveChunk t { s with toReceiver := rest } chunk) := by
  have hleads := h.leads
  rw [hnext, chunks_chunk, List.cons_append] at hleads
  obtain ⟨hoffset, hbytes, hne, hleads⟩ := hleads
  obtain ⟨active, hactive⟩ := Option.isSome_iff_exists.mp (h.flowing (by simp [hnext]))
  obtain ⟨hreceived, hsequence⟩ := h.active active hactive
  -- a chunk in flight is not empty, so the partial file is not complete
  have hlt : s.content.length < t.file.length := by
    simp_all
  have hexpected : chunk.sequence = active.nextSequence :=
    Nat.eq_of_mul_eq_mul_right relayFileChunkBytes_pos (hoffset.trans (hsequence hlt).symm)
  obtain ⟨_, hwritten, hafter⟩ := FileTransfer.Offset.next (hsequence hlt) hlt
  rw [← hbytes] at hwritten hafter
  have hif : ¬ (chunk.sequence ≠ active.nextSequence ∨ chunk.bytes = [] ∨
      t.manifest.fileSize < active.receivedBytes + chunk.bytes.length) := by
    grind [FileTransfer.fileSize_eq]
  have hcontent : (s.content ++ chunk.bytes).length = s.content.length + chunk.bytes.length :=
    List.length_append
  rw [ResumeState.receiveChunk]
  rw [hactive]
  dsimp only
  rw [if_neg hif]
  refine
    { content := ?_
      written := ?_
      handed := h.handed
      leads := ?_
      sender := h.sender
      receiver := h.receiver
      attempt := ?_
      active := ?_
      flowing := fun _ => rfl }
  · have htake : (t.file.drop s.content.length).take chunk.bytes.length = chunk.bytes := by
      conv_rhs => rw [hbytes]
      rw [hbytes, List.length_take, List.take_eq_take_iff]
      omega
    change s.content ++ chunk.bytes = t.file.take (s.content ++ chunk.bytes).length
    rw [hcontent, List.take_add, htake, ← h.content]
  · exact hcontent ▸ hwritten
  · exact hcontent ▸ hleads
  · intro attempt hattempt
    refine (h.attempt attempt hattempt).mono rfl (fun hempty => ?_) (fun _ hmem => .inl hmem)
      fun hs => ⟨hs, rfl, fun _ => rfl⟩
    -- A worker that waits has no chunk in flight.
    rw [hnext] at hempty
    cases hempty
  · grind [ResumeState.content]

theorem Flow.deliver : Flow relayManifestHash t (s.deliver relayManifestHash t) := by
  rw [ResumeState.deliver]
  split
  · exact h
  split
  · exact h
  · rename_i rest hnext
    have hrest : chunks s.toReceiver = chunks rest := by rw [hnext, chunks_offer]
    refine Flow.receiveOffer
      { h with
        leads := ?_
        attempt := ?_
        flowing := fun hne => h.flowing (hrest ▸ hne) }
    · exact hrest ▸ h.leads
    · intro attempt hattempt
      exact (h.attempt attempt hattempt).mono rfl (fun hempty => ⟨hrest ▸ hempty, rfl⟩)
        (fun _ hmem => .inl hmem) fun hs => ⟨hs, rfl, id⟩
  · rename_i chunk rest hnext
    exact h.receiveChunk hnext

theorem Flow.record : Flow relayManifestHash t (s.record t) := by
  rw [ResumeState.record]
  split
  · exact h.receiverSide rfl rfl (ReceiverRecord.updateProgress h.receiver _)
      (fun _ hmem => .inl hmem) h.active id
  · exact h

theorem Flow.pauseReceiver : Flow relayManifestHash t (s.pauseReceiver t) := by
  rw [ResumeState.pauseReceiver]
  split_ifs
  · exact h
  · refine h.managers h.sender (ReceiverRecord.mono h.receiver (get?_pausePeerTransfers _ _ _) ?_)
    grind [TransferSession.pausedFor]

/-- What is in flight may get lost from the end, together with the connection. -/
theorem Flow.disconnect {connected : Bool} (hconnected : connected = false)
    {kept dropped : List Envelope} (hsplit : kept ++ dropped = s.toReceiver) :
    Flow relayManifestHash t
      { s with connected := connected, toReceiver := kept, lost := chunks dropped ++ s.lost } := by
  subst hconnected
  have hchunks : chunks s.toReceiver = chunks kept ++ chunks dropped := by
    rw [← hsplit, chunks_append]
  have hleads := h.leads
  rw [hchunks, List.append_assoc] at hleads
  refine
    { h with
      leads := hleads
      attempt := ?_
      flowing := fun hne => h.flowing ?_ }
  · intro attempt hattempt
    refine (h.attempt attempt hattempt).mono rfl (fun hempty => ?_) (fun _ hmem => .inl hmem)
      fun hs => absurd hs Bool.false_ne_true
    rw [hchunks, List.append_eq_nil_iff] at hempty
    exact ⟨hempty.1, rfl⟩
  · simp_all

/-- Without a connection and without envelopes the receiver may give up. -/
theorem Flow.stopped (hconnected : s.connected = false) (hempty : s.toReceiver = [])
    (hreceiver : ReceiverRecord t receiver) :
    Flow relayManifestHash t { s with active := none, receiver := receiver } := by
  have hfalse : s.connected ≠ true := Bool.eq_false_iff.mp hconnected
  refine
    { h with
      receiver := hreceiver
      attempt := ?_
      active := fun _ hactive => (nomatch hactive)
      flowing := fun hne => absurd (congrArg chunks hempty) hne }
  intro attempt hattempt
  exact (h.attempt attempt hattempt).mono rfl (fun hempty => ⟨hempty, rfl⟩)
    (fun _ hmem => .inl hmem) fun hs => absurd hs hfalse

theorem Flow.cleanup : Flow relayManifestHash t (s.cleanup t) := by
  rw [ResumeState.cleanup]
  split
  · exact h
  · rename_i hif
    rw [Bool.or_eq_true, not_or, Bool.not_eq_true] at hif
    refine (h.disconnect hif.1 (List.nil_append s.toReceiver)).stopped hif.1 rfl ?_
    split_ifs
    · exact ReceiverRecord.pauseForNetwork h.receiver
    · exact h.receiver

theorem Flow.lose (envelopes acceptances : ℕ) :
    Flow relayManifestHash t (s.lose envelopes acceptances) := by
  rw [ResumeState.lose]
  split_ifs
  · exact h
  · exact (h.disconnect rfl (List.take_append_drop _ _)).acceptances fun _ hmem =>
      List.mem_of_mem_take hmem

/-- The user's answer lets the file flow, or ends the transfer. -/
theorem Flow.approve :
    Flow relayManifestHash t (s.approve relayManifestHash t) ∨
      (s.approve relayManifestHash t).receiver.get? t.id = none ∧
        (s.approve relayManifestHash t).cancelled = true := by
  rw [ResumeState.approve]
  split
  · exact .inl h
  split
  · exact .inl (h.receiverSide rfl rfl h.receiver (fun _ hmem => .inl hmem) h.active id)
  grind [acceptPending, get?_removeTransfer_self]

/-- **One step** keeps the flow, or ends the transfer. -/
theorem Flow.step (op : ResumeOp) :
    Flow relayManifestHash t (s.step relayManifestHash t op) ∨
      (s.step relayManifestHash t op).receiver.get? t.id = none ∧
        (s.step relayManifestHash t op).cancelled = true := by
  cases op with
  | dispatch => exact .inl h.dispatch
  | accept => exact .inl h.accept
  | send => exact .inl h.send
  | recordSent => exact .inl h.recordSent
  | workerFails => exact .inl h.workerFails
  | teardown => exact .inl h.teardown
  | joinTasks => exact .inl h.joinTasks
  | deliver => exact .inl h.deliver
  | record => exact .inl h.record
  | approve => exact h.approve
  | pauseReceiver => exact .inl h.pauseReceiver
  | cleanup => exact .inl h.cleanup
  | lose envelopes acceptances => exact .inl (h.lose envelopes acceptances)

end

end Steps

theorem flow_initial (relayManifestHash : FileManifest → String) (t : FileTransfer) :
    Flow relayManifestHash t (.initial t) := by
  have hzero : t.Offset 0 := ⟨Nat.zero_le _, .inr (Nat.dvd_zero _)⟩
  refine ⟨rfl, hzero, hzero, rfl, ?_, ?_, ?_, ?_, ?_⟩
  · intro item hitem
    obtain rfl : newSession t.manifest t.receiverId (some t.sourcePath) .offering = item := by
      have hput : (ResumeState.initial t).sender.get? t.id =
          some (newSession t.manifest t.receiverId (some t.sourcePath) .offering) :=
        (Keyed.get?_put _ _ _).trans (if_pos rfl)
      simp_all
    exact ⟨rfl, rfl, hzero, Nat.le_refl _⟩
  · exact fun item hitem => nomatch hitem
  · exact fun attempt hattempt => nomatch hattempt
  · exact fun active hactive => nomatch hactive
  · exact fun hne => absurd rfl hne

/-- **Every run** keeps the flow, until the receiver ends the transfer. -/
theorem flow_run (relayManifestHash : FileManifest → String) (t : FileTransfer)
    (ops : List ResumeOp) :
    let s := (resumeMachine relayManifestHash t).run ops
    Flow relayManifestHash t s ∨ s.receiver.get? t.id = none ∧ s.cancelled = true := by
  induction ops using List.reverseRecOn with
  | nil => exact .inl (flow_initial relayManifestHash t)
  | append_singleton ops op ih =>
    rw [Machine.run_snoc]
    dsimp only [resumeMachine] at ih ⊢
    split_ifs with hcancelled
    · exact ih
    · rcases ih with hflow | hover
      · exact hflow.step op
      · exact absurd hover.2 hcancelled

/-- The bytes of consecutive chunks continue the beginning of the file. -/
theorem FileTransfer.Leads.take_append {sent : List Chunk} {first last : ℕ}
    (h : t.Leads first sent last) :
    t.file.take first ++ sent.flatMap Chunk.bytes = t.file.take last := by
  induction sent generalizing first with
  | nil =>
    obtain rfl : first = last := h
    exact List.append_nil _
  | cons chunk sent ih =>
    obtain ⟨-, hbytes, -, hrest⟩ := h
    have hchunk : chunk.bytes = (t.file.drop first).take chunk.bytes.length :=
      List.prefix_iff_eq_take.mp (hbytes ▸ List.take_prefix _ _)
    rw [← ih hrest, List.take_add, ← hchunk, List.flatMap_cons, List.append_assoc]

/-- **No byte is reordered, duplicated or made up** on the way: at every moment the partial file,
the chunks in flight and the lost ones are, in this order, the beginning of the file that the sender
has handed over; and the partial file ends with a whole chunk. -/
theorem file_bytes_conserved (relayManifestHash : FileManifest → String) (t : FileTransfer)
    (ops : List ResumeOp) :
    let s := (resumeMachine relayManifestHash t).run ops
    s.cancelled = true ∨
      s.content ++ (chunks s.toReceiver ++ s.lost).flatMap Chunk.bytes = t.file.take s.handed ∧
        t.Offset s.content.length := by
  rcases flow_run relayManifestHash t ops with hflow | hover
  · refine .inr ⟨?_, hflow.written⟩
    rw [hflow.content, ← hflow.leads.take_append, ← hflow.content]
  · exact .inl hover.2

/-! ## What the receiver records -/

/-- The next envelope of the receiver is a chunk. -/
def ResumeState.takesChunk (s : ResumeState) : Bool :=
  match s.toReceiver with
  | .chunk _ :: _ => true
  | _ => false

/-- **The receiver records what it writes**: its session is not paused while a chunk is being
written, and it takes no chunk while its session is paused. -/
def RecordsWritten (t : FileTransfer) (s : ResumeState) : ResumeOp → Prop
  | .pauseReceiver => s.connected = true ∨ s.recording = false
  | .deliver => s.takesChunk = true →
      (s.receiver.get? t.id).any (fun item => item.state.isRunning) = true
  | _ => True

/-- The record of the receiver is the length of its partial file, except while a chunk is being
written. -/
structure Recorded (t : FileTransfer) (s : ResumeState) : Prop where
  fresh : s.receiver.get? t.id = none → s.content = []
  record : s.recording = false → ∀ item, s.receiver.get? t.id = some item →
    item.confirmedOffset = s.content.length
  writing : s.recording = true → s.active.isSome = true ∧
    (s.receiver.get? t.id).any (fun item => item.state.isRunning) = true
  waits : s.pending = true → s.active = none

/-- The receiver's part of the state. -/
def ResumeState.receiverPart (s : ResumeState) :
    TransferManager × Bool × Option Receiving × Bool × Option Bytes :=
  (s.receiver, s.pending, s.active, s.recording, s.partFile)

theorem Recorded.congr {s' : ResumeState} (h : Recorded t s)
    (hsame : s'.receiverPart = s.receiverPart) : Recorded t s' := by
  obtain ⟨hfresh, hrecord, hwriting, hwaits⟩ := h
  simp only [ResumeState.receiverPart, Prod.mk.injEq] at hsame
  obtain ⟨hreceiver, hpending, hactive, hrecording, hpart⟩ := hsame
  have hcontent : s'.content = s.content := by rw [ResumeState.content, hpart]; rfl
  constructor
  · rwa [hreceiver, hcontent]
  · rwa [hrecording, hreceiver, hcontent]
  · rwa [hrecording, hactive, hreceiver]
  · rwa [hpending, hactive]

theorem receiverPart_start (offset : ℕ) : (s.start t offset).receiverPart = s.receiverPart := by
  rw [ResumeState.start]
  split_ifs <;> rfl

/-- The steps of the sender and the loss of the connection. -/
theorem receiverPart_step (op : ResumeOp)
    (hop : op ≠ .deliver ∧ op ≠ .record ∧ op ≠ .approve ∧ op ≠ .pauseReceiver ∧ op ≠ .cleanup) :
    (s.step relayManifestHash t op).receiverPart = s.receiverPart := by
  cases op with
  | dispatch =>
    dsimp only [ResumeState.step, ResumeState.dispatch]
    split
    · rfl
    split
    · rfl
    split_ifs
    · exact receiverPart_start 0
    · exact receiverPart_start _
    · rfl
  | accept =>
    dsimp only [ResumeState.step, ResumeState.accept]
    split
    · split_ifs
      · rfl
      · split <;> rfl
    · rfl
  | workerFails =>
    dsimp only [ResumeState.step, ResumeState.workerFails]
    split
    · split <;> rfl
    · split <;> rfl
    · rfl
  | send =>
    dsimp only [ResumeState.step, ResumeState.send]
    split
    · split_ifs <;> rfl
    · rfl
  | recordSent =>
    dsimp only [ResumeState.step, ResumeState.recordSent]
    split <;> rfl
  | teardown =>
    dsimp only [ResumeState.step, ResumeState.teardown]
    split_ifs <;> rfl
  | joinTasks =>
    dsimp only [ResumeState.step, ResumeState.joinTasks]
    split_ifs <;> rfl
  | lose envelopes acceptances =>
    dsimp only [ResumeState.step, ResumeState.lose]
    split_ifs <;> rfl
  | _ => simp at hop

section

variable (h : Recorded t s)

include h

theorem Recorded.idle (hactive : s.active = none) : s.recording = false := by
  by_contra hrecording
  have hreceiving := (h.writing (by simpa using hrecording)).1
  simp [hactive] at hreceiving

/-- A step of the receiver that is not in the middle of a write: the partial file stays, and a
record that changes becomes its length. -/
theorem Recorded.settled {s' : ResumeState} (hcontent : s'.content = s.content)
    (hrecording : s'.recording = false) (hwaits : s'.pending = true → s'.active = none)
    (hgone : s'.receiver.get? t.id = none → s.receiver.get? t.id = none)
    (hrecord : ∀ item, s'.receiver.get? t.id = some item →
      item.confirmedOffset = s.content.length) : Recorded t s' where
  fresh hnone := hcontent.trans (h.fresh (hgone hnone))
  record _ item hitem := hcontent ▸ hrecord item hitem
  writing hwriting := absurd hwriting (Bool.eq_false_iff.mp hrecording)
  waits := hwaits

theorem Recorded.acceptPending (hwritten : t.Offset s.content.length) (hactive : s.active = none) :
    Recorded t (s.acceptPending relayManifestHash t).1 := by
  have hidle := h.idle hactive
  have hrecord := h.record hidle
  have hoffset : existingPartialOffset t.manifest s.partFile = s.content.length :=
    existingPartialOffset_eq hwritten.1
  have hopened := getD_openPartFile s.partFile
  have hmarked : ∀ item, (markTransferring
      (updateProgress s.receiver t.id s.content.length).1 t.id).1.get? t.id = some item →
      item.confirmedOffset = s.content.length := by
    grind [get?_markTransferring, get?_updateProgress, Option.map_eq_some_iff]
  have hkept : (markTransferring (updateProgress s.receiver t.id s.content.length).1 t.id).1.get?
      t.id = none → s.receiver.get? t.id = none := by
    simp [get?_markTransferring, get?_updateProgress]
  rw [ResumeState.acceptPending, hoffset]
  split
  · exact h.settled rfl hidle (by simp) id hrecord
  split
  · exact h.settled hopened hidle (by simp) id hrecord
  generalize markTransferring (updateProgress s.receiver t.id s.content.length).1 t.id =
    marked at hmarked hkept
  rcases marked with ⟨receiver, _ | _⟩
  · exact h.settled hopened hidle (by simp) hkept hmarked
  split_ifs
  · refine h.settled hopened hidle (fun _ => hactive) ?_ ?_
    · simpa [get?_pauseForNetwork] using hkept
    · grind [get?_pauseForNetwork, Option.map_eq_some_iff]
  · exact h.settled hopened hidle (by simp) hkept hmarked

theorem Recorded.receiveOffer (hwritten : t.Offset s.content.length)
    (hidle : s.recording = false) : Recorded t (s.receiveOffer relayManifestHash t) := by
  have hrecord := h.record hidle
  rw [ResumeState.receiveOffer]
  split
  · exact h
  rename_i hactive
  replace hactive : s.active = none := by simpa using hactive
  split
  · rename_i receiver resumed heq
    have hget : (claimIncomingResume s.receiver t.manifest t.senderId).1.get? t.id = _ :=
      get?_claimIncomingResume.trans (if_pos rfl)
    rw [heq] at hget
    refine Recorded.acceptPending (h.settled rfl hidle (fun _ => hactive) ?_ ?_) hwritten hactive
    · simp [hget]
    · grind [Option.map_eq_some_iff]
  split
  · exact h
  split
  · rename_i receiver heq
    have hget : (registerIncoming s.receiver t.manifest t.senderId).1.get? t.id = _ :=
      get?_registerIncoming.trans (if_pos rfl)
    rw [heq] at hget
    refine h.settled rfl hidle (fun _ => hactive) ?_ ?_
    · grind
    · have hfresh := h.fresh
      grind [newSession]
  · exact h

theorem Recorded.receiveChunk {chunk : Chunk}
    (hrunning : (s.receiver.get? t.id).any (fun item => item.state.isRunning) = true) :
    Recorded t (s.receiveChunk t chunk) := by
  rw [ResumeState.receiveChunk]
  split
  · exact h.congr rfl
  · rename_i active hactive
    split_ifs
    · exact h.congr rfl
    · refine ⟨?_, by simp, fun _ => ⟨rfl, hrunning⟩, ?_⟩
      · grind
      · have hwaits := h.waits
        grind

theorem Recorded.deliver (hwritten : t.Offset s.content.length)
    (hop : RecordsWritten t s .deliver) : Recorded t (s.deliver relayManifestHash t) := by
  rw [ResumeState.deliver]
  split
  · exact h
  rename_i hidle
  split
  · exact h
  · exact Recorded.receiveOffer (h.congr rfl) hwritten (Bool.eq_false_iff.mpr hidle)
  · rename_i chunk rest hnext
    refine Recorded.receiveChunk (s := { s with toReceiver := rest }) (h.congr rfl) (hop ?_)
    rw [ResumeState.takesChunk, hnext]

theorem Recorded.recordWritten (hactive : ∀ active, s.active = some active →
    active.receivedBytes = s.content.length) : Recorded t (s.record t) := by
  rw [ResumeState.record]
  split
  · rename_i active hrecording hactive'
    have hrunning := (h.writing hrecording).2
    have hwaits := h.waits
    refine h.settled rfl rfl hwaits ?_ ?_
    · simp [get?_updateProgress]
    · rw [hactive active hactive']
      grind [get?_updateProgress, Option.map_eq_some_iff]
  · exact h

theorem Recorded.pauseReceiver (hop : RecordsWritten t s .pauseReceiver) :
    Recorded t (s.pauseReceiver t) := by
  rw [ResumeState.pauseReceiver]
  split_ifs with hconnected
  · exact h
  · have hidle : s.recording = false := hop.resolve_left hconnected
    have hrecord := h.record hidle
    refine h.settled rfl hidle h.waits ?_ ?_
    · simp [get?_pausePeerTransfers]
    · grind [get?_pausePeerTransfers, Option.map_eq_some_iff, TransferSession.pausedFor]

theorem Recorded.cleanup : Recorded t (s.cleanup t) := by
  rw [ResumeState.cleanup]
  split
  · exact h
  · rename_i hif
    rw [Bool.or_eq_true, not_or, Bool.not_eq_true, Bool.not_eq_true] at hif
    have hrecord := h.record hif.2
    refine h.settled rfl hif.2 (fun _ => rfl) ?_ ?_
    · grind [get?_pauseForNetwork, Option.map_eq_none_iff]
    · grind [get?_pauseForNetwork, Option.map_eq_some_iff]

theorem Recorded.approve (hwritten : t.Offset s.content.length) :
    Recorded t (s.approve relayManifestHash t) := by
  rw [ResumeState.approve]
  split
  · exact h
  rename_i hpending
  have hactive := h.waits (by simpa using hpending)
  split
  · exact h.settled rfl (h.idle hactive) (by simp) id
      (h.record (h.idle hactive))
  have haccepted : Recorded t (s.acceptPending relayManifestHash t).1 :=
    h.acceptPending hwritten hactive
  have hidle : (s.acceptPending relayManifestHash t).1.recording = s.recording := by
    grind [ResumeState.acceptPending]
  generalize s.acceptPending relayManifestHash t = result at haccepted hidle ⊢
  rcases result with ⟨accepted, _ | _⟩
  · refine ⟨fun _ => rfl, ?_, ?_, fun _ => rfl⟩
    · intro _ item hitem
      simp [get?_removeTransfer_self] at hitem
    · intro hrecording
      simp_all [h.idle hactive]
  · exact haccepted

/-- **One step keeps the record.** -/
theorem Recorded.step (hflow : Flow relayManifestHash t s) (op : ResumeOp)
    (hop : RecordsWritten t s op) : Recorded t (s.step relayManifestHash t op) := by
  cases op with
  | deliver => exact h.deliver hflow.written hop
  | record => exact h.recordWritten fun active hactive => (hflow.active active hactive).1
  | approve => exact h.approve hflow.written
  | pauseReceiver => exact h.pauseReceiver hop
  | cleanup => exact h.cleanup
  | _ => exact h.congr (receiverPart_step _ (by simp))

end

theorem recorded_run {ops : List ResumeOp}
    (h : (resumeMachine relayManifestHash t).Along (RecordsWritten t) ops) :
    Recorded t ((resumeMachine relayManifestHash t).run ops) := by
  induction ops using List.reverseRecOn with
  | nil =>
    refine ⟨fun _ => rfl, fun _ item hitem => ?_, fun hrecording => ?_, fun _ => rfl⟩
    · cases hitem
    · cases hrecording
  | append_singleton ops op ih =>
    obtain ⟨hbefore, hop⟩ := ((resumeMachine relayManifestHash t).alongFrom_snoc _ ops op).mp h
    have hrecorded := ih hbefore
    rw [Machine.run_snoc]
    dsimp only [resumeMachine] at hrecorded hop ⊢
    split_ifs with hcancelled
    · exact hrecorded
    · rcases flow_run relayManifestHash t ops with hflow | hover
      · exact hrecorded.step hflow op hop
      · exact absurd hover.2 hcancelled

/-! ## Resuming -/

/-- The offset that a manager has recorded for a transfer. -/
def confirmedOffset (manager : TransferManager) (id : String) : ℕ :=
  ((manager.get? id).map TransferSession.confirmedOffset).getD 0

/-- **Both sides have paused**: the connection is gone, with the workers on it, and the sessions
wait for the next one. -/
structure BothPaused (t : FileTransfer) (s : ResumeState) : Prop where
  connected : s.connected = false
  attempt : s.attempt = none
  active : s.active = none
  recording : s.recording = false
  sender : (s.sender.get? t.id).map TransferSession.state = some .paused
  receiver : (s.receiver.get? t.id).map TransferSession.state = some .paused

/-- **The transfer resumes**: on a new connection the receiver answers the offer with the length of
its partial file, which is what it has recorded; the sender's check accepts this, and the sender
goes on with the chunk at this offset. -/
def Resumes (relayManifestHash : FileManifest → String) (t : FileTransfer) (s : ResumeState) :
    Prop :=
  let offered := (s.dispatch t).deliver relayManifestHash t
  ∃ acceptance, offered.toSender = [acceptance] ∧ acceptance.offset = s.content.length ∧
    acceptance.offset = confirmedOffset s.receiver t.id ∧
    acceptanceMatches relayManifestHash t.manifest (confirmedOffset s.sender t.id) acceptance =
      true ∧
    (offered.accept relayManifestHash t).attempt = some ⟨confirmedOffset s.sender t.id,
      .sending (acceptance.offset / relayFileChunkBytes) acceptance.offset⟩

/-- The chunks that were handed over and never written: lost, or in flight on a connection that is
gone. -/
def ResumeState.unreceived (s : ResumeState) : List Chunk := chunks s.toReceiver ++ s.lost

section Resuming

theorem acceptanceMatches_relayAcceptance {offset written : ℕ} (hwritten : t.Offset written) :
    acceptanceMatches relayManifestHash t.manifest offset
        (relayAcceptance relayManifestHash t written) = true ↔ offset ≤ written := by
  grind [acceptanceMatches, relayAcceptance, FileTransfer.id, eqIgnoreAsciiCase,
    validRelayOffset_of_offset]

variable {item : TransferSession}

/-- A paused transfer is offered again, from `offset` on. -/
def ResumeState.offerAgain (t : FileTransfer) (s : ResumeState) (offset : ℕ) : ResumeState :=
  { s with
    sender := (takeResumableForPeer (fun _ => 0) s.sender t.receiverId "").1
    attempt := some ⟨offset, .waiting⟩
    connected := true
    toReceiver := [.offer]
    toSender := []
    lost := chunks s.toReceiver ++ s.lost }

theorem dispatch_paused (hconnected : s.connected = false) (hattempt : s.attempt = none)
    (hitem : s.sender.get? t.id = some item) (hstate : item.state = .paused)
    (hoffset : t.Offset item.confirmedOffset) :
    s.dispatch t = s.offerAgain t item.confirmedOffset := by
  grind [ResumeState.dispatch, ResumeState.start, ResumeState.offerAgain,
    validRelayOffset_of_offset]

/-- The receiver's answer, when its record is the length of its partial file. -/
theorem acceptPending_resuming (hwritten : t.Offset s.content.length)
    (hconnected : s.connected = true) (hitem : s.receiver.get? t.id = some item)
    (hstate : item.state = .resuming) (hrecorded : item.confirmedOffset = s.content.length) :
    (s.acceptPending relayManifestHash t).1.toSender =
        s.toSender ++ [relayAcceptance relayManifestHash t s.content.length] ∧
      (s.acceptPending relayManifestHash t).1.sender = s.sender ∧
      (s.acceptPending relayManifestHash t).1.attempt = s.attempt := by
  have hoffset : existingPartialOffset t.manifest s.partFile = s.content.length :=
    existingPartialOffset_eq hwritten.1
  have hdiffers : checkpointDiffers s.receiver t.id s.content.length = false := by
    grind [checkpointDiffers]
  have hprogress : (updateProgress s.receiver t.id s.content.length).1.get? t.id =
      some { item with confirmedOffset := s.content.length } := by
    rw [get?_updateProgress, if_pos rfl, hitem, Option.map_some, hstate]
    rfl
  have hmay : TransferState.mayStart item.state = true := by
    rw [hstate]
    rfl
  have hmarked : markTransferring (updateProgress s.receiver t.id s.content.length).1 t.id =
      (_, true) := transition_of_allowed hprogress hmay
  grind [ResumeState.acceptPending, validRelayOffset_of_offset]

theorem confirmedOffset_of_get? {manager : TransferManager} {id : String}
    (h : manager.get? id = some item) : confirmedOffset manager id = item.confirmedOffset := by
  rw [confirmedOffset, h]
  rfl

/-- The receiver takes the new offer. -/
theorem deliver_offer {rest : List Envelope} (hrecording : s.recording = false)
    (hnext : s.toReceiver = .offer :: rest) (hactive : s.active = none)
    (hitem : s.receiver.get? t.id = some item)
    (hpaused : item.isPausedFor t.manifest t.senderId = true) :
    s.deliver relayManifestHash t =
      (ResumeState.acceptPending relayManifestHash t
        { s with
          toReceiver := rest
          receiver := s.receiver.put { item with state := .resuming }
          pending := true }).1 := by
  have hclaim : claimIncomingResume s.receiver t.manifest t.senderId =
      (s.receiver.put { item with state := .resuming }, some item.confirmedOffset) := by
    rw [claimIncomingResume, show s.receiver.get? t.manifest.transferId = some item from hitem]
    exact if_pos hpaused
  grind [ResumeState.deliver, ResumeState.receiveOffer]

/-- The sender goes on from an acceptance that its check accepts. -/
theorem attempt_accept {offset : ℕ} {acceptance : RelayAcceptance}
    (hattempt : s.attempt = some ⟨offset, .waiting⟩) (hsent : s.toSender = [acceptance])
    (hmatches : acceptanceMatches relayManifestHash t.manifest offset acceptance = true)
    (hitem : s.sender.get? t.id = some item) (hmay : item.state.mayStart = true) :
    (s.accept relayManifestHash t).attempt = some ⟨offset,
      .sending (acceptance.offset / relayFileChunkBytes) acceptance.offset⟩ := by
  have hmarked : markTransferring s.sender t.id = (_, true) := transition_of_allowed hitem hmay
  grind [ResumeState.accept]

/-- **What becomes of a new offer**: the receiver answers if its record is the length of its partial
file, and the sender goes on if its own record is not beyond it. -/
theorem resumes_iff_records (hflow : Flow relayManifestHash t s) (hpaused : BothPaused t s) :
    Resumes relayManifestHash t s ↔
      confirmedOffset s.sender t.id ≤ s.content.length ∧
        confirmedOffset s.receiver t.id = s.content.length := by
  obtain ⟨item, hitem, hstate⟩ := Option.map_eq_some_iff.mp hpaused.sender
  obtain ⟨item', hitem', hstate'⟩ := Option.map_eq_some_iff.mp hpaused.receiver
  have hrecord := hflow.sender item hitem
  have hown := hflow.receiver item' hitem'
  have hoffer := dispatch_paused hpaused.connected hpaused.attempt hitem hstate hrecord.offset
  have hpausedFor : item'.isPausedFor t.manifest t.senderId = true :=
    decide_eq_true ⟨hstate', hown.2, hown.1⟩
  have hresuming : (s.receiver.put { item' with state := .resuming }).get? t.id =
      some { item' with state := .resuming } :=
    (Keyed.get?_put _ _ _).trans (if_pos (Keyed.key_of_get? hitem').symm)
  have htaken : (takeResumableForPeer (fun _ => 0) s.sender t.receiverId "").1.get? t.id =
      some { item with state := .resuming } := by
    grind [get?_takeResumableForPeer, TransferSession.takenFor, SenderRecord.peerId,
      SenderRecord.sourcePath]
  have hanswer : (s.dispatch t).deliver relayManifestHash t =
      (ResumeState.acceptPending relayManifestHash t
        { s.offerAgain t item.confirmedOffset with
          toReceiver := []
          receiver := s.receiver.put { item' with state := .resuming }
          pending := true }).1 := by
    rw [hoffer]
    exact deliver_offer hpaused.recording rfl hpaused.active hitem' hpausedFor
  rw [Resumes, confirmedOffset_of_get? hitem, confirmedOffset_of_get? hitem']
  -- the receiver answers if and only if it has recorded what it has written
  by_cases hrecorded : item'.confirmedOffset = s.content.length
  · obtain ⟨hsent, hsender, hattempt⟩ : ((s.dispatch t).deliver relayManifestHash t).toSender =
        [relayAcceptance relayManifestHash t s.content.length] ∧
      ((s.dispatch t).deliver relayManifestHash t).sender =
        (takeResumableForPeer (fun _ => 0) s.sender t.receiverId "").1 ∧
      ((s.dispatch t).deliver relayManifestHash t).attempt =
        some ⟨item.confirmedOffset, .waiting⟩ := by
      rw [hanswer]
      exact acceptPending_resuming hflow.written rfl hresuming rfl hrecorded
    constructor
    · rintro ⟨acceptance, hanswered, _, _, hmatches, _⟩
      obtain rfl := List.singleton_inj.mp (hsent.symm.trans hanswered)
      exact ⟨(acceptanceMatches_relayAcceptance hflow.written).mp hmatches, hrecorded⟩
    · rintro ⟨hle, _⟩
      have hmatches : acceptanceMatches relayManifestHash t.manifest item.confirmedOffset
          (relayAcceptance relayManifestHash t s.content.length) = true :=
        (acceptanceMatches_relayAcceptance hflow.written).mpr hle
      refine ⟨_, hsent, rfl, hrecorded.symm, hmatches, ?_⟩
      exact attempt_accept hattempt hsent hmatches (hsender ▸ htaken) rfl
  · omega

end Resuming

/-! ### Two runs with a small file -/

/-- Three bytes from `phone` to `laptop`. -/
def smallTransfer : FileTransfer where
  manifest := ⟨"t", "a.txt", 3, 0,
    "0123456789abcdef0123456789abcdef0123456789abcdef0123456789abcdef",
    networkTransferProtocolVersion⟩
  file := [1, 2, 3]
  sourcePath := "/tmp/a.txt"
  senderId := "phone"
  receiverId := "laptop"
  fileSize_eq := rfl
  valid := by decide +kernel

/-- The file is offered and accepted, and its only chunk is handed over and recorded. -/
def sentRun : List ResumeOp := [.dispatch, .deliver, .approve, .accept, .send, .recordSent]

/-- The chunk arrives before the connection is lost. -/
def arrivedRun : List ResumeOp :=
  sentRun ++ [.deliver, .record, .lose 0 0, .workerFails, .cleanup]

/-- The chunk is lost with the connection. -/
def lostRun : List ResumeOp := sentRun ++ [.lose 1 0, .workerFails, .cleanup]

theorem bothPaused_arrivedRun :
    BothPaused smallTransfer ((resumeMachine (fun _ => "") smallTransfer).run arrivedRun) := by
  constructor <;> decide +kernel

theorem recordsWritten_arrivedRun :
    (resumeMachine (fun _ => "") smallTransfer).Along (RecordsWritten smallTransfer)
      arrivedRun := by
  refine ⟨trivial, ?_, trivial, trivial, trivial, trivial, ?_, trivial, trivial, trivial, trivial,
    trivial⟩
  · exact fun htakes => by cases htakes
  · exact fun _ => by decide +kernel

theorem bothPaused_lostRun :
    BothPaused smallTransfer ((resumeMachine (fun _ => "") smallTransfer).run lostRun) := by
  constructor <;> decide +kernel

/-- **When a paused transfer resumes**, of every run in which the receiver records what it writes:
when the sender has recorded none of the chunks that never arrived. -/
theorem resumes_iff (relayManifestHash : FileManifest → String) (t : FileTransfer)
    (ops : List ResumeOp)
    (hrecords : (resumeMachine relayManifestHash t).Along (RecordsWritten t) ops)
    (hpaused : BothPaused t ((resumeMachine relayManifestHash t).run ops)) :
    let s := (resumeMachine relayManifestHash t).run ops
    Resumes relayManifestHash t s ↔
      ∀ chunk ∈ s.unreceived, confirmedOffset s.sender t.id ≤ chunk.offset := by
  rcases flow_run relayManifestHash t ops with hflow | hover
  · obtain ⟨item, hitem, _⟩ := Option.map_eq_some_iff.mp hpaused.sender
    have hle : confirmedOffset ((resumeMachine relayManifestHash t).run ops).sender t.id ≤
        ((resumeMachine relayManifestHash t).run ops).handed :=
      confirmedOffset_of_get? hitem ▸ (hflow.sender item hitem).le_handed
    obtain ⟨item', hitem', _⟩ := Option.map_eq_some_iff.mp hpaused.receiver
    have hrecorded : confirmedOffset ((resumeMachine relayManifestHash t).run ops).receiver t.id =
        ((resumeMachine relayManifestHash t).run ops).content.length :=
      (confirmedOffset_of_get? hitem').trans
        ((recorded_run hrecords).record hpaused.recording item' hitem')
    dsimp only
    rw [resumes_iff_records hflow hpaused, hflow.leads.le_iff hle, and_iff_left hrecorded]
    rfl
  · have hreceiver := hpaused.receiver
    rw [hover.1] at hreceiver
    cases hreceiver

/-- Nothing was lost: the transfer resumes at its end. -/
theorem resumes_iff_arrivedRun :
    Resumes (fun _ => "") smallTransfer
      ((resumeMachine (fun _ => "") smallTransfer).run arrivedRun) :=
  (resumes_iff (fun _ => "") smallTransfer arrivedRun recordsWritten_arrivedRun
    bothPaused_arrivedRun).mpr (by decide +kernel)

/-- **A chunk that was lost after the sender recorded it** ends the transfer: the receiver asks for
the file from its start, and the sender refuses. -/
theorem lost_chunk_ends_transfer :
    BothPaused smallTransfer ((resumeMachine (fun _ => "") smallTransfer).run lostRun) ∧
      ¬ Resumes (fun _ => "") smallTransfer
        ((resumeMachine (fun _ => "") smallTransfer).run lostRun) := by
  refine ⟨bothPaused_lostRun, ?_⟩
  rcases flow_run (fun _ => "") smallTransfer lostRun with hflow | hover
  · rw [resumes_iff_records hflow bothPaused_lostRun]
    decide +kernel
  · exact absurd hover.2 (by decide +kernel)

end SshMobile.Relay
