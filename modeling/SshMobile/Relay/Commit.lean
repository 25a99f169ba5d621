import SshMobile.Relay.Receipt

/-!
# Only verified content is committed

While a file is being received, its partial file holds the checkpoint and the chunks that were
accepted since, in order, and the hash runs over exactly these bytes. The final path is only made by
a rename, of content that has the announced size and hash, and what is at the final path is never
changed.

This rests on the partial file and the final path being different places, which nothing checks: the
partial file of the transfer `t` is `t.part`, and a file of that name may be offered. It also rests
on writes that do not fail, since a failure is reported by the next call only, after the hash and
the counters have taken the bytes, and on look-ups of the final path that do not fail.

## Main definitions

* `ReceivedSoFar`: what a file that is being received has on disk
* `StepCommits`: what a call may do
* `Spoils`: what a call must not meet for that

## Main results

* `callCommits`: what one call preserves and commits that spoils nothing
* `commits_verified`: a run commits only verified content if none of its calls spoils it
-/

namespace SshMobile.Relay

open Library Transfer Action ReceiptState

section Commit

variable {σ L : Type} [DecidableEq L] (codec : RelayCodec) (services : RelayServices σ)
  (locate : String → L) (incoming : IncomingFile)

/-! ## What calls may do -/

/-- The chunks that were accepted, one after the other. -/
def ReceiptState.acceptedBytes (s : ReceiptState σ L) : Bytes := (s.accepted.map Prod.snd).flatten

/-- **What has been received so far** is on disk and hashed: the checkpoint and then the accepted
chunks, which have consecutive numbers. -/
structure ReceivedSoFar (s : ReceiptState σ L) (active : ActiveRelayIncoming) : Prop where
  content : bytesAt s.runtime.files (locate incoming.temporaryPath) =
    s.checkpoint ++ s.acceptedBytes
  receivedBytes : active.receivedBytes =
    (bytesAt s.runtime.files (locate incoming.temporaryPath)).length
  receivedBytes_le : active.receivedBytes ≤ incoming.manifest.fileSize
  hasher : active.hasher = bytesAt s.runtime.files (locate incoming.temporaryPath)
  consecutive : s.accepted.map Prod.fst =
    List.range' (s.checkpoint.length / relayFileChunkBytes) s.accepted.length

/-- The verdict of a call that completes the file. -/
def verdict (s : ReceiptState σ L) : ReceiptOp L → Option (ActiveRelayIncoming × Completion)
  | .complete env sessionOrTransferId senderId =>
    (completionTarget (env.withPaths locate) s.runtime sessionOrTransferId).map fun target =>
      (target.2, completion codec (env.withPaths locate) s.runtime.files target.2 senderId)
  | .offer _ _ _ _ _ | .accept _ | .chunk _ _ _ _ | .interrupt => none

/-- The verdicts after which the completion is acknowledged. -/
def Completion.acknowledged : Completion → Bool
  | .alreadyCompleted | .identical | .renamed => true
  | .failed _ _ | .abandoned _ => false

/-- **A call commits only verified content.** -/
structure StepCommits (s : ReceiptState σ L) (op : ReceiptOp L) : Prop where
  /-- What has been received is on disk and hashed. -/
  receiving : ∀ active,
    (receiptStep codec services locate incoming s op).1.runtime.transfers.activeIncoming.get?
      incoming.transferId = some active → active.alreadyCompleted = false →
    ReceivedSoFar locate incoming (receiptStep codec services locate incoming s op).1 active
  /-- The final path is made by a rename of verified content. -/
  created : s.runtime.files.look (locate incoming.finalPath) = none →
    (receiptStep codec services locate incoming s op).1.runtime.files.look
      (locate incoming.finalPath) ≠ none →
    (∃ active, verdict codec locate s op = some (active, .renamed)) ∧
      VerifiedAt codec incoming.manifest
        (receiptStep codec services locate incoming s op).1.runtime.files
        (locate incoming.finalPath)
  /-- A completion that is acknowledged has verified content at the final path. -/
  acknowledged : ∀ active completion, verdict codec locate s op = some (active, completion) →
    completion.acknowledged = true →
    VerifiedAt codec incoming.manifest
      (receiptStep codec services locate incoming s op).1.runtime.files
      (locate incoming.finalPath)
  /-- What is at the final path is not changed. -/
  kept : s.runtime.files.look (locate incoming.finalPath) ≠ none →
    (receiptStep codec services locate incoming s op).1.runtime.files.look
        (locate incoming.finalPath) =
      s.runtime.files.look (locate incoming.finalPath)

/-! ## What spoils a file -/

/-- The final path leads to the partial file: it is the same place, or another name of the file. -/
def SharesPlace (files : FileStore L) : Prop :=
  locate incoming.finalPath = locate incoming.temporaryPath ∨
    ∃ id, files.entries.get? (locate incoming.finalPath) = some (.file id) ∧
      files.entries.get? (locate incoming.temporaryPath) = some (.file id)

/-- **The calls that can spoil a file**, by what they meet. -/
inductive Spoils (s : ReceiptState σ L) : ReceiptOp L → Prop
  /-- The final path leads to the partial file. -/
  | shares {op : ReceiptOp L} (hop : op ≠ .interrupt)
      (hshares : SharesPlace locate incoming s.runtime.files) : Spoils s op
  /-- The write of a chunk fails; the call that handed it to the file does not report it. -/
  | fails {env : CallEnv L} {sessionId : String} {sequence : UInt64} {ciphertext : Bytes}
      (hfault : env.faults.write ≠ none) : Spoils s (.chunk env sessionId sequence ciphertext)
  /-- Something is at the final path when the file is completed, and it cannot be looked at. -/
  | overlooks {env : CallEnv L} {sessionOrTransferId : String} {senderId : Option String}
      (hfault : env.faults.lookDestination = true)
      (hfinal : s.runtime.files.entries.get? (locate incoming.finalPath) ≠ none) :
      Spoils s (.complete env sessionOrTransferId senderId)

/-! ## What the calls preserve -/

/-- A file that is being received, with its open file and the number of the next chunk. -/
structure BeingReceived (s : ReceiptState σ L) (active : ActiveRelayIncoming) : Prop extends
    ReceivedSoFar locate incoming s active where
  file : ∃ file, active.file = some file ∧
    s.runtime.files.entries.get? (locate incoming.temporaryPath) = some (.file file.id) ∧
    file.position = active.receivedBytes ∧ file.failed = false
  next : active.nextSequence =
    s.checkpoint.length / relayFileChunkBytes + s.accepted.length
  next_le : active.nextSequence ≤ active.receivedBytes

/-- The record of a file: it is being received, or verified content was at the final path. -/
structure RecordInv (s : ReceiptState σ L) (active : ActiveRelayIncoming) : Prop where
  manifest : active.offer.manifest = incoming.manifest
  temporaryPath : active.temporaryPath = incoming.temporaryPath
  finalPath : active.finalPath = incoming.finalPath
  completed : active.alreadyCompleted = true →
    VerifiedAt codec incoming.manifest s.runtime.files (locate incoming.finalPath)
  receiving : active.alreadyCompleted = false → BeingReceived locate incoming s active

/-- **What calls preserve that spoil nothing**: all records are of the file, an offer is not
recorded while the file is being received, and what was received is on disk. -/
structure ReceiptInv (s : ReceiptState σ L) : Prop where
  directory : ∀ directory, s.runtime.receiveDirectory = some directory →
    directory = incoming.directory
  pending : ∀ id pending, s.runtime.transfers.pendingIncoming.get? id = some pending →
    id = incoming.transferId ∧ pending.manifest = incoming.manifest
  active : ∀ id active, s.runtime.transfers.activeIncoming.get? id = some active →
    id = incoming.transferId ∧ RecordInv codec locate incoming s active
  apart : s.runtime.transfers.pendingIncoming.get? incoming.transferId = none ∨
    s.runtime.transfers.activeIncoming.get? incoming.transferId = none

variable {codec services locate incoming} {s : ReceiptState σ L}

variable {op : ReceiptOp L}

section

variable {t : ReceiptState σ L} (hstep : (receiptStep codec services locate incoming s op).1 = t)

include hstep

/-- A call that leaves the final path alone commits nothing. -/
theorem stepCommits_of_look
    (hlook : t.runtime.files.look (locate incoming.finalPath) =
      s.runtime.files.look (locate incoming.finalPath))
    (hinv : ReceiptInv codec locate incoming t)
    (hack : ∀ active completion, verdict codec locate s op = some (active, completion) →
      completion.acknowledged = true →
      VerifiedAt codec incoming.manifest s.runtime.files (locate incoming.finalPath)) :
    StepCommits codec services locate incoming s op where
  receiving := by
    intro active hactive hcompleted
    rw [hstep] at hactive ⊢
    exact ((hinv.active _ active hactive).2.receiving hcompleted).toReceivedSoFar
  created := by
    simp_all
  acknowledged := by
    intro active completion hverdict hacknowledged
    rw [hstep]
    exact (hack active completion hverdict hacknowledged).of_look hlook
  kept := fun _ => hstep ▸ hlook

end

theorem runtime_opened (runtime : RelayRuntime σ L) :
    (s.opened locate incoming runtime).runtime = runtime := by
  rw [opened]
  split <;> rfl

variable {runtime : RelayRuntime σ L} {active : ActiveRelayIncoming} {env : CallEnv L}
  {pending : PendingRelayIncoming} {files : FileStore L}

theorem opened_of_none (h : runtime.transfers.activeIncoming.get? incoming.transferId = none) :
    s.opened locate incoming runtime = { s with runtime := runtime } := by
  grind [opened]

theorem opened_of_some (hnone : s.runtime.transfers.activeIncoming.get? incoming.transferId = none)
    (h : runtime.transfers.activeIncoming.get? incoming.transferId = some active) :
    s.opened locate incoming runtime =
      { runtime := runtime
        checkpoint :=
          (bytesAt s.runtime.files (locate incoming.temporaryPath)).take active.receivedBytes
        accepted := [] } := by
  rw [opened, hnone, h]

/-- The record of a file that was opened. -/
theorem recordInv_activeOf {opened : Opened} {action : Action L}
    (hmanifest : pending.manifest = incoming.manifest)
    (hopen : openIncoming codec (env.withPaths locate) s.runtime.files pending
      incoming.directory = (action, .ok opened))
    (hfiles : runtime.files = action.apply s.runtime.files) :
    RecordInv codec locate incoming
      { runtime := runtime
        checkpoint :=
          (bytesAt s.runtime.files (locate incoming.temporaryPath)).take opened.offset
        accepted := [] } (activeOf pending incoming.directory opened) := by
  have htemporary : relayPartialPath incoming.directory pending.manifest.transferId =
      incoming.temporaryPath := by
    rw [hmanifest, IncomingFile.temporaryPath]
  have hfinal : finalPath incoming.directory pending.manifest = incoming.finalPath := by
    rw [hmanifest, IncomingFile.finalPath]
  rcases openIncoming_ok hopen with ⟨rfl, rfl, hverified⟩ | ⟨hle, hcompleted, file, hopened⟩
  · refine ⟨hmanifest, htemporary, hfinal, fun _ => ?_, fun h => nomatch h⟩
    rw [hfinal, hmanifest] at hverified
    rw [hfiles]
    exact hverified
  · refine ⟨hmanifest, htemporary, hfinal, fun h => ?_, fun _ => ?_⟩
    · exact absurd (hcompleted.symm.trans h) Bool.false_ne_true
    rw [htemporary] at hopened
    rw [hmanifest] at hle
    have hbytes : bytesAt runtime.files (locate incoming.temporaryPath) = opened.hasher := by
      rw [hfiles]
      exact (bytesAt_file hopened.entry).trans hopened.content
    have hcheckpoint : (bytesAt s.runtime.files (locate incoming.temporaryPath)).take
        opened.offset = opened.hasher := hopened.hasher.symm
    rw [hcheckpoint]
    refine ⟨⟨?_, ?_, hle, hbytes.symm, rfl⟩,
      ⟨file, hopened.opened_file, ?_, hopened.position, hopened.written⟩, ?_, Nat.div_le_self _ _⟩
    · exact hbytes.trans (List.append_nil _).symm
    · rw [hbytes]
      exact hopened.length.symm
    · rw [hfiles]
      exact hopened.entry
    · rw [hopened.length]
      rfl

/-- **The file is opened**: from a state without a record of the file. -/
theorem receiptInv_opened {runtime' : RelayRuntime σ L}
    (heffect : AcceptEffect codec (env.withPaths locate) pending runtime runtime')
    (hdirectory : ∀ directory, runtime.receiveDirectory = some directory →
      directory = incoming.directory)
    (hpending : ∀ id pending, runtime.transfers.pendingIncoming.get? id = some pending →
      id = incoming.transferId ∧ pending.manifest = incoming.manifest)
    (hactive : ∀ id, runtime.transfers.activeIncoming.get? id = none)
    (hmanifest : pending.manifest = incoming.manifest)
    (hkey : pending.transferId = incoming.transferId)
    (hdirectory' : runtime'.receiveDirectory = runtime.receiveDirectory)
    (hsame : s.runtime.files = runtime.files)
    (hnone : s.runtime.transfers.activeIncoming.get? incoming.transferId = none) :
    ReceiptInv codec locate incoming (s.opened locate incoming runtime') := by
  have hpending' : ∀ id pending',
      (runtime.transfers.pendingIncoming.erase pending.transferId).get? id = some pending' →
        id = incoming.transferId ∧ pending'.manifest = incoming.manifest := by
    grind [Keyed.get?_erase]
  cases heffect with
  | failed hactive' hpending'' =>
    have hactive'' : ∀ id, runtime'.transfers.activeIncoming.get? id = none := by
      grind [Keyed.get?_erase]
    rw [opened_of_none (hactive'' _)]
    refine ⟨?_, ?_, ?_, .inr (hactive'' _)⟩
    · rwa [hdirectory']
    · grind [Keyed.get?_put]
    · grind
  | @opened directory action opened hdirectory'' hopen hfiles hactive' hpending'' =>
    obtain rfl := hdirectory directory hdirectory''
    rw [← hsame] at hopen hfiles
    have hget : ∀ id, runtime'.transfers.activeIncoming.get? id =
        if id = incoming.transferId then some (activeOf pending incoming.directory opened)
        else none := by
      intro id
      rw [hactive', Keyed.get?_put, hactive]
      exact if_congr (by rw [← hkey]; rfl) rfl rfl
    have hself := (hget incoming.transferId).trans (if_pos rfl)
    rw [opened_of_some hnone hself]
    refine ⟨?_, ?_, ?_, .inl ?_⟩
    · rwa [hdirectory']
    · grind
    · intro id active hsome
      rw [hget] at hsome
      split_ifs at hsome with hid
      cases hsome
      exact ⟨hid, recordInv_activeOf hmanifest hopen hfiles⟩
    · grind [Keyed.get?_erase_self]

/-- **What a call does that spoils nothing**: it preserves the invariant, and commits only verified
content. -/
structure CallCommits (codec : RelayCodec) (services : RelayServices σ) (locate : String → L)
    (incoming : IncomingFile) (s : ReceiptState σ L) (op : ReceiptOp L) : Prop where
  inv : ReceiptInv codec locate incoming (receiptStep codec services locate incoming s op).1
  commits : StepCommits codec services locate incoming s op

/-- A call that leaves the final path alone and completes nothing. -/
theorem callCommits_of_look {t : ReceiptState σ L}
    (hstep : (receiptStep codec services locate incoming s op).1 = t)
    (hverdict : verdict codec locate s op = none)
    (hlook : t.runtime.files.look (locate incoming.finalPath) =
      s.runtime.files.look (locate incoming.finalPath))
    (hinv : ReceiptInv codec locate incoming t) :
    CallCommits codec services locate incoming s op := by
  refine ⟨hstep ▸ hinv, stepCommits_of_look hstep hlook hinv fun active completion hsome => ?_⟩
  cases hverdict.symm.trans hsome

/-- Opening the partial file leaves the final path alone if the two are different places. -/
theorem look_acceptAction (hshares : ¬ SharesPlace locate incoming runtime.files)
    (hmanifest : pending.manifest = incoming.manifest)
    (hdirectory : ∀ directory, runtime.receiveDirectory = some directory →
      directory = incoming.directory) :
    ((acceptAction codec (env.withPaths locate) runtime pending).apply runtime.files).look
        (locate incoming.finalPath) = runtime.files.look (locate incoming.finalPath) := by
  rw [look_apply_eq_iff]
  rcases acceptAction_cases codec (env.withPaths locate) runtime pending with
    haction | ⟨directory, hsome, haction⟩
  · rw [haction]
    exact not_false
  · obtain rfl := hdirectory directory hsome
    rw [haction, hmanifest]
    rintro (⟨hplace, -⟩ | ⟨id, htemporary, hfinal, -⟩)
    · exact hshares (.inl hplace.symm)
    · exact hshares (.inr ⟨id, hfinal, htemporary⟩)

/-- Without records of other files, a state without a record of the file receives nothing. -/
theorem ReceiptInv.active_none (h : ReceiptInv codec locate incoming s)
    (hnone : s.runtime.transfers.activeIncoming.get? incoming.transferId = none) (id : String) :
    s.runtime.transfers.activeIncoming.get? id = none := by
  rcases hactive : s.runtime.transfers.activeIncoming.get? id with _ | active
  · rfl
  · obtain rfl := (h.active id active hactive).1
    exact hactive.symm.trans hnone

theorem callCommits_accept (h : ReceiptInv codec locate incoming s) (env : CallEnv L)
    (hshares : ¬ SharesPlace locate incoming s.runtime.files) :
    CallCommits codec services locate incoming s (.accept env) := by
  rcases hpending : s.runtime.transfers.pendingIncoming.get? incoming.transferId with _ | pending
  · have hsame : (receiptStep codec services locate incoming s (.accept env)).1 = s := by
      have hruntime : (acceptPendingRelayIncoming codec services (env.withPaths locate) s.runtime
          incoming.transferId).1 = s.runtime := acceptPending_of_none hpending
      change s.opened locate incoming (acceptPendingRelayIncoming codec services
        (env.withPaths locate) s.runtime incoming.transferId).1 = s
      rw [hruntime, opened]
      simp_all
    exact callCommits_of_look hsame rfl rfl h
  · have hnone : s.runtime.transfers.activeIncoming.get? incoming.transferId = none := by
      grind [ReceiptInv.apart]
    obtain ⟨heffect, hfiles, hdirectory⟩ :=
      acceptPending_effect codec services (env.withPaths locate) hpending
    have hmanifest := (h.pending _ _ hpending).2
    have hinv := receiptInv_opened heffect h.directory h.pending (h.active_none hnone)
      hmanifest (Keyed.key_of_get? hpending) hdirectory rfl hnone
    refine callCommits_of_look (t := s.opened locate incoming (acceptPendingRelayIncoming codec
      services (env.withPaths locate) s.runtime incoming.transferId).1) rfl rfl ?_ hinv
    rw [runtime_opened, hfiles]
    exact look_acceptAction hshares hmanifest h.directory

theorem offerStep_of_some
    (h : runtime.transfers.activeIncoming.get? pending.transferId = some active) :
    (offerStep codec services env runtime pending).1 = runtime := by
  rw [offerStep, Keyed.contains, h]
  rfl

theorem offerStep_of_none (h : runtime.transfers.activeIncoming.get? pending.transferId = none) :
    offerStep codec services env runtime pending =
      admitOffer codec services env (runtime.recorded pending) pending
        (runtime.transfers.pendingIncoming.get? pending.transferId).isNone := by
  rw [offerStep, Keyed.contains, h]
  rfl

section

variable (h : ReceiptInv codec locate incoming s)

include h

/-- An offer that was recorded, before it is accepted. -/
theorem ReceiptInv.recorded (sessionId senderId manifestHash cryptoSessionId id : String)
    (pending : PendingRelayIncoming)
    (hsome : (s.runtime.recorded (incoming.pending sessionId senderId manifestHash
      cryptoSessionId)).transfers.pendingIncoming.get? id = some pending) :
    id = incoming.transferId ∧ pending.manifest = incoming.manifest := by
  rw [RelayRuntime.recorded, Keyed.get?_put] at hsome
  split_ifs at hsome with hid
  · cases hsome
    exact ⟨hid, rfl⟩
  · exact h.pending id pending hsome

theorem callCommits_offer (env : CallEnv L)
    (sessionId senderId manifestHash cryptoSessionId : String)
    (hshares : ¬ SharesPlace locate incoming s.runtime.files) :
    CallCommits codec services locate incoming s
      (.offer env sessionId senderId manifestHash cryptoSessionId) := by
  refine callCommits_of_look (t := s.opened locate incoming (offerStep codec services
    (env.withPaths locate) s.runtime (incoming.pending sessionId senderId manifestHash
      cryptoSessionId)).1) rfl rfl ?_ ?_
  · rw [runtime_opened]
    rcases hactive : s.runtime.transfers.activeIncoming.get? incoming.transferId with _ | active
    · rw [offerStep_of_none hactive, (admitOffer_effect codec services (env.withPaths locate) _ rfl
        (Keyed.get?_put_self _ _)).2.1]
      rcases admitAction_cases codec (env.withPaths locate) with hkeep | haccept
      · rw [hkeep]
        rfl
      · rw [haccept]
        exact look_acceptAction hshares rfl h.directory
    · rw [offerStep_of_some hactive]
  rcases hactive : s.runtime.transfers.activeIncoming.get? incoming.transferId with _ | active
  · rw [offerStep_of_none hactive]
    obtain ⟨heffect, -, hdirectory⟩ := admitOffer_effect codec services (env.withPaths locate)
      (s.runtime.transfers.pendingIncoming.get?
        (incoming.pending sessionId senderId manifestHash cryptoSessionId).transferId).isNone
      (s := s.runtime.recorded (incoming.pending sessionId senderId manifestHash cryptoSessionId))
      rfl (Keyed.get?_put_self _ _)
    generalize (admitOffer codec services (env.withPaths locate) (s.runtime.recorded _) _ _).1 =
      runtime at heffect hdirectory ⊢
    have hpending := h.recorded sessionId senderId manifestHash cryptoSessionId
    rcases heffect with heffect | ⟨hactive', hpending'⟩
    · exact receiptInv_opened heffect h.directory hpending (h.active_none hactive) rfl rfl
        hdirectory rfl hactive
    · have hnone : ∀ id, runtime.transfers.activeIncoming.get? id = none := by
        intro id
        rw [hactive']
        exact h.active_none hactive id
      rw [opened_of_none (hnone _)]
      refine ⟨?_, ?_, ?_, .inr (hnone _)⟩
      · intro directory hsome
        exact h.directory directory (hdirectory.symm.trans hsome)
      · grind [Keyed.get?_erase]
      · simp_all
  · rw [offerStep_of_some hactive, opened, hactive]
    exact h

/-- The invariant is about the records, the files and the history. -/
theorem ReceiptInv.congr {s' : ReceiptState σ L}
    (htransfers : s'.runtime.transfers = s.runtime.transfers)
    (hfiles : s'.runtime.files = s.runtime.files)
    (hdirectory : s'.runtime.receiveDirectory = s.runtime.receiveDirectory)
    (hcheckpoint : s'.checkpoint = s.checkpoint) (haccepted : s'.accepted = s.accepted) :
    ReceiptInv codec locate incoming s' := by
  obtain ⟨⟨transfers, files, directory, peers, identity, rest⟩, checkpoint, accepted⟩ := s'
  cases htransfers
  cases hfiles
  cases hdirectory
  cases hcheckpoint
  cases haccepted
  refine ⟨h.directory, h.pending, fun id active hactive => ?_, h.apart⟩
  obtain ⟨hid, hrecord⟩ := h.active id active hactive
  refine ⟨hid, hrecord.manifest, hrecord.temporaryPath, hrecord.finalPath, hrecord.completed,
    fun hcompleted => ?_⟩
  have hreceived := hrecord.receiving hcompleted
  exact ⟨⟨hreceived.content, hreceived.receivedBytes, hreceived.receivedBytes_le,
    hreceived.hasher, hreceived.consecutive⟩, hreceived.file, hreceived.next, hreceived.next_le⟩

end

section

variable {file : OpenFile} {bytes : Bytes} (h : BeingReceived locate incoming s active)
    (hfile : active.file = some file)

include h hfile

/-- A write to the file that is being received goes to its end. -/
theorem BeingReceived.written
    (hfiles : files = (write file.id file.position bytes).apply s.runtime.files) :
    file.position = active.receivedBytes ∧
      files.entries.get? (locate incoming.temporaryPath) = some (.file file.id) ∧
      bytesAt files (locate incoming.temporaryPath) =
        bytesAt s.runtime.files (locate incoming.temporaryPath) ++ bytes := by
  obtain ⟨file', hfile', hentry, hposition, -⟩ := h.file
  cases hfile.symm.trans hfile'
  have hentry' : files.entries.get? (locate incoming.temporaryPath) = some (.file file.id) := by
    rw [hfiles]
    exact hentry
  refine ⟨hposition, hentry', ?_⟩
  rw [bytesAt_file hentry', hfiles, apply, content_setContent, if_pos rfl, hposition,
    h.receivedBytes, bytesAt_file hentry, FileStore.overwrite_length]

/-- **A chunk is accepted**: its bytes follow those that were received. -/
theorem BeingReceived.absorb (hbytes : bytes ≠ [])
    (hfits : active.receivedBytes + bytes.length ≤ incoming.manifest.fileSize)
    (hfiles : runtime.files = (write file.id file.position bytes).apply s.runtime.files) :
    BeingReceived locate incoming
      { s with runtime := runtime, accepted := s.accepted ++ [(active.nextSequence, bytes)] }
      (active.absorb
        { file with position := file.position + bytes.length, failed := false } bytes) := by
  obtain ⟨hposition, hentry', hnew⟩ := h.written hfile hfiles
  have hpos := List.length_pos_iff.mpr hbytes
  -- every chunk has a byte, so the number of the next one is within 64 bits
  have hnext : ∀ file, (active.absorb file bytes).nextSequence = active.nextSequence + 1 := by
    have hle := h.next_le
    have hsize := incoming.fileSize_le
    exact fun _ => if_pos (by omega)
  have haccepted : ({ s with
      runtime := runtime
      accepted := s.accepted ++ [(active.nextSequence, bytes)] } :
      ReceiptState σ L).acceptedBytes = s.acceptedBytes ++ bytes := by
    simp [ReceiptState.acceptedBytes]
  refine ⟨⟨?_, ?_, hfits, ?_, ?_⟩, ⟨_, rfl, hentry', ?_, rfl⟩, ?_, ?_⟩
  · rw [haccepted]
    rw [hnew, h.content, List.append_assoc]
  · rw [hnew, List.length_append, ← h.receivedBytes]
    rfl
  · rw [hnew, ← h.hasher]
    rfl
  · rw [List.map_append, h.consecutive, List.length_append, h.next]
    rw [List.length_singleton, List.range'_1_concat]
    rfl
  · rw [hposition]
    rfl
  · grind [next]
  · rw [hnext]
    change active.nextSequence + 1 ≤ active.receivedBytes + bytes.length
    have := h.next_le
    omega

end

theorem receiptStep_chunk (env : CallEnv L) (sessionId : String) (sequence : UInt64)
    (ciphertext : Bytes) :
    (receiptStep codec services locate incoming s (.chunk env sessionId sequence ciphertext)).1 =
      { s with
          runtime := (receiveRelayChunk services (env.withPaths locate) s.runtime sessionId
            sequence ciphertext).1
          accepted := s.accepted ++ acceptedChunk services (env.withPaths locate) s.runtime
            sessionId sequence ciphertext } :=
  rfl

/-- A chunk that is refused changes nothing. -/
theorem callCommits_chunk_refused (h : ReceiptInv codec locate incoming s) {sessionId : String}
    {sequence : UInt64} {ciphertext : Bytes}
    (hwrite : chunkWrite services (env.withPaths locate) s.runtime sessionId sequence
      ciphertext = none) :
    CallCommits codec services locate incoming s (.chunk env sessionId sequence ciphertext) := by
  obtain ⟨htransfers, hfiles⟩ := receiveRelayChunk_of_none hwrite
  have hinv : ReceiptInv codec locate incoming (receiptStep codec services locate incoming s
      (.chunk env sessionId sequence ciphertext)).1 := by
    refine h.congr htransfers hfiles (receiveDirectory_receiveRelayChunk _ _ _) rfl ?_
    grind [receiptStep_chunk, acceptedChunk]
  refine callCommits_of_look rfl rfl ?_ hinv
  rw [receiptStep_chunk, hfiles]

/-- The record of a chunk's file is replaced. -/
theorem ReceiptInv.put (h : ReceiptInv codec locate incoming s) {s' : ReceiptState σ L}
    (hactive : s'.runtime.transfers.activeIncoming = s.runtime.transfers.activeIncoming.put active)
    (hpending : s'.runtime.transfers.pendingIncoming = s.runtime.transfers.pendingIncoming)
    (hdirectory : s'.runtime.receiveDirectory = s.runtime.receiveDirectory)
    (hkey : active.offer.transferId = incoming.transferId)
    (hnone : s.runtime.transfers.pendingIncoming.get? incoming.transferId = none)
    (hrecord : RecordInv codec locate incoming s' active) :
    ReceiptInv codec locate incoming s' := by
  refine ⟨by rw [hdirectory]; exact h.directory, by rw [hpending]; exact h.pending, ?_,
    .inl (by rw [hpending]; exact hnone)⟩
  intro id active' hsome
  rw [hactive, Keyed.get?_put] at hsome
  split_ifs at hsome with hid
  · simp_all
  · -- there is no other record
    have hid' := (h.active id active' hsome).1
    exact absurd (hid'.trans hkey.symm) hid

theorem callCommits_chunk (h : ReceiptInv codec locate incoming s) (env : CallEnv L)
    (sessionId : String) (sequence : UInt64) (ciphertext : Bytes)
    (hshares : ¬ SharesPlace locate incoming s.runtime.files)
    (hfault : env.faults.write = none) :
    CallCommits codec services locate incoming s (.chunk env sessionId sequence ciphertext) := by
  rcases hwrite : chunkWrite services (env.withPaths locate) s.runtime sessionId sequence
      ciphertext with _ | ⟨active, file, clear⟩
  · exact callCommits_chunk_refused h hwrite
  obtain ⟨hcompleted, hsequence, hclear, hfits⟩ := chunkWrite_checked hwrite
  obtain ⟨hactive, hfile⟩ := chunkWrite_target hwrite
  obtain ⟨hkey, hrecord⟩ := h.active _ active hactive
  have hreceived := hrecord.receiving hcompleted
  obtain ⟨file', hfile', hentry, hposition, hwritten⟩ := hreceived.file
  cases hfile.symm.trans hfile'
  obtain ⟨hactive', hpending'⟩ := active_receiveRelayChunk hwrite hwritten
  -- the whole chunk is written to the end of the partial file
  have hfault' : (env.withPaths locate).faults.write = none := hfault
  have hbytes : (env.withPaths locate).faults.written clear = clear := by
    rw [FileFaults.written, hfault']
  have hafter : file.after (env.withPaths locate).faults clear =
      { file with position := file.position + clear.length, failed := false } := by
    rw [OpenFile.after, hbytes, hfault', Option.isSome_none]
  have hfiles := (receiveRelayChunk_of_some hwrite).2.1
  rw [chunkAction, hwritten, if_neg Bool.false_ne_true, hbytes] at hfiles
  rw [hafter] at hactive'
  have hapart : s.runtime.transfers.pendingIncoming.get? incoming.transferId = none := by
    grind [ReceiptInv.apart]
  have hinv : ReceiptInv codec locate incoming (receiptStep codec services locate incoming s
      (.chunk env sessionId sequence ciphertext)).1 := by
    rw [receiptStep_chunk, acceptedChunk, hwrite]
    dsimp only
    rw [hwritten, if_neg Bool.false_ne_true, hsequence]
    rw [hrecord.manifest] at hfits
    refine h.put hactive' hpending' (receiveDirectory_receiveRelayChunk _ _ _) hkey hapart ?_
    refine ⟨hrecord.manifest, hrecord.temporaryPath, hrecord.finalPath, fun hcontra => ?_,
      fun _ => hreceived.absorb hfile' hclear hfits hfiles⟩
    exact absurd (hcompleted.symm.trans hcontra) Bool.false_ne_true
  refine callCommits_of_look rfl rfl ?_ hinv
  rw [receiptStep_chunk, hfiles, look_apply_eq_iff]
  exact fun hchanges => hshares (.inr ⟨file.id, hchanges.1, hentry⟩)

/-! ## Completions -/

theorem movesPartFile_of_renamed {senderId : Option String}
    (h : completion codec env files active senderId = .renamed) :
    MovesPartFile codec env files active senderId := by
  rcases completionAction_cases codec env files active senderId with
    ⟨-, haction⟩ | ⟨hmoves, -⟩ | ⟨-, -, haction⟩
  · rw [h] at haction
    cases haction
  · exact hmoves
  · rw [h] at haction
    split at haction <;> cases haction

/-- The checks of a completion, by its verdict. -/
theorem completion_checked (codec : RelayCodec) (env : CallEnv L) (files : FileStore L)
    (active : ActiveRelayIncoming) (senderId : Option String) :
    match completion codec env files active senderId with
    | .failed _ _ | .abandoned _ => True
    | .alreadyCompleted => active.alreadyCompleted = true
    | .identical =>
      existingCompletedFile codec env files env.faults.lookCompleted active.offer.manifest
        (parent active.finalPath) = .ok true
    | .renamed => MovesPartFile codec env files active senderId := by
  cases hverdict : completion codec env files active senderId with
  | failed reason error | abandoned error => trivial
  | alreadyCompleted | identical => grind [completion]
  | renamed => exact movesPartFile_of_renamed hverdict

theorem look_eq_none_iff {loc : L} : files.look loc = none ↔ files.entries.get? loc = none := by
  rw [FileStore.look, Option.map_eq_none_iff]

section

variable (hrecord : RecordInv codec locate incoming s active)

include hrecord

/-- The partial file is moved to the final path, where nothing was. -/
theorem verifiedAt_moved {senderId : Option String}
    (hmoves : MovesPartFile codec (env.withPaths locate) s.runtime.files active senderId)
    (hfiles : files = (move (locate active.temporaryPath) (locate active.finalPath)).apply
      s.runtime.files) :
    VerifiedAt codec incoming.manifest files (locate incoming.finalPath) := by
  obtain ⟨⟨⟨-, hsize⟩, hcompleted, hhash, -⟩, -, -, hmovable⟩ := hmoves
  change s.runtime.files.Movable (locate active.temporaryPath) (locate active.finalPath)
    at hmovable
  have hreceived := hrecord.receiving hcompleted
  obtain ⟨file, -, hentry, -⟩ := hreceived.file
  rw [hrecord.temporaryPath, hrecord.finalPath] at hmovable hfiles
  rw [hrecord.manifest] at hsize hhash
  have hmoved : files = moveEntry s.runtime.files (locate incoming.temporaryPath)
      (locate incoming.finalPath) (.file file.id) hentry := by
    grind [apply]
  have hcontent : files.content file.id = active.hasher := by
    rw [hmoved, hreceived.hasher, bytesAt_file hentry]
    rfl
  refine ⟨file.id, ?_, ?_, ?_⟩
  · rw [hmoved]
    exact Table.get?_insert_self _ _ _
  · rw [hcontent, hreceived.hasher, ← hreceived.receivedBytes, hsize]
  · rw [hcontent, hhash]

/-- The file that a completion finds at the final path. -/
theorem verifiedAt_identical {fault : Bool}
    (h : existingCompletedFile codec (env.withPaths locate) s.runtime.files fault
      active.offer.manifest (parent active.finalPath) = .ok true) :
    VerifiedAt codec incoming.manifest s.runtime.files (locate incoming.finalPath) := by
  obtain ⟨hvalid, hverified⟩ := existingCompletedFile_true h
  rw [hrecord.manifest] at hvalid hverified
  have hparent : parent active.finalPath = incoming.directory := by
    rw [hrecord.finalPath]
    exact parent_finalPath incoming.directory hvalid
  rw [hparent] at hverified
  exact hverified

/-- Verified content is moved to the final path. -/
theorem stepCommits_renamed {senderId : Option String}
    (hverdict : verdict codec locate s op = some (active, .renamed))
    (hmoves : MovesPartFile codec (env.withPaths locate) s.runtime.files active senderId)
    {t : ReceiptState σ L} (hstep : (receiptStep codec services locate incoming s op).1 = t)
    (hfiles : t.runtime.files =
      (move (locate active.temporaryPath) (locate active.finalPath)).apply s.runtime.files)
    (hinv : ReceiptInv codec locate incoming t)
    (hfinal : s.runtime.files.entries.get? (locate incoming.finalPath) = none) :
    StepCommits codec services locate incoming s op := by
  have hverified := verifiedAt_moved hrecord hmoves hfiles
  subst hstep
  refine ⟨?_, fun _ _ => ⟨⟨active, hverdict⟩, hverified⟩, fun _ _ _ _ => hverified, ?_⟩
  · intro active' hactive' hcompleted'
    exact ((hinv.active _ active' hactive').2.receiving hcompleted').toReceivedSoFar
  · grind [look_eq_none_iff]

end

/-- A completion that does not move the partial file leaves the final path alone if the two are
different places. -/
theorem not_changes_completion {outcome : Completion} {loc : L} (hrenamed : outcome ≠ .renamed)
    (hne : env.locate active.temporaryPath ≠ loc) :
    ¬ (completionAction env active outcome).Changes files loc := by
  have hremove : ¬ (if env.faults.remove then keep
      else .remove (env.locate active.temporaryPath)).Changes files loc := by
    split_ifs
    · exact not_false
    · exact fun h => hne h.1
  cases outcome with
  | failed reason error | identical => exact hremove
  | abandoned error | alreadyCompleted => exact not_false
  | renamed => exact absurd rfl hrenamed

section

variable (h : ReceiptInv codec locate incoming s)

include h

theorem callCommits_complete_refused {sessionOrTransferId : String} {senderId : Option String}
    (htarget : completionTarget (env.withPaths locate) s.runtime sessionOrTransferId = none) :
    CallCommits codec services locate incoming s
      (.complete env sessionOrTransferId senderId) := by
  have hsame : (receiptStep codec services locate incoming s
      (.complete env sessionOrTransferId senderId)).1 = s := by
    have hruntime : (completeRelayIncoming codec services (env.withPaths locate) s.runtime
        sessionOrTransferId senderId).1 = s.runtime := by
      rw [completeRelayIncoming, htarget]
    change { s with runtime := (completeRelayIncoming codec services (env.withPaths locate)
      s.runtime sessionOrTransferId senderId).1 } = s
    rw [hruntime]
  have hverdict : verdict codec locate s (.complete env sessionOrTransferId senderId) = none := by
    rw [verdict, htarget]
    rfl
  exact callCommits_of_look hsame hverdict rfl h

/-- Without the record of the file there is none. -/
theorem ReceiptInv.get?_erase (id : String) :
    (s.runtime.transfers.activeIncoming.erase incoming.transferId).get? id = none := by
  rw [Keyed.get?_erase]
  split_ifs with hid
  · rfl
  · rcases hother : s.runtime.transfers.activeIncoming.get? id with _ | other
    · rfl
    · exact absurd (h.active id other hother).1 hid

theorem callCommits_complete (env : CallEnv L) (sessionOrTransferId : String)
    (senderId : Option String) (hshares : ¬ SharesPlace locate incoming s.runtime.files)
    (hlooks : env.faults.lookDestination = true →
      s.runtime.files.entries.get? (locate incoming.finalPath) = none) :
    CallCommits codec services locate incoming s
      (.complete env sessionOrTransferId senderId) := by
  rcases htarget : completionTarget (env.withPaths locate) s.runtime sessionOrTransferId with
    _ | ⟨id, active⟩
  · exact callCommits_complete_refused h htarget
  have hactive := (Keyed.find?_some htarget).1
  obtain ⟨rfl, hrecord⟩ := h.active id active hactive
  have hverdict : verdict codec locate s (.complete env sessionOrTransferId senderId) =
      some (active, completion codec (env.withPaths locate) s.runtime.files active senderId) := by
    rw [verdict, htarget]
    rfl
  have hchecked := completion_checked codec (env.withPaths locate) s.runtime.files active senderId
  have hfiles := (completeRelayIncoming_of_some codec services senderId htarget).2.1
  obtain ⟨hactive', hpending', hdirectory'⟩ :=
    records_completeRelayIncoming codec services senderId htarget
  have hstep : (receiptStep codec services locate incoming s
      (.complete env sessionOrTransferId senderId)).1 = { s with
        runtime := (completeRelayIncoming codec services (env.withPaths locate) s.runtime
          sessionOrTransferId senderId).1 } := rfl
  generalize (completeRelayIncoming codec services (env.withPaths locate) s.runtime
    sessionOrTransferId senderId).1 = runtime at hfiles hactive' hpending' hdirectory' hstep
  have hinv : ReceiptInv codec locate incoming { s with runtime := runtime } := by
    have hnone : ∀ id, runtime.transfers.activeIncoming.get? id = none := by
      intro id
      rw [hactive']
      exact h.get?_erase id
    refine ⟨?_, ?_, ?_, .inr (hnone _)⟩
    · intro directory hsome
      exact h.directory directory (hdirectory'.symm.trans hsome)
    · intro id pending hsome
      refine h.pending id pending ?_
      rw [← hpending']
      exact hsome
    · intro id active' hsome
      cases (hnone id).symm.trans hsome
  generalize completion codec (env.withPaths locate) s.runtime.files active senderId = outcome
    at hverdict hchecked hfiles
  refine ⟨hstep ▸ hinv, ?_⟩
  by_cases hrenamed : outcome = .renamed
  · subst hrenamed
    have hfinal : s.runtime.files.entries.get? (locate incoming.finalPath) = none := by
      rw [← hrecord.finalPath] at hlooks ⊢
      exact hchecked.free.elim hlooks id
    exact stepCommits_renamed hrecord hverdict hchecked hstep hfiles hinv hfinal
  -- every other verdict leaves the final path alone
  have hlook : runtime.files.look (locate incoming.finalPath) =
      s.runtime.files.look (locate incoming.finalPath) := by
    rw [hfiles, Action.look_apply_eq_iff]
    refine not_changes_completion hrenamed fun hplace => hshares (.inl ?_)
    rw [← hrecord.temporaryPath]
    exact hplace.symm
  refine stepCommits_of_look hstep hlook hinv fun active' outcome' hsome hacknowledged => ?_
  cases hverdict.symm.trans hsome
  cases outcome with
  | failed reason error | abandoned error => cases hacknowledged
  | alreadyCompleted => exact hrecord.completed hchecked
  | identical => exact verifiedAt_identical hrecord hchecked
  | renamed => exact absurd rfl hrenamed

theorem callCommits_interrupt : CallCommits codec services locate incoming s .interrupt := by
  have hinv : ReceiptInv codec locate incoming
      (receiptStep codec services locate incoming s .interrupt).1 := by
    refine ⟨h.directory, h.pending, fun id active hsome => ?_, .inr (h.get?_erase _)⟩
    cases (h.get?_erase id).symm.trans hsome
  exact callCommits_of_look rfl rfl rfl hinv

/-- **What one call does that spoils nothing**, for every call. -/
theorem callCommits (op : ReceiptOp L) (hkept : ¬ Spoils locate incoming s op) :
    CallCommits codec services locate incoming s op := by
  have hshares : op ≠ .interrupt → ¬ SharesPlace locate incoming s.runtime.files :=
    fun hop h => hkept (.shares hop h)
  cases op with
  | offer env sessionId senderId manifestHash cryptoSessionId =>
    exact callCommits_offer h env _ _ _ _ (hshares (by simp))
  | accept env => exact callCommits_accept h env (hshares (by simp))
  | chunk env sessionId sequence ciphertext =>
    exact callCommits_chunk h env _ _ _ (hshares (by simp))
      (by_contra fun hfault => hkept (.fails hfault))
  | complete env sessionOrTransferId senderId =>
    exact callCommits_complete h env _ _ (hshares (by simp))
      fun hfault => by_contra fun hfinal => hkept (.overlooks hfault hfinal)
  | interrupt => exact callCommits_interrupt h

end

/-- A runtime without offers and files has nothing to preserve yet. -/
theorem receiptInv_start (codec : RelayCodec) (services : RelayServices σ) (locate : String → L)
    (incoming : IncomingFile) (start : RelayRuntime σ L) :
    ReceiptInv codec locate incoming
      (receiptMachine codec services locate incoming start).start where
  directory := by
    intro directory hsome
    obtain ⟨_, -, hdirectory⟩ := Option.map_eq_some_iff.mp hsome
    exact hdirectory.symm
  pending := fun _ _ hsome => nomatch hsome
  active := fun _ _ hsome => nomatch hsome
  apart := .inl rfl

/-- **Only verified content is committed**: in every run of calls about a file, if the final path
never leads to the partial file, no write fails, and what is at the final path is not overlooked. -/
theorem commits_verified (codec : RelayCodec) (services : RelayServices σ)
    (locate : String → L) (incoming : IncomingFile) (start : RelayRuntime σ L)
    (ops : List (ReceiptOp L))
    (hkept : (receiptMachine codec services locate incoming start).Along
      (fun s op => ¬ Spoils locate incoming s op) ops) :
    (receiptMachine codec services locate incoming start).Along
      (StepCommits codec services locate incoming) ops := by
  refine Machine.along_of_guarded _ (fun s op h hnot => ?_)
    (receiptInv_start codec services locate incoming start) hkept
  have hcommits : CallCommits codec services locate incoming s op := callCommits h op hnot
  exact ⟨hcommits.inv, hcommits.commits⟩

end Commit

/-! ## A file that is named as its partial file -/

/-- One byte that is offered as `t.part` in the transfer `t`. -/
def partNamedFile : IncomingFile where
  directory := "/files"
  manifest :=
    { transferId := "t"
      fileName := "t.part"
      fileSize := 1
      modifiedAt := 0
      contentHash := "0000000000000000000000000000000000000000000000000000000000000000"
      protocolVersion := networkTransferProtocolVersion }
  fileSize_le := by decide

/-- A runtime without files. -/
def emptyRuntime : RelayRuntime Unit String where
  transfers :=
    { pendingIncoming := ∅
      activeIncoming := ∅
      acceptances := ∅
      completions := ∅
      manager := ∅ }
  files := .empty
  receiveDirectory := some "/files"
  peers := ∅
  identity := none
  services := ()

def partNamedMachine :
    Machine (ReceiptState Unit String) (ReceiptOp String) (Except RelayDataError Unit) :=
  receiptMachine zeroCodec grantingServices id partNamedFile emptyRuntime

/-- The file is offered, accepted, received and completed. -/
def partNamedRun : List (ReceiptOp String) :=
  [.offer faultlessEnv "session" "peer-a" "" "", .accept faultlessEnv,
    .chunk faultlessEnv "session" 0 (List.replicate 16 0),
    .complete faultlessEnv "t" (some "peer-a")]

/-- The same byte under another name. -/
def notesFile : IncomingFile :=
  { partNamedFile with manifest := { partNamedFile.manifest with fileName := "notes" } }

def notesMachine :
    Machine (ReceiptState Unit String) (ReceiptOp String) (Except RelayDataError Unit) :=
  receiptMachine zeroCodec grantingServices id notesFile emptyRuntime

/-- Under another name the file is received and put in its place. -/
theorem commits_verified_notes :
    notesMachine.Along (fun s op => ¬ Spoils id notesFile s op) partNamedRun ∧
      notesMachine.Along (StepCommits zeroCodec grantingServices id notesFile) partNamedRun ∧
      (notesMachine.run partNamedRun).runtime.files.look notesFile.finalPath =
        some (.file 0, [7]) := by
  have hkept : ∀ (s : ReceiptState Unit String) op, op ∈ partNamedRun →
      s.runtime.files.entries.get? notesFile.finalPath = none → ¬ Spoils id notesFile s op := by
    rintro s op hop hnone (⟨-, hplace | ⟨id, hfinal, -⟩⟩ | ⟨hfault⟩ | ⟨-, hfinal⟩)
    · exact absurd hplace (by decide)
    · cases hnone.symm.trans hfinal
    · simp only [partNamedRun, List.mem_cons, List.not_mem_nil, ReceiptOp.chunk.injEq, reduceCtorEq,
        false_or, or_false] at hop
      rw [hop.1] at hfault
      exact hfault rfl
    · exact hfinal hnone
  have halong : notesMachine.Along (fun s op => ¬ Spoils id notesFile s op) partNamedRun :=
    ⟨hkept _ _ (by simp [partNamedRun]) (by decide +kernel),
      hkept _ _ (by simp [partNamedRun]) (by decide +kernel),
      hkept _ _ (by simp [partNamedRun]) (by decide +kernel),
      hkept _ _ (by simp [partNamedRun]) (by decide +kernel), trivial⟩
  exact ⟨halong, commits_verified _ _ _ _ _ _ halong, by decide +kernel⟩

/-- **A file named as its partial file is lost**: the final path is made when the file is accepted,
before anything was received. The completion succeeds and is acknowledged, and it removes the file
that it has verified. -/
theorem part_named_file_is_lost :
    (partNamedMachine.run (partNamedRun.take 2)).runtime.files.look partNamedFile.finalPath =
        some (.file 0, []) ∧
      (partNamedMachine.run (partNamedRun.take 3)).runtime.files.look partNamedFile.finalPath =
        some (.file 0, [7]) ∧
      ((partNamedMachine.transcript partNamedRun).map Prod.snd).getLast? = some (.ok ()) ∧
      (partNamedMachine.run partNamedRun).runtime.files.look partNamedFile.finalPath = none ∧
      ¬ partNamedMachine.Along
        (StepCommits zeroCodec grantingServices id partNamedFile) partNamedRun := by
  refine ⟨by decide +kernel, by decide +kernel, by decide +kernel, by decide +kernel, ?_⟩
  rintro ⟨-, haccept, -⟩
  -- nothing is renamed when the file is accepted
  obtain ⟨⟨active, hrenamed⟩, -⟩ := haccept.created (by decide +kernel) (by decide +kernel)
  cases hrenamed

end SshMobile.Relay
