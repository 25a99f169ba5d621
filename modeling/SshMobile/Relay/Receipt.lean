import SshMobile.Relay.OneTransfer

/-!
# Receiving one file

The calls about one incoming file, in any order: offers, acceptances, chunks with any contents, and
completions by anyone. A lost connection drops the record of the file in between, and the next
acceptance rebuilds it from the partial file on disk. Beside the runtime, the state keeps the
history that the results are about: the checkpoint from which the file was last accepted, and the
chunks that were accepted since.

## Main definitions

* `IncomingFile`: the file, its directory and its two paths
* `ReceiptOp`, `receiptStep`, `receiptMachine`: the runs of calls about the file
* `ReceiptState`: the runtime, with the checkpoint and the accepted chunks

## Main results

* `openIncoming_ok`: what an opened file holds
* `acceptPending_effect`: what an acceptance does to the records
* `chunkWrite_checked`: what has been checked when a chunk is handed to its file
-/

namespace SshMobile.Relay

open Library Transfer

/-! ## Calls about one file -/

/-- **A file to be received**: the directory it goes to, and its manifest. The size is a 64-bit
number. -/
structure IncomingFile where
  directory : String
  manifest : FileManifest
  fileSize_le : manifest.fileSize ≤ u64Max

namespace IncomingFile

def transferId (incoming : IncomingFile) : String := incoming.manifest.transferId

def temporaryPath (incoming : IncomingFile) : String :=
  relayPartialPath incoming.directory incoming.manifest.transferId

def finalPath (incoming : IncomingFile) : String :=
  Relay.finalPath incoming.directory incoming.manifest

/-- An offer of the file. -/
def pending (incoming : IncomingFile) (sessionId senderId manifestHash cryptoSessionId : String) :
    PendingRelayIncoming where
  transferId := incoming.transferId
  sessionId := sessionId
  senderId := senderId
  manifest := incoming.manifest
  manifestHash := manifestHash
  cryptoSessionId := cryptoSessionId

end IncomingFile

/-- Every call meets its own order and its own faults; where paths lead is the same for all. -/
def CallEnv.withPaths {L : Type} (env : CallEnv L) (locate : String → L) : CallEnv L :=
  { env with locate := locate }

/-- **The calls about a file.** -/
inductive ReceiptOp (L : Type)
  | offer (env : CallEnv L) (sessionId senderId manifestHash cryptoSessionId : String)
  | accept (env : CallEnv L)
  | chunk (env : CallEnv L) (sessionId : String) (sequence : UInt64) (ciphertext : Bytes)
  | complete (env : CallEnv L) (sessionOrTransferId : String) (senderId : Option String)
  /-- The connection is lost: the record of the file is dropped and its session paused. -/
  | interrupt

/-- The runtime, the contents of the partial file when the file was last accepted, and the chunks
that were accepted since with their numbers. -/
structure ReceiptState (σ L : Type) [DecidableEq L] where
  runtime : RelayRuntime σ L
  checkpoint : Bytes
  accepted : List (ℕ × Bytes)

/-- The bytes of the file at a location; anything else has none. -/
def bytesAt {L : Type} [DecidableEq L] (files : FileStore L) (loc : L) : Bytes :=
  ((files.look loc).map Prod.snd).getD []

variable {σ L : Type} [DecidableEq L]

section Machine

variable (codec : RelayCodec) (services : RelayServices σ) (locate : String → L)
  (incoming : IncomingFile)

/-- The state after a call that may have accepted the file. -/
def ReceiptState.opened (s : ReceiptState σ L) (runtime : RelayRuntime σ L) : ReceiptState σ L :=
  match s.runtime.transfers.activeIncoming.get? incoming.transferId,
      runtime.transfers.activeIncoming.get? incoming.transferId with
  | none, some active =>
    { runtime := runtime
      checkpoint :=
        (bytesAt s.runtime.files (locate incoming.temporaryPath)).take active.receivedBytes
      accepted := [] }
  | _, _ => { s with runtime := runtime }

/-- An offer is refused while the file is being received. -/
def offerStep (env : CallEnv L) (runtime : RelayRuntime σ L) (pending : PendingRelayIncoming) :
    RelayRuntime σ L × Except RelayDataError Unit :=
  if runtime.transfers.activeIncoming.contains pending.transferId then
    (runtime, .error .alreadyReceiving)
  else
    admitOffer codec services env (runtime.recorded pending) pending
      (runtime.transfers.pendingIncoming.get? pending.transferId).isNone

/-- The chunk that a call adds to those that were accepted: one that is not refused, unless the call
reports that the write before has failed. -/
def acceptedChunk (env : CallEnv L) (runtime : RelayRuntime σ L) (sessionId : String)
    (sequence : UInt64) (ciphertext : Bytes) : List (ℕ × Bytes) :=
  match chunkWrite services env runtime sessionId sequence ciphertext with
  | some (_, file, clear) => if file.failed then [] else [(sequence.toNat, clear)]
  | none => []

def receiptStep (s : ReceiptState σ L) :
    ReceiptOp L → ReceiptState σ L × Except RelayDataError Unit
  | .offer env sessionId senderId manifestHash cryptoSessionId =>
    (offerStep codec services (env.withPaths locate) s.runtime
      (incoming.pending sessionId senderId manifestHash cryptoSessionId)).map
        (s.opened locate incoming) id
  | .accept env =>
    (acceptPendingRelayIncoming codec services (env.withPaths locate) s.runtime
      incoming.transferId).map (s.opened locate incoming) id
  | .chunk env sessionId sequence ciphertext =>
    (receiveRelayChunk services (env.withPaths locate) s.runtime sessionId sequence
      ciphertext).map (fun runtime =>
        { s with
            runtime := runtime
            accepted := s.accepted ++ acceptedChunk services (env.withPaths locate) s.runtime
              sessionId sequence ciphertext }) id
  | .complete env sessionOrTransferId senderId =>
    (completeRelayIncoming codec services (env.withPaths locate) s.runtime sessionOrTransferId
      senderId).map (fun runtime => { s with runtime := runtime }) id
  | .interrupt =>
    ({ s with
        runtime := { s.runtime with
          transfers := { s.runtime.transfers with
            activeIncoming := s.runtime.transfers.activeIncoming.erase incoming.transferId
            manager := (pauseForNetwork s.runtime.transfers.manager incoming.transferId).1 } } },
      .ok ())

/-- **The runs of calls about a file**, from a runtime that has no offers and receives no files. -/
def receiptMachine (start : RelayRuntime σ L) :
    Machine (ReceiptState σ L) (ReceiptOp L) (Except RelayDataError Unit) where
  start :=
    { runtime := { start with
        transfers := { start.transfers with pendingIncoming := ∅, activeIncoming := ∅ }
        receiveDirectory := start.receiveDirectory.map fun _ => incoming.directory }
      checkpoint := []
      accepted := [] }
  step := receiptStep codec services locate incoming

end Machine

/-! ## Opened files -/

variable {codec : RelayCodec} {services : RelayServices σ} {env : CallEnv L}
  {s : RelayRuntime σ L} {pending : PendingRelayIncoming}

section Opened

/-- The bytes are those that the manifest announces: their number and their hash. -/
def Verified (codec : RelayCodec) (manifest : FileManifest) (content : Bytes) : Prop :=
  content.length = manifest.fileSize ∧
    relayHashMatches codec.sha256 content manifest.contentHash = true

/-- At the location is a file with the bytes that the manifest announces. -/
def VerifiedAt (codec : RelayCodec) (manifest : FileManifest) (files : FileStore L) (loc : L) :
    Prop :=
  ∃ id, files.entries.get? loc = some (.file id) ∧ Verified codec manifest (files.content id)

variable {files : FileStore L} {manifest : FileManifest} {directory : String}

variable {loc : L}

theorem bytesAt_file {id : ℕ} (h : files.entries.get? loc = some (.file id)) :
    bytesAt files loc = files.content id := by
  rw [bytesAt, FileStore.look, h]
  rfl

theorem bytesAt_none (h : files.entries.get? loc = none) : bytesAt files loc = [] := by
  rw [bytesAt, FileStore.look, h]
  rfl

/-- A location that looks the same holds what it held. -/
theorem VerifiedAt.of_look {files' : FileStore L}
    (h : VerifiedAt codec manifest files loc) (hlook : files'.look loc = files.look loc) :
    VerifiedAt codec manifest files' loc := by
  obtain ⟨id, hentry, hverified⟩ := h
  have hentry' := (Action.entry_eq_of_look_eq hlook).trans hentry
  refine ⟨id, hentry', ?_⟩
  have hbytes : bytesAt files' loc = bytesAt files loc := by rw [bytesAt, hlook, bytesAt]
  grind [bytesAt_file]

theorem existingCompletedFile_true {fault : Bool}
    (h : existingCompletedFile codec env files fault manifest directory = .ok true) :
    manifest.validate = .ok () ∧
      VerifiedAt codec manifest files (env.locate (finalPath directory manifest)) := by
  rw [existingCompletedFile] at h
  split at h
  · cases h
  rename_i hvalid
  split at h
  · cases h
  split at h
  · cases h
  · rename_i id hfile
    have hboth := Except.ok.inj h
    rw [Bool.and_eq_true, beq_iff_eq] at hboth
    exact ⟨hvalid, id, hfile, hboth⟩
  · cases h
  · cases h

/-- A name without the byte of `/` has no `/`. -/
theorem slash_notMem {name : String} (h : (utf8 name).contains 47 = false) : '/' ∉ name.toList := by
  intro hmem
  obtain ⟨front, rest, hsplit⟩ := List.append_of_mem hmem
  have hbytes : utf8 name = name.toList.utf8Encode.data.toList := by
    rw [String.utf8Encode_toList]
    rfl
  have hslash : (47 : UInt8) ∈ utf8 name := by
    rw [hbytes, hsplit, List.utf8Encode_append, List.utf8Encode_cons]
    simp only [ByteArray.data_append, Array.toList_append, List.mem_append]
    exact .inr (.inl (by decide))
  simp_all

/-- The parent of the final path is the directory. -/
theorem parent_finalPath (directory : String) (hvalid : manifest.validate = .ok ()) :
    parent (finalPath directory manifest) = directory := by
  have hname : '/' ∉ manifest.fileName.toList := by
    refine slash_notMem ?_
    rw [FileManifest.validate] at hvalid
    grind
  have hlist : (finalPath directory manifest).toList.reverse =
      manifest.fileName.toList.reverse ++ '/' :: directory.toList.reverse := by
    simp [finalPath]
  have hdrop : (manifest.fileName.toList.reverse ++ '/' :: directory.toList.reverse).dropWhile
      (· ≠ '/') = '/' :: directory.toList.reverse := by
    rw [List.dropWhile_append_of_pos]
    · rfl
    · grind
  grind [parent, String.ofList_toList]

variable {content : Option Bytes}

/-- The partial file as `lookPartFile` sees it. -/
theorem lookPartFile_ok
    (h : lookPartFile env files manifest directory = .ok content) :
    (content = none ∧
        files.entries.get? (env.locate (relayPartialPath directory manifest.transferId)) = none) ∨
      ∃ id, content = some (files.content id) ∧
        files.entries.get? (env.locate (relayPartialPath directory manifest.transferId)) =
          some (.file id) := by
  grind [lookPartFile]

/-- A file that was opened for writing at an offset: it is at its path and holds as many bytes of
what was there, which are hashed. -/
structure OpenedAt (files files' : FileStore L) (loc : L) (opened : Opened) (file : OpenFile) :
    Prop where
  opened_file : opened.file = some file
  position : file.position = opened.offset
  written : file.failed = false
  entry : files'.entries.get? loc = some (.file file.id)
  content : files'.content file.id = opened.hasher
  hasher : opened.hasher = (bytesAt files loc).take opened.offset
  length : opened.hasher.length = opened.offset

/-- A file that is emptied, or made, is empty and at its location. -/
theorem truncate_entry {path : String} (h : files.entries.get? (env.locate path) = none ∨
      ∃ id, files.entries.get? (env.locate path) = some (.file id)) :
    ((Action.truncate (env.locate path)).apply files).entries.get? (env.locate path) =
        some (.file (openedId env files path)) ∧
      ((Action.truncate (env.locate path)).apply files).content (openedId env files path) = [] := by
  rw [Action.apply, openedId]
  rcases h with hnone | ⟨id, hfile⟩
  · grind [FileStore.content, Action.createFile]
  · rw [hfile]
    refine ⟨hfile, ?_⟩
    rw [Action.content_setContent, if_pos rfl]

/-- The partial file is opened with what is in it, or emptied. -/
theorem openPartialFile_ok {action : Action L} {opened : Opened}
    (hcontent : lookPartFile env files pending.manifest directory = .ok content)
    (h : openPartialFile env files pending directory
      (existingPartialOffset pending.manifest content) content = (action, .ok opened)) :
    opened.offset = existingPartialOffset pending.manifest content ∧
      opened.alreadyCompleted = false ∧
      ∃ file, OpenedAt files (action.apply files)
        (env.locate (relayPartialPath directory pending.manifest.transferId)) opened file := by
  rw [openPartialFile] at h
  dsimp only at h
  split at h
  · cases h
  split at h
  · cases h
  split at h
  · cases h
  obtain ⟨rfl, hopened⟩ := Prod.mk.inj h
  obtain rfl := Except.ok.inj hopened
  refine ⟨rfl, rfl, ⟨openedId env files (relayPartialPath directory pending.manifest.transferId),
    existingPartialOffset pending.manifest content, false⟩, ?_⟩
  rcases lookPartFile_ok hcontent with ⟨rfl, hnone⟩ | ⟨id, rfl, hfile⟩
  · -- there is no partial file: it is made
    obtain ⟨hentry, hempty⟩ := truncate_entry (.inl hnone)
    refine ⟨rfl, rfl, rfl, hentry, hempty, ?_, rfl⟩
    rw [bytesAt_none hnone]
    rfl
  have hbytes := bytesAt_file hfile
  by_cases hzero : existingPartialOffset pending.manifest (some (files.content id)) = 0
  · -- an empty file, and one that is too long
    obtain ⟨hentry, hempty⟩ := truncate_entry (.inr ⟨id, hfile⟩)
    rw [if_pos hzero]
    refine ⟨rfl, rfl, rfl, hentry, ?_, ?_, ?_⟩
    · rw [hzero]
      exact hempty
    · rw [hbytes]
      rfl
    · rw [hzero]
      rfl
  · have hoffset : existingPartialOffset pending.manifest (some (files.content id)) =
        (files.content id).length := by
      grind [existingPartialOffset]
    have hid : openedId env files (relayPartialPath directory pending.manifest.transferId) =
        id := by
      rw [openedId, hfile]
    rw [if_neg hzero, hoffset, hid]
    refine ⟨rfl, rfl, rfl, hfile, ?_, ?_, ?_⟩
    · exact (List.take_length).symm
    · rw [hbytes]
      rfl
    · simp

/-- **What an opened file holds**: the file is in its place already, or the partial file is open at
its end and all of it is hashed. -/
theorem openIncoming_ok {action : Action L} {opened : Opened}
    (h : openIncoming codec env files pending directory = (action, .ok opened)) :
    (action = .keep ∧ opened = ⟨none, pending.manifest.fileSize, [], true⟩ ∧
        VerifiedAt codec pending.manifest files
          (env.locate (finalPath directory pending.manifest))) ∨
      opened.offset ≤ pending.manifest.fileSize ∧ opened.alreadyCompleted = false ∧
        ∃ file, OpenedAt files (action.apply files)
          (env.locate (relayPartialPath directory pending.manifest.transferId)) opened file := by
  rw [openIncoming] at h
  split at h
  · cases h
  split at h
  · cases h
  · rename_i hcompleted
    obtain ⟨rfl, hopened⟩ := Prod.mk.inj h
    obtain rfl := Except.ok.inj hopened
    exact .inl ⟨rfl, rfl, (existingCompletedFile_true hcompleted).2⟩
  split at h
  · cases h
  split at h
  · cases h
  rename_i content hcontent
  dsimp only at h
  split at h
  · cases h
  obtain ⟨hoffset, hcompleted, hopened⟩ := openPartialFile_ok hcontent h
  refine .inr ⟨?_, hcompleted, hopened⟩
  grind [validRelayOffset]

end Opened

/-! ## What the calls do to the records -/

section Effects

/-- **What an acceptance does to the records**: it fails, and the offer may be recorded again, or
the file that was opened is being received. -/
inductive AcceptEffect (codec : RelayCodec) (env : CallEnv L) (pending : PendingRelayIncoming)
    (s s' : RelayRuntime σ L) : Prop
  | failed
      (hactive : s'.transfers.activeIncoming = s.transfers.activeIncoming ∨
        s'.transfers.activeIncoming = s.transfers.activeIncoming.erase pending.transferId)
      (hpending : s'.transfers.pendingIncoming =
          s.transfers.pendingIncoming.erase pending.transferId ∨
        s'.transfers.pendingIncoming =
          (s.transfers.pendingIncoming.erase pending.transferId).put pending)
  | opened {directory : String} {action : Action L} {opened : Opened}
      (hdirectory : s.receiveDirectory = some directory)
      (hopen : openIncoming codec env s.files pending directory = (action, .ok opened))
      (hfiles : s'.files = action.apply s.files)
      (hactive : s'.transfers.activeIncoming =
        s.transfers.activeIncoming.put (activeOf pending directory opened))
      (hpending : s'.transfers.pendingIncoming =
        s.transfers.pendingIncoming.erase pending.transferId)

theorem receiveDirectory_startIncoming (directory : String) (opened : Opened) :
    (startIncoming codec services s pending directory opened).1.receiveDirectory =
      s.receiveDirectory := by
  rw [startIncoming]
  grind

/-- A session is started and its file recorded, or not. -/
theorem startIncoming_records (codec : RelayCodec) (services : RelayServices σ)
    (s : RelayRuntime σ L) (pending : PendingRelayIncoming) (directory : String) (opened : Opened) :
    ((startIncoming codec services s pending directory opened).1.transfers.activeIncoming =
        s.transfers.activeIncoming.put (activeOf pending directory opened) ∧
      (startIncoming codec services s pending directory opened).1.transfers.pendingIncoming =
        s.transfers.pendingIncoming) ∨
    ((startIncoming codec services s pending directory opened).1.transfers.activeIncoming =
        s.transfers.activeIncoming ∨
      (startIncoming codec services s pending directory opened).1.transfers.activeIncoming =
        s.transfers.activeIncoming.erase pending.transferId) ∧
    ((startIncoming codec services s pending directory opened).1.transfers.pendingIncoming =
        s.transfers.pendingIncoming ∨
      (startIncoming codec services s pending directory opened).1.transfers.pendingIncoming =
        s.transfers.pendingIncoming.put pending) := by
  rw [startIncoming]
  dsimp only
  split
  · exact .inr ⟨.inl rfl, .inl rfl⟩
  split
  · exact .inr ⟨.inl rfl, .inl rfl⟩
  split
  · exact .inr ⟨.inl rfl, .inr rfl⟩
  · exact .inr ⟨.inl rfl, .inl rfl⟩
  split
  · exact .inl ⟨rfl, rfl⟩
  · exact .inr ⟨.inr rfl, .inr rfl⟩

variable {transferId : String}

/-- **An acceptance** by what it does to the records, the files and the directory. -/
theorem acceptPending_effect (codec : RelayCodec) (services : RelayServices σ) (env : CallEnv L)
    (hpending : s.transfers.pendingIncoming.get? transferId = some pending) :
    AcceptEffect codec env pending s
        (acceptPendingRelayIncoming codec services env s transferId).1 ∧
      (acceptPendingRelayIncoming codec services env s transferId).1.files =
        (acceptAction codec env s pending).apply s.files ∧
      (acceptPendingRelayIncoming codec services env s transferId).1.receiveDirectory =
        s.receiveDirectory := by
  obtain rfl : pending.transferId = transferId := Keyed.key_of_get? hpending
  refine ⟨?_, (acceptPending_only hpending).2, ?_⟩
  · rw [acceptPendingRelayIncoming, hpending]
    rcases hdirectory : s.receiveDirectory with _ | directory
    · exact .failed (.inl rfl) (.inl rfl)
    dsimp only
    rcases hopen : openIncoming codec env s.files pending directory with ⟨action, error | opened⟩
    · exact .failed (.inl rfl) (.inl rfl)
    · rcases startIncoming_records codec services
        { s with
            transfers := { s.transfers with
              pendingIncoming := s.transfers.pendingIncoming.erase pending.transferId }
            files := action.apply s.files
            receiveDirectory := some directory }
        pending directory opened with ⟨hactive, hpending⟩ | ⟨hactive, hpending⟩
      · exact .opened hdirectory hopen (startIncoming_only directory opened).2 hactive hpending
      · exact .failed hactive hpending
  · grind [acceptPendingRelayIncoming, receiveDirectory_startIncoming]

theorem acceptPending_of_none
    (hpending : s.transfers.pendingIncoming.get? transferId = none) :
    (acceptPendingRelayIncoming codec services env s transferId).1 = s := by
  rw [acceptPendingRelayIncoming, hpending]

/-- **An offer** is recorded and may be accepted at once. -/
theorem admitOffer_effect (codec : RelayCodec) (services : RelayServices σ) (env : CallEnv L)
    (isNewOffer : Bool) (hkey : pending.manifest.transferId = pending.transferId)
    (hpending : s.transfers.pendingIncoming.get? pending.transferId = some pending) :
    ((AcceptEffect codec env pending s (admitOffer codec services env s pending isNewOffer).1) ∨
      (admitOffer codec services env s pending isNewOffer).1.transfers.activeIncoming =
          s.transfers.activeIncoming ∧
        ((admitOffer codec services env s pending isNewOffer).1.transfers.pendingIncoming =
            s.transfers.pendingIncoming ∨
          (admitOffer codec services env s pending isNewOffer).1.transfers.pendingIncoming =
            s.transfers.pendingIncoming.erase pending.transferId)) ∧
      (admitOffer codec services env s pending isNewOffer).1.files =
        (admitAction codec env s pending isNewOffer).apply s.files ∧
      (admitOffer codec services env s pending isNewOffer).1.receiveDirectory =
        s.receiveDirectory := by
  have hfiles := (admitOffer_only codec services env hpending hkey isNewOffer).2
  suffices h : ((AcceptEffect codec env pending s
      (admitOffer codec services env s pending isNewOffer).1) ∨ _ ∧ _) ∧ _ from
    ⟨h.1, hfiles, h.2⟩
  rw [admitOffer]
  generalize claimIncomingResume s.transfers.manager pending.manifest pending.senderId = claim
  obtain ⟨claimed, resumeOffset⟩ := claim
  dsimp only
  split
  · exact ⟨.inr ⟨rfl, .inl rfl⟩, rfl⟩
  split
  · exact ⟨.inr ⟨rfl, .inr rfl⟩, rfl⟩
  rename_i registered _
  split
  · have heffect := acceptPending_effect codec services env
      (s := { s with transfers := { s.transfers with manager := registered } }) hpending
    refine ⟨.inl ?_, heffect.2.2⟩
    cases heffect.1 with
    | failed hactive hpending => exact .failed hactive hpending
    | opened hdirectory hopen hfiles hactive hpending =>
      exact .opened hdirectory hopen hfiles hactive hpending
  · exact ⟨.inr ⟨rfl, .inl rfl⟩, rfl⟩

variable {active : ActiveRelayIncoming}

section

variable {sessionId : String} {sequence : UInt64} {ciphertext : Bytes} {file : OpenFile}
  {clear : Bytes}
  (h : chunkWrite services env s sessionId sequence ciphertext = some (active, file, clear))

include h

/-- **What has been checked when a chunk is handed to its file**: it is the next one of a file that
is being received, and it fits. -/
theorem chunkWrite_checked :
    active.alreadyCompleted = false ∧ sequence.toNat = active.nextSequence ∧ clear ≠ [] ∧
      active.receivedBytes + clear.length ≤ active.offer.manifest.fileSize := by
  rw [chunkWrite] at h
  split at h
  · cases h
  split at h
  · cases h
  split at h
  · cases h
  split at h
  · cases h
  split at h
  · cases h
  obtain ⟨rfl, hrest⟩ := Prod.mk.inj (Option.some.inj h)
  obtain ⟨rfl, rfl⟩ := Prod.mk.inj hrest
  simp_all

theorem chunkWrite_target :
    s.transfers.activeIncoming.get? active.offer.transferId = some active ∧
      active.file = some file := by
  grind [receiveRelayChunk_cases]

/-- The record of a file that a chunk was handed to. -/
theorem active_receiveRelayChunk (hwritten : file.failed = false) :
    (receiveRelayChunk services env s sessionId sequence ciphertext).1.transfers.activeIncoming =
        s.transfers.activeIncoming.put (active.absorb (file.after env.faults clear) clear) ∧
      (receiveRelayChunk services env s sessionId sequence ciphertext).1.transfers.pendingIncoming =
        s.transfers.pendingIncoming := by
  rcases receiveRelayChunk_cases services env s sessionId sequence ciphertext with
    ⟨hnone, -⟩ | ⟨active', file', clear', rest, hactive, hfile, -, hwrite, hresult⟩
  · cases h.symm.trans hnone
  cases h.symm.trans hwrite
  rw [hresult, writeChunk, hwritten, if_neg Bool.false_ne_true]
  grind

end

theorem receiveDirectory_receiveRelayChunk (sessionId : String) (sequence : UInt64)
    (ciphertext : Bytes) :
    (receiveRelayChunk services env s sessionId sequence ciphertext).1.receiveDirectory =
      s.receiveDirectory := by
  rw [receiveRelayChunk]
  split
  · rfl
  split
  · rfl
  split
  · rfl
  dsimp only
  split
  · rfl
  split
  · rfl
  rw [writeChunk]
  split
  · rfl
  dsimp only
  split <;> rfl

/-- **A completion** ends the record of the file. -/
theorem records_completeRelayIncoming (codec : RelayCodec) (services : RelayServices σ)
    (senderId : Option String) {sessionOrTransferId id : String}
    (h : completionTarget env s sessionOrTransferId = some (id, active)) :
    (completeRelayIncoming codec services env s sessionOrTransferId
          senderId).1.transfers.activeIncoming = s.transfers.activeIncoming.erase id ∧
      (completeRelayIncoming codec services env s sessionOrTransferId
        senderId).1.transfers.pendingIncoming = s.transfers.pendingIncoming ∧
      (completeRelayIncoming codec services env s sessionOrTransferId
        senderId).1.receiveDirectory = s.receiveDirectory := by
  have hacknowledged : ∀ ended : RelayRuntime σ L, ∀ senderId,
      (acknowledgeCompletion services ended id senderId).1.transfers = ended.transfers ∧
        (acknowledgeCompletion services ended id senderId).1.receiveDirectory =
          ended.receiveDirectory := by
    grind [acknowledgeCompletion]
  rw [completeRelayIncoming, h]
  grind

end Effects

end SshMobile.Relay
