import SshMobile.Relay.OneTransfer

/-!
# What one peer's envelopes do to another peer's transfers

Every payload that a relay delivers is an envelope of a peer whose path is ready. The file envelopes
name a transfer, or the session of one, and most of them are acted on without a look at who sent
them. So an envelope of one peer can end, answer or advance a transfer of another; and since files
are found by their paths, it can reach another transfer's partial file.

`Disturbs` lists the ways. Everything else leaves the transfers of other peers exactly as they were.

## Main definitions

* `Disturbs`: the envelopes that reach a transfer of another peer

## Main results

* `payload_isolated_iff`: an envelope leaves a foreign transfer alone unless it is one of those
* `foreign_cancel_ends_transfer`: a cancellation is acted on whoever sent it
-/

namespace SshMobile.Relay

open Library Transfer

/-! ## Foreign transfers -/

section Foreign

variable {σ L R X : Type} [DecidableEq L] (codec : RelayCodec) (services : RelayServices σ)
  (noise : RelayNoise R X) (env : CallEnv L)

/-- The path that a cancellation removes: that of the file it stops, or the partial path of the
transfer that it names. -/
inductive CancelledPath (s : RelayRuntime σ L) (sessionOrTransferId : String) : String → Prop
  | stopped {id : String} {active : ActiveRelayIncoming}
      (hactive : s.transfers.cancelledActive env.order sessionOrTransferId = some (id, active)) :
      CancelledPath s sessionOrTransferId active.temporaryPath
  | named {directory : String}
      (hactive : s.transfers.cancelledActive env.order sessionOrTransferId = none)
      (hdirectory : s.receiveDirectory = some directory) :
      CancelledPath s sessionOrTransferId (relayPartialPath directory sessionOrTransferId)

/-- **The envelopes that reach a transfer of another peer**, by their kind and their body. -/
inductive Disturbs (s : DataPlane σ L R X) (peerId transferId : String) :
    EnvelopeKind → Bytes → Prop
  /-- The end of a handshake in which the transfer's peer takes part replaces its connection. -/
  | replacesConnection {body : Bytes} {token replacedPeerId : String} {item : TransferSession}
      (hlength : 32 ≤ body.length) (htoken : decodeUtf8 (body.take 32) = some token)
      (hreplaces : ReplacesConnection noise s token peerId (body.drop 32) replacedPeerId)
      (hitem : s.transfers.manager.get? transferId = some item)
      (hpeer : item.peerId = replacedPeerId) (hrunning : item.state.isRunning = true) :
      Disturbs s peerId transferId .crypto body
  /-- An offer under the transfer's identifier is recorded, and the lookup of its file fails. -/
  | offerStays {body : Bytes} {pending : PendingRelayIncoming} {isNewOffer : Bool}
      {error : RelayDataError}
      (hrecords : RecordsOffer codec s.toRelayRuntime peerId body pending isNewOffer)
      (hid : pending.transferId = transferId)
      (herror : completedPath codec env s.toRelayRuntime pending.manifest = .error error) :
      Disturbs s peerId transferId .fileOffer body
  /-- Another offer starts its file afresh, and both paths lead to the same free place, or to the
  same file, which is not empty. -/
  | offerOpens {body : Bytes} {pending : PendingRelayIncoming} {isNewOffer : Bool}
      {directory : String} {loc own : L}
      (hrecords : RecordsOffer codec s.toRelayRuntime peerId body pending isNewOffer)
      (hid : pending.transferId ≠ transferId)
      (hstarts : StartsAfresh codec env s.toRelayRuntime pending directory)
      (hpart : PartFileAt env s.toRelayRuntime transferId loc)
      (hown : own = env.locate (relayPartialPath directory pending.manifest.transferId))
      (hplace : (own = loc ∧ s.files.entries.get? own = none) ∨
        ∃ id, s.files.entries.get? own = some (.file id) ∧
          s.files.entries.get? loc = some (.file id) ∧ s.files.content id ≠ []) :
      Disturbs s peerId transferId .fileOffer body
  /-- An acceptance names the transfer. -/
  | accepts {body : Bytes} {acceptance : RelayAcceptance}
      (hbody : (decodeUtf8 body).bind codec.parseAcceptance = some acceptance)
      (hid : acceptance.transferId = transferId)
      (hwaits : s.transfers.acceptances.contains transferId = true) :
      Disturbs s peerId transferId .fileAccept body
  /-- A completion names the transfer or its session. -/
  | completes {body : Bytes} {id : String} {active : ActiveRelayIncoming}
      (hbody : decodeUtf8 body = some id)
      (htarget : completionTarget env s.toRelayRuntime id = some (transferId, active)) :
      Disturbs s peerId transferId .fileComplete body
  /-- Another file is completed and neither left nor moved, and its path leads to the transfer's
  file. -/
  | completionRemoves {body : Bytes} {id other : String} {active : ActiveRelayIncoming}
      (hbody : decodeUtf8 body = some id)
      (htarget : completionTarget env s.toRelayRuntime id = some (other, active))
      (hleft : ¬ LeavesPartFile codec env s.files active (some peerId))
      (hmoved : ¬ MovesPartFile codec env s.files active (some peerId))
      (hfault : env.faults.remove = false)
      (hpart : PartFileAt env s.toRelayRuntime transferId (env.locate active.temporaryPath))
      (hremovable : s.files.Removable (env.locate active.temporaryPath)) :
      Disturbs s peerId transferId .fileComplete body
  /-- Another file is completed and moved, from or to the place of the transfer's file. -/
  | completionMoves {body : Bytes} {id other : String} {active : ActiveRelayIncoming} {loc : L}
      (hbody : decodeUtf8 body = some id)
      (htarget : completionTarget env s.toRelayRuntime id = some (other, active))
      (hmoves : MovesPartFile codec env s.files active (some peerId))
      (hpart : PartFileAt env s.toRelayRuntime transferId loc)
      (hplace : loc = env.locate active.temporaryPath ∨ loc = env.locate active.finalPath) :
      Disturbs s peerId transferId .fileComplete body
  /-- The acknowledgement of a completion names the transfer. -/
  | acknowledges {body : Bytes} (hbody : decodeUtf8 body = some transferId)
      (hwaits : s.transfers.completions.contains transferId = true) :
      Disturbs s peerId transferId .fileCompleteAck body
  /-- A cancellation names the transfer. -/
  | cancels {body : Bytes} (hbody : decodeUtf8 body = some transferId) :
      Disturbs s peerId transferId .fileCancel body
  /-- A cancellation names the session of the transfer. -/
  | cancelsSession {body : Bytes} {id : String} {active : ActiveRelayIncoming}
      (hbody : decodeUtf8 body = some id)
      (htarget : s.transfers.cancelledActive env.order id = some (transferId, active)) :
      Disturbs s peerId transferId .fileCancel body
  /-- Another transfer is cancelled, and its path leads to the transfer's file. -/
  | cancelFile {body : Bytes} {id path : String} (hbody : decodeUtf8 body = some id)
      (hpath : CancelledPath env s.toRelayRuntime id path) (hfault : env.faults.remove = false)
      (hpart : PartFileAt env s.toRelayRuntime transferId (env.locate path))
      (hremovable : s.files.Removable (env.locate path)) :
      Disturbs s peerId transferId .fileCancel body
  /-- A chunk of the transfer's session passes the checks. -/
  | writes {body : Bytes} {sessionId : String} {active : ActiveRelayIncoming} {file : OpenFile}
      {clear : Bytes} (hlength : 40 ≤ body.length)
      (hsession : decodeUtf8 (body.take 32) = some sessionId)
      (hwrite : chunkWrite services env s.toRelayRuntime sessionId
        (UInt64.ofNat (ofBeBytes ((body.drop 32).take 8))) (body.drop 40) =
          some (active, file, clear))
      (hid : active.offer.transferId = transferId) : Disturbs s peerId transferId .fileChunk body
  /-- A chunk of another session is written, its open file is the transfer's, and the file holds
  other bytes there. -/
  | writesFile {body : Bytes} {sessionId : String} {active : ActiveRelayIncoming} {file : OpenFile}
      {clear : Bytes} {loc : L} (hlength : 40 ≤ body.length)
      (hsession : decodeUtf8 (body.take 32) = some sessionId)
      (hwrite : chunkWrite services env s.toRelayRuntime sessionId
        (UInt64.ofNat (ofBeBytes ((body.drop 32).take 8))) (body.drop 40) =
          some (active, file, clear))
      (hwritten : file.failed = false)
      (hpart : PartFileAt env s.toRelayRuntime transferId loc)
      (hfile : s.files.entries.get? loc = some (.file file.id))
      (hbytes : FileStore.overwrite (s.files.content file.id) file.position
        (env.faults.written clear) ≠ s.files.content file.id) :
      Disturbs s peerId transferId .fileChunk body

/-- An envelope is one of those that reach the transfer. -/
def DisturbedBy (s : DataPlane σ L R X) (peerId transferId : String) (envelope : Bytes) : Prop :=
  ∃ kind body envelopeKind, envelope = kind :: body ∧
    EnvelopeKind.ofByte kind = some envelopeKind ∧
    Disturbs codec services noise env s peerId transferId envelopeKind body

variable {codec services noise env} {ports : SessionServices σ} {s : DataPlane σ L R X}
  {peerId transferId : String}

theorem pausedFor_ne {item : TransferSession} (h : item.state.isRunning = true) :
    item.pausedFor item.peerId ≠ item := by
  intro heq
  have hstate := congrArg TransferSession.state heq
  rw [TransferSession.pausedFor, if_pos ⟨rfl, h⟩] at hstate
  rw [← hstate] at h
  cases h

theorem crypto_isolated_iff (hforeign : Foreign s.transfers transferId peerId) (body : Bytes) :
    Isolated env transferId s.toRelayRuntime
        (receiveCryptoEnvelope services ports noise env s peerId body).1.toRelayRuntime ↔
      ¬ Disturbs codec services noise env s peerId transferId .crypto body := by
  rw [receiveCryptoEnvelope]
  split
  · refine iff_of_true (isolated_of_same rfl rfl) ?_
    rintro ⟨hlength, -⟩
    omega
  rename_i hlength
  rcases htoken : decodeUtf8 (body.take 32) with _ | token
  · refine iff_of_true (isolated_of_same rfl rfl) ?_
    rintro ⟨-, htoken', -⟩
    rw [htoken] at htoken'
    cases htoken'
  -- a replaced connection pauses the running sessions of its peer; no other step reaches a session
  -- of another peer
  constructor
  · rintro ⟨hsame, -⟩ ⟨-, htoken', hreplaces, hitem, rfl, hrunning⟩
    obtain rfl := Option.some.inj (htoken.symm.trans htoken')
    have hmanager := hsame.manager
    rw [(handshake_replaces ports env services hreplaces).2] at hmanager
    have hpaused := (get?_pausePeerTransfers _ _ _).symm.trans (hmanager.trans hitem)
    rw [hitem, Option.map_some, Option.some.injEq] at hpaused
    exact pausedFor_ne hrunning hpaused
  · intro hnot
    by_cases hreplaces : ∃ replacedPeerId,
        ReplacesConnection noise s token peerId (body.drop 32) replacedPeerId
    · obtain ⟨replacedPeerId, hreplaces⟩ := hreplaces
      obtain ⟨hfiles, htransfers⟩ := handshake_replaces ports env services hreplaces
      refine ⟨?_, fun path _ => by rw [hfiles]⟩
      rw [htransfers]
      refine ⟨rfl, rfl, rfl, rfl, (get?_pausePeerTransfers _ _ _).trans ?_⟩
      rcases hitem : s.transfers.manager.get? transferId with _ | item
      · rfl
      rw [Option.map_some, TransferSession.pausedFor, if_neg]
      rintro ⟨hpeer, hrunning⟩
      exact hnot (.replacesConnection (Nat.le_of_not_lt hlength) htoken hreplaces hitem hpeer
        hrunning)
    · have hkeeps := handshake_keepsOthers ports env services (not_exists.mp hreplaces)
      refine ⟨⟨?_, ?_, ?_, ?_, hkeeps.manager _ hforeign.session_ne⟩, fun path _ => ?_⟩
      · rw [hkeeps.activeIncoming]
      · rw [hkeeps.pendingIncoming]
      · rw [hkeeps.acceptances]
      · rw [hkeeps.completions]
      · rw [hkeeps.files]

theorem offer_isolated_iff (hforeign : Foreign s.transfers transferId peerId) (body : Bytes) :
    Isolated env transferId s.toRelayRuntime
        (receiveRelayOffer codec services env s.toRelayRuntime peerId body).1 ↔
      ¬ Disturbs codec services noise env s peerId transferId .fileOffer body := by
  by_cases hrecords : ∃ pending isNewOffer,
      RecordsOffer codec s.toRelayRuntime peerId body pending isNewOffer
  · obtain ⟨pending, isNewOffer, hrecords⟩ := hrecords
    rw [receiveRelayOffer_of_records hrecords]
    -- an offer under the transfer's own identifier is refused at the manager, if it gets there
    by_cases hid : pending.transferId = transferId
    · subst hid
      have hoffered := sameTransfer_offered hforeign hrecords services env
      rw [Isolated, and_iff_left fun path _ => by rw [hoffered.1], hoffered.2]
      constructor
      · rintro ⟨completed, hok⟩ hdisturbs
        cases hdisturbs with
        | offerStays hrecords' hid' herror | offerOpens hrecords' hid' =>
          grind [RecordsOffer]
      · intro hnot
        rcases hcompleted : completedPath codec env s.toRelayRuntime pending.manifest with
          error | completed
        · exact absurd (.offerStays hrecords rfl hcompleted) hnot
        · exact ⟨completed, rfl⟩
    · have hkey := (decodeOffer_ok hrecords.2.1).1.2
      have hput : (s.toRelayRuntime.recorded pending).transfers.pendingIncoming.get?
          pending.transferId = some pending := Keyed.get?_put_self _ _
      have hfiles : (admitOffer codec services env (s.toRelayRuntime.recorded pending) pending
          isNewOffer).1.files = (admitAction codec env s.toRelayRuntime pending isNewOffer).apply
            s.toRelayRuntime.files :=
        (admitOffer_only codec services env hput hkey isNewOffer).2
      have honly := (onlyTransfer_recorded s.toRelayRuntime pending).trans
        (admitOffer_only codec services env hput hkey isNewOffer).1
      rw [isolated_iff_of_other hfiles honly (Ne.symm hid)]
      refine not_congr ⟨?_, fun hdisturbs => ?_⟩
      · rintro ⟨loc, hpart, hchanges⟩
        obtain ⟨directory, hstarts, hplace⟩ := admitAction_changes_iff.mp hchanges
        exact .offerOpens hrecords hid hstarts hpart rfl hplace
      cases hdisturbs with
      | offerStays hrecords' hid' herror =>
        grind [RecordsOffer]
      | offerOpens hrecords' hid' hstarts hpart hown hplace =>
        obtain ⟨rfl, rfl⟩ := hrecords.unique hrecords'
        subst hown
        exact ⟨_, hpart, admitAction_changes_iff.mpr ⟨_, hstarts, hplace⟩⟩
  · simp only [not_exists] at hrecords
    rw [receiveRelayOffer_of_not_records hrecords]
    refine iff_of_true (isolated_of_same rfl rfl) fun hdisturbs => ?_
    cases hdisturbs with
    | offerStays hrecords' | offerOpens hrecords' => exact hrecords _ _ hrecords'

/-- A table keeps its entry for a key that another one is erased for, or that it does not have. -/
theorem get?_erase_eq_iff {table : Table String Unit} {id : String} :
    (table.erase id).get? transferId = table.get? transferId ↔
      ¬ (id = transferId ∧ table.contains transferId = true) := by
  grind

theorem acceptance_isolated_iff (body : Bytes) :
    Isolated env transferId s.toRelayRuntime (receiveAcceptance codec s.toRelayRuntime body).1 ↔
      ¬ Disturbs codec services noise env s peerId transferId .fileAccept body := by
  rw [receiveAcceptance]
  rcases hbody : (decodeUtf8 body).bind codec.parseAcceptance with _ | acceptance
  · refine iff_of_true (isolated_of_same rfl rfl) fun hdisturbs => ?_
    cases hdisturbs with
    | accepts hbody' => exact nomatch hbody.symm.trans hbody'
  · have hentry : Isolated env transferId s.toRelayRuntime
        { s.toRelayRuntime with
            transfers := { s.transfers with
              acceptances := s.transfers.acceptances.erase acceptance.transferId } } ↔
          (s.transfers.acceptances.erase acceptance.transferId).get? transferId =
            s.transfers.acceptances.get? transferId :=
      ⟨fun h => h.1.acceptances, fun h => ⟨⟨rfl, rfl, h, rfl, rfl⟩, fun _ _ => rfl⟩⟩
    refine hentry.trans (get?_erase_eq_iff.trans (not_congr ⟨?_, ?_⟩))
    · rintro ⟨hid, hwaits⟩
      exact .accepts hbody hid hwaits
    · intro hdisturbs
      cases hdisturbs with
      | accepts hbody' hid hwaits =>
        simp_all

theorem completionAck_isolated_iff (body : Bytes) :
    Isolated env transferId s.toRelayRuntime (receiveCompletionAck s.toRelayRuntime body).1 ↔
      ¬ Disturbs codec services noise env s peerId transferId .fileCompleteAck body := by
  rw [receiveCompletionAck]
  rcases hbody : decodeUtf8 body with _ | id
  · refine iff_of_true (isolated_of_same rfl rfl) fun hdisturbs => ?_
    cases hdisturbs with
    | acknowledges hbody' => exact nomatch hbody.symm.trans hbody'
  · have hentry : Isolated env transferId s.toRelayRuntime
        { s.toRelayRuntime with
            transfers := { s.transfers with
              completions := s.transfers.completions.erase id } } ↔
          (s.transfers.completions.erase id).get? transferId =
            s.transfers.completions.get? transferId :=
      ⟨fun h => h.1.completions, fun h => ⟨⟨rfl, rfl, rfl, h, rfl⟩, fun _ _ => rfl⟩⟩
    refine hentry.trans (get?_erase_eq_iff.trans (not_congr ⟨?_, ?_⟩))
    · rintro ⟨rfl, hwaits⟩
      exact .acknowledges hbody hwaits
    · intro hdisturbs
      cases hdisturbs with
      | acknowledges hbody' hwaits =>
        simp_all

/-- Completing a file reaches the transfer's file by removing or moving its own. -/
theorem touches_completion_iff {active : ActiveRelayIncoming} {senderId : Option String} :
    TouchesPartFile env s.toRelayRuntime transferId
        (completionAction env active (completion codec env s.files active senderId)) ↔
      (¬ LeavesPartFile codec env s.files active senderId ∧
          ¬ MovesPartFile codec env s.files active senderId ∧ env.faults.remove = false ∧
          PartFileAt env s.toRelayRuntime transferId (env.locate active.temporaryPath) ∧
          s.files.Removable (env.locate active.temporaryPath)) ∨
        MovesPartFile codec env s.files active senderId ∧
          ∃ loc, PartFileAt env s.toRelayRuntime transferId loc ∧
            (loc = env.locate active.temporaryPath ∨ loc = env.locate active.finalPath) := by
  rw [TouchesPartFile]
  rcases completionAction_cases codec env s.files active senderId with
    ⟨hleft, haction⟩ | ⟨hmoves, haction⟩ | ⟨hleft, hmoves, haction⟩
  · rw [haction]
    have hmoves : ¬ MovesPartFile codec env s.files active senderId := by grind
    simp [Action.Changes, hleft, hmoves]
  · rw [haction]
    simp [Action.Changes, hmoves, hmoves.movable]
  · rw [haction]
    cases env.faults.remove <;> simp [Action.Changes, hleft, hmoves]

theorem completion_isolated_iff (body : Bytes) :
    Isolated env transferId s.toRelayRuntime
        (receiveCompletion codec services env s.toRelayRuntime peerId body).1 ↔
      ¬ Disturbs codec services noise env s peerId transferId .fileComplete body := by
  rw [receiveCompletion]
  rcases hbody : decodeUtf8 body with _ | id
  · refine iff_of_true (isolated_of_same rfl rfl) fun hdisturbs => ?_
    cases hdisturbs with
    | completes hbody' | completionRemoves hbody' | completionMoves hbody' =>
      cases hbody.symm.trans hbody'
  dsimp only
  rcases htarget : completionTarget env s.toRelayRuntime id with _ | ⟨other, active⟩
  · rw [completeRelayIncoming, htarget]
    refine iff_of_true (isolated_of_same rfl rfl) fun hdisturbs => ?_
    cases hdisturbs with
    | completes hbody' htarget' | completionRemoves hbody' htarget'
    | completionMoves hbody' htarget' => simp_all
  -- the record goes with the completion, so the named transfer is never as it was
  · obtain ⟨honly, hfiles, hgone⟩ := completeRelayIncoming_of_some codec services (some peerId)
      htarget
    rw [isolated_iff_of_action hfiles, touches_completion_iff]
    constructor
    · rintro ⟨hsame, huntouched⟩ hdisturbs
      cases hdisturbs with
      | completes hbody' htarget' => simp_all
      | completionRemoves hbody' htarget' hleft hmoved hfault hpart hremovable =>
        cases hbody.symm.trans hbody'
        cases htarget.symm.trans htarget'
        exact huntouched (.inl ⟨hleft, hmoved, hfault, hpart, hremovable⟩)
      | completionMoves hbody' htarget' hmoves hpart hplace =>
        cases hbody.symm.trans hbody'
        cases htarget.symm.trans htarget'
        exact huntouched (.inr ⟨hmoves, _, hpart, hplace⟩)
    · intro hnot
      refine ⟨honly _ ?_, ?_⟩
      · rintro rfl
        exact hnot (.completes hbody htarget)
      · rintro (⟨hleft, hmoved, hfault, hpart, hremovable⟩ | ⟨hmoves, loc, hpart, hplace⟩)
        · exact hnot (.completionRemoves hbody htarget hleft hmoved hfault hpart hremovable)
        · exact hnot (.completionMoves hbody htarget hmoves hpart hplace)

theorem touches_cancel_iff {id : String} :
    TouchesPartFile env s.toRelayRuntime transferId (cancelAction env s.toRelayRuntime id) ↔
      ∃ path, CancelledPath env s.toRelayRuntime id path ∧ env.faults.remove = false ∧
        PartFileAt env s.toRelayRuntime transferId (env.locate path) ∧
        s.files.Removable (env.locate path) := by
  have hpath : ∀ path, (s.transfers.cancelRelayIncoming env.order s.receiveDirectory id).2 =
      some path ↔ CancelledPath env s.toRelayRuntime id path := by
    intro path
    rw [RelayTransfers.cancelRelayIncoming]
    rcases hactive : s.transfers.cancelledActive env.order id with _ | ⟨stopped, active⟩
    · have hid : s.transfers.cancelledId env.order id = id := by
        grind [cancelledId_cases]
      constructor
      · intro h
        obtain ⟨directory, hdirectory, rfl⟩ := Option.map_eq_some_iff.mp h
        rw [hid]
        exact .named hactive hdirectory
      · rintro (⟨hactive'⟩ | ⟨-, hdirectory⟩)
        · cases hactive.symm.trans hactive'
        · simp [hdirectory, hid]
    · constructor
      · rintro ⟨⟩
        exact .stopped hactive
      · rintro (⟨hactive'⟩ | ⟨hactive', -⟩)
        · cases hactive.symm.trans hactive'
          rfl
        · cases hactive.symm.trans hactive'
  rw [TouchesPartFile, cancelAction]
  split
  · grind [Action.Changes]
  · cases env.faults.remove <;> grind [Action.Changes]

theorem cancel_isolated_iff (hforeign : Foreign s.transfers transferId peerId) (body : Bytes) :
    Isolated env transferId s.toRelayRuntime (receiveCancel env s.toRelayRuntime body).1 ↔
      ¬ Disturbs codec services noise env s peerId transferId .fileCancel body := by
  rcases hbody : decodeUtf8 body with _ | id
  · rw [receiveCancel, hbody]
    refine iff_of_true (isolated_of_same rfl rfl) fun hdisturbs => ?_
    cases hdisturbs with
    | cancels hbody' | cancelsSession hbody' | cancelFile hbody' =>
      cases hbody.symm.trans hbody'
  · have hfiles : (receiveCancel env s.toRelayRuntime body).1.files =
        (cancelAction env s.toRelayRuntime id).apply s.toRelayRuntime.files := by
      rw [receiveCancel, hbody]
      rfl
    rw [isolated_iff_of_action hfiles, sameTransfer_receiveCancel_iff hforeign hbody,
      touches_cancel_iff]
    constructor
    · rintro ⟨⟨hne, hstopped⟩, huntouched⟩ hdisturbs
      cases hdisturbs with
      | cancels hbody' | cancelsSession hbody' htarget => simp_all
      | cancelFile hbody' hpath hfault hpart hremovable =>
        cases hbody.symm.trans hbody'
        exact huntouched ⟨_, hpath, hfault, hpart, hremovable⟩
    · intro hnot
      refine ⟨⟨?_, fun active htarget => hnot (.cancelsSession hbody htarget)⟩, ?_⟩
      · rintro rfl
        exact hnot (.cancels hbody)
      · rintro ⟨path, hpath, hfault, hpart, hremovable⟩
        exact hnot (.cancelFile hbody hpath hfault hpart hremovable)

theorem chunk_isolated_iff (body : Bytes) :
    Isolated env transferId s.toRelayRuntime
        (receiveChunkEnvelope services env s.toRelayRuntime body).1 ↔
      ¬ Disturbs codec services noise env s peerId transferId .fileChunk body := by
  rw [receiveChunkEnvelope]
  split
  · refine iff_of_true (isolated_of_same rfl rfl) fun hdisturbs => ?_
    cases hdisturbs with
    | writes hlength | writesFile hlength => omega
  rename_i hlength
  rcases hsession : decodeUtf8 (body.take 32) with _ | sessionId
  · refine iff_of_true (isolated_of_same rfl rfl) fun hdisturbs => ?_
    cases hdisturbs with
    | writes _ hsession' | writesFile _ hsession' => exact nomatch hsession.symm.trans hsession'
  rcases hwrite : chunkWrite services env s.toRelayRuntime sessionId
      (UInt64.ofNat (ofBeBytes ((body.drop 32).take 8))) (body.drop 40) with
    _ | ⟨active, file, clear⟩
  · obtain ⟨htransfers, hfiles⟩ := receiveRelayChunk_of_none hwrite
    refine iff_of_true (isolated_of_same htransfers hfiles) fun hdisturbs => ?_
    cases hdisturbs with
    | writes _ hsession' hwrite' | writesFile _ hsession' hwrite' =>
      simp_all
  -- the record takes the chunk, or the failure of the write before, so it is never as it was
  · obtain ⟨honly, hfiles, hchanged⟩ := receiveRelayChunk_of_some hwrite
    have htouches : TouchesPartFile env s.toRelayRuntime transferId (chunkAction env file clear) ↔
        file.failed = false ∧ ∃ loc, PartFileAt env s.toRelayRuntime transferId loc ∧
          s.files.entries.get? loc = some (.file file.id) ∧
          FileStore.overwrite (s.files.content file.id) file.position
            (env.faults.written clear) ≠ s.files.content file.id := by
      rw [TouchesPartFile, chunkAction]
      cases file.failed <;> simp [Action.Changes]
    rw [isolated_iff_of_action hfiles, htouches]
    constructor
    · rintro ⟨hkept, huntouched⟩ hdisturbs
      cases hdisturbs with
      | writes _ hsession' hwrite' hid => simp_all
      | writesFile _ hsession' hwrite' hwritten hpart hfile hbytes =>
        cases hsession.symm.trans hsession'
        cases hwrite.symm.trans hwrite'
        exact huntouched ⟨hwritten, _, hpart, hfile, hbytes⟩
    · intro hnot
      have hlong : 40 ≤ body.length := Nat.le_of_not_lt hlength
      refine ⟨honly _ ?_, ?_⟩
      · rintro rfl
        exact hnot (.writes hlong hsession hwrite rfl)
      · rintro ⟨hwritten, loc, hpart, hfile, hbytes⟩
        exact hnot (.writesFile hlong hsession hwrite hwritten hpart hfile hbytes)

theorem token_isolated (receive : σ → String → String → Bytes → σ × Except RelayDataError Unit)
    (body : Bytes) :
    Isolated env transferId s.toRelayRuntime
      (receiveTokenEnvelope receive s.toRelayRuntime peerId body).1 := by
  grind [receiveTokenEnvelope, isolated_of_same]

/-- **Isolation of one envelope**, by its kind. -/
theorem handleEnvelope_isolated_iff (hforeign : Foreign s.transfers transferId peerId)
    (envelopeKind : EnvelopeKind) (body : Bytes) :
    Isolated env transferId s.toRelayRuntime
        (handleEnvelope codec services ports noise env s peerId body
          envelopeKind).1.toRelayRuntime ↔
      ¬ Disturbs codec services noise env s peerId transferId envelopeKind body := by
  cases envelopeKind with
  | crypto => exact crypto_isolated_iff hforeign body
  | fileOffer => exact offer_isolated_iff hforeign body
  | fileAccept => exact acceptance_isolated_iff body
  | fileComplete => exact completion_isolated_iff body
  | fileCompleteAck => exact completionAck_isolated_iff body
  | fileCancel => exact cancel_isolated_iff hforeign body
  | fileChunk => exact chunk_isolated_iff body
  | channel | channelAck | stream => exact iff_of_true (token_isolated _ body) fun h => nomatch h

end Foreign

/-! ## A file on its way to one of two peers -/

def samplePorts : SessionServices Unit where
  closeTransportPath rest _ := rest
  closeTransportPathForSession rest _ _ := rest
  retireSessionResources rest _ _ := rest
  installCryptoMaterial rest _ _ _ := (rest, false)
  removeCryptoSession rest _ _ := rest
  publishRelayPath rest _ _ := (rest, false)
  recoverSession rest _ := rest
  selectAttempt rest _ _ := (rest, false)
  dispatchOutgoing rest _ := rest
  notifyInitiator rest _ _ _ := (rest, false)

def sampleNoise : RelayNoise Unit Unit where
  acceptHello _ _ := none
  sessionBinding _ := ""
  readFinal _ _ := none
  verifyProof _ _ _ _ := false
  beginResponder _ _ _ := none
  acceptConfirm _ _ := none

/-- A file that is on its way to `peer-a`. -/
def outgoingSession : TransferSession :=
  newSession ⟨"transfer-1", "notes.txt", 3, 0, "", networkTransferProtocolVersion⟩ "peer-a"
    (some "/home/notes.txt") .offering

/-- The file to `peer-a` waits for its acceptance, and the path of `peer-b` is ready. -/
def samplePlane : DataPlane Unit String Unit Unit where
  transfers :=
    { pendingIncoming := ∅
      activeIncoming := ∅
      acceptances := Table.insert "transfer-1" () ∅
      completions := ∅
      manager := Keyed.put outgoingSession ∅ }
  files := .empty
  receiveDirectory := some "/files"
  peers := {"peer-a", "peer-b"}
  identity := none
  services := ()
  relayPathReady := {"peer-b"}
  relayAuthorized _ := true
  e2eePolicy _ := .required
  trustedPeerKeys := ∅
  sessions := ∅
  cryptoWaiters := ∅
  cryptoResponders := ∅
  cryptoConfirmers := ∅

/-- What an envelope of `peer-b` does to it. -/
def afterEnvelope (payload : Bytes) :
    DataPlane Unit String Unit Unit × Except RelayDataError Unit :=
  handleRelayDataPayload zeroCodec grantingServices samplePorts sampleNoise faultlessEnv samplePlane
    "peer-b" payload

theorem get?_samplePlane :
    samplePlane.transfers.manager.get? "transfer-1" = some outgoingSession := by
  exact Keyed.get?_put_self outgoingSession ∅

theorem foreign_samplePlane : Foreign samplePlane.transfers "transfer-1" "peer-b" where
  owned := ⟨"peer-a", by decide,
    .inr (.inr ⟨.inl (by decide), outgoingSession, get?_samplePlane, rfl⟩)⟩
  active_ne := fun _ h => nomatch h
  pending_ne := fun _ h => nomatch h
  session_ne := by
    intro item hitem
    obtain rfl := Option.some.inj (get?_samplePlane.symm.trans hitem)
    decide

/-! ## Isolation -/

section Result

variable {σ L R X : Type} [DecidableEq L]

/-- **Isolation of peers on the data plane.** An envelope of a peer whose path is ready leaves a
transfer of another peer alone, unless it is one of those that `Disturbs` lists. -/
theorem payload_isolated_iff (codec : RelayCodec) (services : RelayServices σ)
    (ports : SessionServices σ) (noise : RelayNoise R X) (env : CallEnv L)
    (s : DataPlane σ L R X) (peerId transferId : String) (envelope : Bytes)
    (hready : peerId ∈ s.relayPathReady) (hforeign : Foreign s.transfers transferId peerId) :
    Isolated env transferId s.toRelayRuntime
        (handleRelayDataPayload codec services ports noise env s peerId
          envelope).1.toRelayRuntime ↔
      ¬ DisturbedBy codec services noise env s peerId transferId envelope := by
  rcases envelope with _ | ⟨kind, body⟩
  · refine iff_of_true (isolated_of_same rfl rfl) ?_
    rintro ⟨kind, body, envelopeKind, hnil, -⟩
    cases hnil
  rw [handleRelayDataPayload, if_neg fun h => h.2 hready]
  rcases hkind : EnvelopeKind.ofByte kind with _ | envelopeKind
  · grind [isolated_of_same, DisturbedBy]
  · grind [handleEnvelope_isolated_iff, DisturbedBy]

end Result

/-- A cancellation of another transfer leaves the file to `peer-a` alone. -/
theorem payload_isolated_iff_otherCancel :
    ¬ DisturbedBy zeroCodec grantingServices sampleNoise faultlessEnv samplePlane "peer-b"
        "transfer-1" (dataEnvFileCancel :: utf8 "transfer-2") ∧
      Isolated faultlessEnv "transfer-1" samplePlane.toRelayRuntime
        (afterEnvelope (dataEnvFileCancel :: utf8 "transfer-2")).1.toRelayRuntime := by
  have hkept : ¬ DisturbedBy zeroCodec grantingServices sampleNoise faultlessEnv samplePlane
      "peer-b" "transfer-1" (dataEnvFileCancel :: utf8 "transfer-2") := by
    rintro ⟨kind, body, envelopeKind, hcons, hkind, hdisturbs⟩
    obtain ⟨rfl, rfl⟩ := List.cons.inj hcons
    obtain rfl : envelopeKind = .fileCancel := (Option.some.inj hkind).symm
    have hbody : decodeUtf8 (utf8 "transfer-2") = some "transfer-2" := decodeUtf8_utf8 _
    cases hdisturbs with
    | cancels hbody' => exact absurd (Option.some.inj (hbody.symm.trans hbody')) (by decide)
    | cancelsSession hbody' htarget =>
      exact nomatch htarget
    | cancelFile hbody' hpath hfault hpart hremovable =>
      -- there are no files yet
      exact hremovable.1 rfl
  exact ⟨hkept, (payload_isolated_iff _ _ samplePorts _ _ samplePlane "peer-b" "transfer-1" _
    (by decide) foreign_samplePlane).mpr hkept⟩

/-- **A cancellation by another peer ends a transfer**: the file to `peer-a` is waiting for its
acceptance, and a cancellation by `peer-b` removes its waiter and its session. -/
theorem foreign_cancel_ends_transfer :
    "peer-b" ∈ samplePlane.relayPathReady ∧
      Foreign samplePlane.transfers "transfer-1" "peer-b" ∧
      ∃ s', afterEnvelope (dataEnvFileCancel :: utf8 "transfer-1") = (s', .ok ()) ∧
        s'.transfers.acceptances.get? "transfer-1" = none ∧
        s'.transfers.manager.get? "transfer-1" = none ∧
        ¬ Isolated faultlessEnv "transfer-1" samplePlane.toRelayRuntime s'.toRelayRuntime := by
  have hcancel : afterEnvelope (dataEnvFileCancel :: utf8 "transfer-1") =
      ((afterEnvelope (dataEnvFileCancel :: utf8 "transfer-1")).1, .ok ()) :=
    Prod.ext rfl (by decide +kernel)
  have hwaiter : (afterEnvelope (dataEnvFileCancel :: utf8
      "transfer-1")).1.transfers.acceptances.get? "transfer-1" = none := by
    decide +kernel
  refine ⟨by decide, foreign_samplePlane, _, hcancel, hwaiter, by decide +kernel, ?_⟩
  rintro ⟨hsame, -⟩
  have hkept := hsame.acceptances
  rw [hwaiter] at hkept
  exact absurd hkept (by decide)

end SshMobile.Relay
