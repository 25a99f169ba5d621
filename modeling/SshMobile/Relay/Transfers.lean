import SshMobile.Transfer.Manager

/-!
# Transfers on a relay

The tables in which a device keeps the file transfers that run over relays, next to the manager of
all transfers: the offers that wait for the user, the files that are being received, and the
waiters of the files that are being sent.

## Main definitions

* `PendingRelayIncoming`, `ActiveRelayIncoming`: an offer, and a file that is being received
* `RelayTransfers`: the tables and the manager
* `cancelRelayIncoming`, `cancelTransfer`: the end of a transfer

## Main results

* `get?_cancelRelayIncoming`: a cancellation removes the session of one transfer, which is not
  always the one it names
-/

namespace SshMobile.Relay

open Library Transfer

/-- An offer that waits for the user. -/
structure PendingRelayIncoming where
  transferId : String
  sessionId : String
  senderId : String
  manifest : FileManifest
  manifestHash : String
  cryptoSessionId : String
deriving DecidableEq

/-- An open file: its number, the position of the next write, and whether the last write has failed.
Writes are done in the background, so that the failure of one is reported by the next call. -/
structure OpenFile where
  id : ℕ
  position : ℕ
  failed : Bool
deriving DecidableEq

/-- A file that is being received; `hasher` is what has been hashed so far. -/
structure ActiveRelayIncoming where
  offer : PendingRelayIncoming
  file : Option OpenFile
  temporaryPath : String
  finalPath : String
  nextSequence : ℕ
  receivedBytes : ℕ
  hasher : Bytes
  alreadyCompleted : Bool
deriving DecidableEq

/-- **The transfers on relays** and the manager of all transfers. A waiter is only known by the
transfer it waits for. -/
structure RelayTransfers where
  pendingIncoming : Keyed PendingRelayIncoming.transferId
  activeIncoming : Keyed fun active : ActiveRelayIncoming => active.offer.transferId
  acceptances : Table String Unit
  completions : Table String Unit
  manager : TransferManager

def relayPartialPath (directory transferId : String) : String :=
  directory ++ "/" ++ transferId ++ ".part"

/-! ## Cancellation -/

namespace RelayTransfers

/-- The file that a cancellation stops: the one with the identifier, or else the first one, in the
iteration order, whose offer has it as its session. -/
def cancelledActive (order : String → ℕ) (s : RelayTransfers) (sessionOrTransferId : String) :
    Option (String × ActiveRelayIncoming) :=
  match s.activeIncoming.get? sessionOrTransferId with
  | some active => some (sessionOrTransferId, active)
  | none =>
    s.activeIncoming.find? order fun _ active => active.offer.sessionId == sessionOrTransferId

/-- The transfer that a cancellation ends in the manager. -/
def cancelledId (order : String → ℕ) (s : RelayTransfers) (sessionOrTransferId : String) : String :=
  match s.pendingIncoming.get? sessionOrTransferId with
  | some pending => pending.transferId
  | none =>
    match s.cancelledActive order sessionOrTransferId with
    | some (transferId, _) => transferId
    | none => sessionOrTransferId

/-- The tables after a cancellation, and the path that it removes. -/
def cancelRelayIncoming (order : String → ℕ) (receiveDirectory : Option String)
    (s : RelayTransfers) (sessionOrTransferId : String) : RelayTransfers × Option String :=
  let active := s.cancelledActive order sessionOrTransferId
  let transferId := s.cancelledId order sessionOrTransferId
  ({ s with
      pendingIncoming := s.pendingIncoming.erase sessionOrTransferId
      activeIncoming :=
        match active with
        | some (id, _) => s.activeIncoming.erase id
        | none => s.activeIncoming
      manager := removeTransfer (Transfer.cancelTransfer s.manager transferId).1 transferId },
    match active with
    | some (_, active) => some active.temporaryPath
    | none => receiveDirectory.map fun directory => relayPartialPath directory transferId)

/-- The end of a transfer at the user's request: its waiters go, and what is being received of
it. -/
def cancelTransfer (order : String → ℕ) (receiveDirectory : Option String) (s : RelayTransfers)
    (transferId : String) : RelayTransfers × Option String :=
  cancelRelayIncoming order receiveDirectory
    { s with
        acceptances := s.acceptances.erase transferId
        completions := s.completions.erase transferId } transferId

theorem get?_cancelRelayIncoming {order : String → ℕ} (receiveDirectory : Option String)
    {s : RelayTransfers} {sessionOrTransferId id : String} :
    (s.cancelRelayIncoming order receiveDirectory sessionOrTransferId).1.manager.get? id =
      if id = s.cancelledId order sessionOrTransferId then none else s.manager.get? id := by
  rw [cancelRelayIncoming, removeTransfer, Keyed.get?_erase]
  split_ifs with hid
  · rfl
  · exact get?_transition_of_ne (fun _ => rfl) hid

end RelayTransfers

end SshMobile.Relay
