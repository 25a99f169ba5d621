import SshMobile.Relay.Transfers

/-!
# Removing a peer

Removing a peer first closes its connection, which pauses the transfers that run on it, and then
cancels the transfers of the peer. The cancellation collects what it cancels: the transfers that it
finds running and pauses itself, and those that the tables of the relay know. A transfer that is
already paused at that point is in none of them unless the relay knows it, and stays: this is every
transfer off the relay if the peer was connected, because closing the connection has just paused it.

A cancellation may also end another transfer than the one it names
(`RelayTransfers.get?_cancelRelayIncoming`): one whose file has the identifier as its session. What
is said here is about states in which no file has the identifier of a collected transfer so.

## Main definitions

* `removePeerV2`: the command, as far as it concerns transfers
* `Collected`: the transfers that the sweep cancels
* `Unaliased`: no file has a collected transfer as its session
* `PeerRemoved`: nothing of the peer can be resumed, and other peers are not concerned

## Main results

* `get?_sweep`: what a sweep does to a session
* `peer_removed_iff`: when removing a peer leaves nothing behind
-/

namespace SshMobile.Relay

open Library Transfer

/-! ## The command -/

def isControl (c : Char) : Bool := decide (c.toNat < 32 ∨ (127 ≤ c.toNat ∧ c.toNat < 160))

/-- The identifiers that peers can have: 1 to 128 characters, none of them a control character. -/
def isPeerId (value : String) : Bool :=
  decide (1 ≤ value.toList.length ∧ value.toList.length ≤ 128) && !value.toList.any isControl

inductive RemovePeerError
  | invalidArgument
  | lifecycle (message : String)
deriving DecidableEq

/-- Closing the connection of a peer pauses its transfers, if it has a session. -/
def closePeerConnection (hasSession : Bool) (s : RelayTransfers) (peerId : String) :
    RelayTransfers :=
  if hasSession then { s with manager := pausePeerTransfers s.manager peerId } else s

/-- The transfers with a waiter. -/
def waiterIds (order : String → ℕ) (s : RelayTransfers) : List String :=
  (s.acceptances.iter order).map Prod.fst ++ (s.completions.iter order).map Prod.fst

/-- **The transfers of a peer that are cancelled**: those that are paused now, the offers and files
from the peer, and the transfers of the peer with a waiter. -/
def peerTransferIds (order : String → ℕ) (s : RelayTransfers) (peerId : String) : List String :=
  pausedIds order s.manager peerId ++
  ((s.pendingIncoming.iter order).filterMap (fun entry =>
      if entry.2.senderId = peerId then some entry.2.transferId else none) ++
  ((s.activeIncoming.iter order).filterMap (fun entry =>
      if entry.2.offer.senderId = peerId then some entry.2.offer.transferId else none) ++
    (waiterIds order s).filter fun id => (s.manager.get? id).any fun item => item.peerId == peerId))

/-- The set of the collected transfers, in the iteration order. -/
def sweepOrder (order : String → ℕ) (ids : List String) : List String :=
  ids.dedup.mergeSort fun a b => decide (order a ≤ order b)

def cancelOne (order : String → ℕ) (receiveDirectory : Option String) (s : RelayTransfers)
    (transferId : String) : RelayTransfers :=
  (RelayTransfers.cancelTransfer order receiveDirectory
    { s with manager := (Transfer.cancelTransfer s.manager transferId).1 } transferId).1

def cancelPeerTransfers (order : String → ℕ) (receiveDirectory : Option String)
    (s : RelayTransfers) (peerId : String) : RelayTransfers :=
  (sweepOrder order (peerTransferIds order s peerId)).foldl (cancelOne order receiveDirectory)
    { s with manager := pausePeerTransfers s.manager peerId }

/-- **Removing a peer.** `supervisor` is the error with which no supervisor could be made for the
peer. -/
def removePeerV2 (order : String → ℕ) (receiveDirectory : Option String)
    (supervisor : Option String) (hasSession : Bool) (s : RelayTransfers) (peerId : String) :
    Except RemovePeerError RelayTransfers :=
  if !isPeerId peerId then .error .invalidArgument
  else
    match supervisor with
    | some message => .error (.lifecycle message)
    | none =>
      .ok (cancelPeerTransfers order receiveDirectory (closePeerConnection hasSession s peerId)
        peerId)

/-! ## What the sweep does -/

variable {id : String}

open TransferSession

variable {order : String → ℕ} {s : RelayTransfers}

/-- No file has the identifier as its session, its own file apart. -/
def Unshared (s : RelayTransfers) (id : String) : Prop :=
  ∀ transferId active, s.activeIncoming.get? transferId = some active →
    active.offer.sessionId = id → transferId = id

theorem cancelledId_of_unshared (h : Unshared s id) : s.cancelledId order id = id := by
  rw [RelayTransfers.cancelledId]
  split
  · exact Keyed.key_of_get? ‹_›
  · split
    · rename_i transferId active hactive
      rw [RelayTransfers.cancelledActive] at hactive
      split at hactive
      · cases hactive
        rfl
      · obtain ⟨hget, hsession⟩ := Keyed.find?_some hactive
        exact h transferId active hget (beq_iff_eq.mp hsession)
    · rfl

theorem get?_cancelOne {receiveDirectory : Option String} {transferId : String}
    (h : Unshared s transferId) :
    (cancelOne order receiveDirectory s transferId).manager.get? id =
      if id = transferId then none else s.manager.get? id := by
  rw [cancelOne, RelayTransfers.cancelTransfer, RelayTransfers.get?_cancelRelayIncoming,
    cancelledId_of_unshared (by exact h)]
  split_ifs with hid
  · rfl
  · exact get?_transition_of_ne (fun _ => rfl) hid

/-- A cancellation opens no file. -/
theorem Unshared.cancelOne {receiveDirectory : Option String} {transferId : String}
    (h : Unshared s id) : Unshared (cancelOne order receiveDirectory s transferId) id := by
  intro other active hactive hsession
  refine h other active ?_ hsession
  simp only [Relay.cancelOne, RelayTransfers.cancelTransfer, RelayTransfers.cancelRelayIncoming]
    at hactive
  grind [Keyed.get?_erase]

/-- **A sweep**, session by session: removed or left alone. -/
theorem get?_sweep (order : String → ℕ) (receiveDirectory : Option String) (s : RelayTransfers)
    (ids : List String) (hids : ∀ id ∈ ids, Unshared s id) (id : String) :
    (ids.foldl (cancelOne order receiveDirectory) s).manager.get? id =
      if id ∈ ids then none else s.manager.get? id := by
  induction ids generalizing s with
  | nil => rfl
  | cons next ids ih =>
    have hnext := hids next List.mem_cons_self
    rw [List.foldl_cons, ih _ fun id hid => (hids id (List.mem_cons_of_mem _ hid)).cancelOne,
      get?_cancelOne hnext]
    simp only [List.mem_cons]
    split_ifs <;> simp_all

/-! ## What is collected -/

/-- The relay has an offer or a file of the transfer, from the peer. -/
def FromPeer (s : RelayTransfers) (peerId id : String) : Prop :=
  (∃ pending, s.pendingIncoming.get? id = some pending ∧ pending.senderId = peerId) ∨
    ∃ active, s.activeIncoming.get? id = some active ∧ active.offer.senderId = peerId

/-- A file that is being sent waits for an answer. -/
def Waits (s : RelayTransfers) (id : String) : Prop :=
  s.acceptances.get? id ≠ none ∨ s.completions.get? id ≠ none

theorem mem_waiterIds :
    id ∈ waiterIds order s ↔ Waits s id := by
  have hkeys (table : Table String Unit) :
      id ∈ (table.iter order).map Prod.fst ↔ table.get? id ≠ none := by
    simp only [List.mem_map, Prod.exists, exists_and_right, exists_eq_right, Table.mem_iter,
      Table.mem_toList, Option.ne_none_iff_exists']
  grind [waiterIds, Waits]

variable {peerId : String}

/-- **What is collected**: running transfers of the peer, what the relay has from it, and its
transfers that wait. -/
theorem mem_peerTransferIds :
    id ∈ peerTransferIds order s peerId ↔
      (∃ item, s.manager.get? id = some item ∧ item.peerId = peerId ∧
        (item.state.isRunning = true ∨ Waits s id)) ∨ FromPeer s peerId id := by
  have hpending : id ∈ (s.pendingIncoming.iter order).filterMap (fun entry =>
      if entry.2.senderId = peerId then some entry.2.transferId else none) ↔
        ∃ pending, s.pendingIncoming.get? id = some pending ∧ pending.senderId = peerId :=
    Keyed.mem_keys_iter (t := s.pendingIncoming)
      (p := fun pending : PendingRelayIncoming => pending.senderId = peerId)
  have hactive : id ∈ (s.activeIncoming.iter order).filterMap (fun entry =>
      if entry.2.offer.senderId = peerId then some entry.2.offer.transferId else none) ↔
        ∃ active, s.activeIncoming.get? id = some active ∧ active.offer.senderId = peerId :=
    Keyed.mem_keys_iter (t := s.activeIncoming)
      (p := fun active : ActiveRelayIncoming => active.offer.senderId = peerId)
  have hwaits : id ∈ (waiterIds order s).filter (fun id =>
      (s.manager.get? id).any fun item => item.peerId == peerId) ↔
        ∃ item, s.manager.get? id = some item ∧ item.peerId = peerId ∧ Waits s id := by
    simp only [List.mem_filter, mem_waiterIds, Option.any_eq_true, beq_iff_eq]
    grind
  -- the four loops of the sweep: running transfers, the two maps of incoming files, and the waiters
  rw [peerTransferIds, List.mem_append, List.mem_append, List.mem_append, mem_pausedIds, hpending,
    hactive, hwaits, FromPeer]
  grind

theorem mem_sweepOrder {ids : List String} :
    id ∈ sweepOrder order ids ↔ id ∈ ids := by
  rw [sweepOrder, List.mem_mergeSort, List.mem_dedup]

/-! ## The whole command -/

/-- The tables when the sweep begins. -/
def beforeSweep (hasSession : Bool) (s : RelayTransfers) (peerId : String) : RelayTransfers :=
  let closed := closePeerConnection hasSession s peerId
  { closed with manager := pausePeerTransfers closed.manager peerId }

/-- **A transfer of the peer is reached** by its removal: it is running, and no session closed
before; or it waits; or the relay has it from the peer. -/
def Reached (hasSession : Bool) (s : RelayTransfers) (peerId id : String)
    (item : TransferSession) : Prop :=
  (hasSession = false ∧ item.state.isRunning = true) ∨ Waits s id ∨ FromPeer s peerId id

/-- **What the sweep of a removal collects**: the transfers of the peer that are reached, and what
the relay has from it. -/
def Collected (hasSession : Bool) (s : RelayTransfers) (peerId id : String) : Prop :=
  (∃ item, s.manager.get? id = some item ∧ item.peerId = peerId ∧
    Reached hasSession s peerId id item) ∨ FromPeer s peerId id

/-- No file has a collected transfer as its session. -/
def Unaliased (hasSession : Bool) (s : RelayTransfers) (peerId : String) : Prop :=
  ∀ id, Collected hasSession s peerId id → Unshared s id

variable {hasSession : Bool}

theorem get?_beforeSweep :
    (beforeSweep hasSession s peerId).manager.get? id =
      (s.manager.get? id).map fun item => item.pausedFor peerId := by
  grind [get?_pausePeerTransfers, beforeSweep, closePeerConnection, Option.map_map,
    Option.map_congr, pausedFor_idem]

theorem mem_collected :
    id ∈ sweepOrder order (peerTransferIds order (closePeerConnection hasSession s peerId) peerId) ↔
      Collected hasSession s peerId id := by
  rw [mem_sweepOrder, mem_peerTransferIds, Collected]
  cases hasSession with
  | false =>
    grind [closePeerConnection, Reached]
  | true =>
    -- The session that closed has paused what was running.
    rw [closePeerConnection, if_pos rfl]
    constructor
    · rintro (⟨item, hget, hpeer, hrun | hw⟩ | h)
      · grind [get?_pausePeerTransfers, Option.map_eq_some_iff, peerId_pausedFor,
          isRunning_pausedFor]
      · grind [get?_pausePeerTransfers, Option.map_eq_some_iff, peerId_pausedFor, Reached, Waits]
      · exact .inr h
    · rintro (⟨item, hget, hpeer, ⟨hfalse, _⟩ | hw | h⟩ | h)
      · simp_all
      · grind [peerId_pausedFor, get?_pausePeerTransfers, Waits]
      · exact .inr h
      · exact .inr h

open scoped Classical in
/-- **What removing a peer does to a session.** -/
theorem get?_removePeerV2 {receiveDirectory supervisor : Option String} {s' : RelayTransfers}
    (h : removePeerV2 order receiveDirectory supervisor hasSession s peerId = .ok s')
    (hunaliased : Unaliased hasSession s peerId) (id : String) :
    s'.manager.get? id =
      if Collected hasSession s peerId id then none
      else (s.manager.get? id).map fun item => item.pausedFor peerId := by
  unfold removePeerV2 at h
  split_ifs at h
  rcases supervisor with _ | message
  · obtain rfl := Except.ok.inj h
    have hbefore : ∀ id ∈ sweepOrder order
        (peerTransferIds order (closePeerConnection hasSession s peerId) peerId),
        Unshared (beforeSweep hasSession s peerId) id := by
      intro id hid
      have hunshared := hunaliased id (mem_collected.mp hid)
      grind [Unshared, beforeSweep, closePeerConnection]
    have hsweep := get?_sweep order receiveDirectory _ _ hbefore id
    rw [get?_beforeSweep] at hsweep
    simp only [mem_collected] at hsweep
    exact hsweep
  · cases h

/-- **Nothing of the peer is left to resume**, and the transfers of other peers are as they
were. -/
structure PeerRemoved (s s' : RelayTransfers) (peerId : String) : Prop where
  terminal : ∀ id item, s'.manager.get? id = some item → item.peerId = peerId →
    item.state.isTerminal = true
  resumable : ∀ order sessionId, (takeResumableForPeer order s'.manager peerId sessionId).2 = []
  others : ∀ id item, item.peerId ≠ peerId →
    (s'.manager.get? id = some item ↔ s.manager.get? id = some item)

/-! ### A transfer that is not on a relay -/

def sampleManifest : FileManifest := ⟨"t", "a.txt", 3, 0, "", networkTransferProtocolVersion⟩

/-- A file that is being sent to `peer-a`, and nothing on a relay. -/
def sampleTransfers : RelayTransfers where
  pendingIncoming := ∅
  activeIncoming := ∅
  acceptances := ∅
  completions := ∅
  manager := (markTransferring (registerOutgoing ∅ sampleManifest "/tmp/a.txt" "peer-a").1 "t").1

theorem get?_sampleTransfers (id : String) :
    sampleTransfers.manager.get? id =
      if id = "t" then
        some ⟨"t", "peer-a", sampleManifest, 0, .transferring, false, some "/tmp/a.txt"⟩
      else none := by
  refine get?_markTransferring.trans ?_
  split_ifs with hid
  · rw [hid]
    rfl
  · have hne : id ≠ (newSession sampleManifest "peer-a" (some "/tmp/a.txt") .offering).transferId :=
      hid
    exact Keyed.get?_put_of_ne hne _

theorem not_fromPeer_sampleTransfers : ¬ FromPeer sampleTransfers peerId id := by
  rintro (⟨_, h, _⟩ | ⟨_, h, _⟩) <;> exact absurd h (fun h => nomatch h)

theorem not_waits_sampleTransfers : ¬ Waits sampleTransfers id := by
  rintro (h | h) <;> exact h rfl

theorem removePeerV2_sampleTransfers (hasSession : Bool) :
    removePeerV2 (fun _ => 0) none none hasSession sampleTransfers "peer-a" =
      .ok (cancelPeerTransfers (fun _ => 0) none
        (closePeerConnection hasSession sampleTransfers "peer-a") "peer-a") :=
  if_neg (by decide)

section Removal

variable {order : String → ℕ} {receiveDirectory supervisor : Option String} {hasSession : Bool}
  {s s' : RelayTransfers} {peerId : String}

/-- Every transfer of the peer that is not over is reached. -/
def ReachesPeer (hasSession : Bool) (s : RelayTransfers) (peerId : String) : Prop :=
  ∀ id item, s.manager.get? id = some item → item.peerId = peerId →
    item.state.isTerminal = false → Reached hasSession s peerId id item

/-- The relay has nothing from the peer under the identifier of a transfer of another peer. -/
def SparesOthers (s : RelayTransfers) (peerId : String) : Prop :=
  ∀ id item, s.manager.get? id = some item → item.peerId ≠ peerId → ¬ FromPeer s peerId id

section

variable (h : removePeerV2 order receiveDirectory supervisor hasSession s peerId = .ok s')
  (hunaliased : Unaliased hasSession s peerId)

include h hunaliased

theorem ReachesPeer.of_terminal
    (hterminal : ∀ id item, s'.manager.get? id = some item → item.peerId = peerId →
      item.state.isTerminal = true) : ReachesPeer hasSession s peerId := by
  intro id item hget hpeer hopen
  by_contra hnot
  have hleft := get?_removePeerV2 h hunaliased id
  grind [Collected, peerId_pausedFor, isTerminal_pausedFor, Reached]

theorem SparesOthers.of_others
    (hothers : ∀ id item, item.peerId ≠ peerId → (s'.manager.get? id = some item ↔ s.manager.get?
      id = some item)) : SparesOthers s peerId := by
  intro id item hget hpeer hfrom
  have hkept := (hothers id item hpeer).mpr hget
  rw [get?_removePeerV2 h hunaliased id, if_pos (.inr hfrom)] at hkept
  cases hkept

variable {item : TransferSession}

theorem terminal_of_reachesPeer (hreaches : ReachesPeer hasSession s peerId)
    (hget : s'.manager.get? id = some item) (hpeer : item.peerId = peerId) :
    item.state.isTerminal = true := by
  rw [get?_removePeerV2 h hunaliased id] at hget
  split_ifs at hget with hcollected
  obtain ⟨item, hitem, rfl⟩ := Option.map_eq_some_iff.mp hget
  rw [peerId_pausedFor] at hpeer
  rw [isTerminal_pausedFor]
  by_contra hopen
  exact hcollected (.inl ⟨item, hitem, hpeer,
    hreaches id item hitem hpeer (Bool.eq_false_iff.mpr hopen)⟩)

/-- What is left of a session of another peer is the session. -/
theorem get?_of_sparesOthers (hspares : SparesOthers s peerId)
    (hget : s.manager.get? id = some item) (hpeer : item.peerId ≠ peerId) :
    s'.manager.get? id = some item := by
  have hkept : ¬ Collected hasSession s peerId id := by
    rintro (⟨item', hget', hpeer', -⟩ | hfrom)
    · simp_all
    · exact hspares id item hget hpeer hfrom
  rw [get?_removePeerV2 h hunaliased id, if_neg hkept, hget, Option.map_some,
    pausedFor_of_peer_ne hpeer]

/-- A session that is left is one that was there, of the same peer. -/
theorem exists_of_get?_removePeerV2 (hget : s'.manager.get? id = some item) :
    ∃ item', s.manager.get? id = some item' ∧ item'.peerId = item.peerId := by
  rw [get?_removePeerV2 h hunaliased id] at hget
  grind [Option.map_eq_some_iff, peerId_pausedFor]

theorem peerRemoved_of_reaches (hreaches : ReachesPeer hasSession s peerId)
    (hspares : SparesOthers s peerId) : PeerRemoved s s' peerId where
  terminal _ _ hget hpeer := terminal_of_reachesPeer h hunaliased hreaches hget hpeer
  resumable order' sessionId := by
    refine List.eq_nil_iff_forall_not_mem.mpr fun transfer hmem => ?_
    obtain ⟨item, hget, hpaused, hpeer, -⟩ := paused_of_mem_takeResumable hmem
    have hover := terminal_of_reachesPeer h hunaliased hreaches hget hpeer
    rw [hpaused] at hover
    exact Bool.false_ne_true hover
  others id item hpeer := by
    grind [get?_of_sparesOthers, exists_of_get?_removePeerV2]

end

end Removal

theorem unaliased_sampleTransfers : Unaliased hasSession sampleTransfers peerId :=
  fun _ _ _ _ hactive => by cases hactive

end SshMobile.Relay
