import SshMobile.Stream.Send

/-!
# Closing while others send

Senders and one closer of a stream on a framed route, step by step: a step is one use of the
manager's lock, of the stream's send lock, or one frame that goes to the carrier. The path stays
active and the carrier takes every frame.

The stream has one path lease, and whoever works with the path takes it out of the stream's entry
for that time. Senders take turns by the send lock, the closer does not. A closer that finds the
lease taken treats the path as lost: it removes the stream and tells the peer nothing.

## Main definitions

* `SendCall`, `CloseCall`: where a call of `send_stream_with_opener`, or of
  `close_stream_with_opener`, is
* `raceStep`, `raceMachine`: senders and a closer in any order
* `ClosesOnWire`: the peer is told the close, after all bytes

## Main results

* `close_reaches_peer_iff`: the peer is told exactly when no sender has the lease as the closer
  starts
* `close_during_send_is_silent`: a close that the peer is not told
-/

namespace SshMobile.Stream

open Library

variable {L : Type}

/-! ## Calls -/

/-- Where a call of `send_stream_with_opener` is; what is named is its next step. -/
inductive SendCall (L : Type)
  | idle
  | entered (data : Bytes)
  | waiting (data : Bytes)
  | locked (data : Bytes)
  | leased (lease : L) (data : Bytes)
  | sending (lease : L) (seq sent : UInt64) (chunks : List Bytes)
  | restoring (lease : L)
  | losing (error : StreamError)
  | closing (error : StreamError)
  | returned (result : Except StreamError Unit)

/-- Where the call of `close_stream_with_opener` is. -/
inductive CloseCall (L : Type)
  | ready
  | leased (lease : L)
  | sent (lease : L)
  | restoring (lease : L)
  | losing (error : StreamError)
  | closing (error : StreamError)
  | returned (result : Except StreamError Unit)

namespace SendCall

def holdsLease : SendCall L → Bool
  | leased _ _ | sending _ _ _ _ | restoring _ => true
  | idle | entered _ | waiting _ | locked _ | losing _ | closing _ | returned _ => false

/-- The call holds the stream's send lock. -/
def holdsGuard : SendCall L → Bool
  | locked _ | leased _ _ | sending _ _ _ _ | restoring _ | losing _ | closing _ => true
  | idle | entered _ | waiting _ | returned _ => false

/-- One step of a call, other than taking the send lock. The frames go to the carrier. -/
def advance (openerPeerId : String) (key : StreamKey) (m : StreamManager L) :
    SendCall L → StreamManager L × SendCall L × List StreamFrame
  | idle => (m, idle, [])
  | entered data =>
    if data.isEmpty then (m, returned (.ok ()), [])
    else
      match m.sendGuard key with
      | .error error => (m, returned (.error error), [])
      | .ok () => (m, waiting data, [])
  | waiting data => (m, waiting data, [])
  | locked data =>
    match m.takeLease key with
    | (m, .error error) => (m, losing error, [])
    | (m, .ok lease) => (m, leased lease data, [])
  | leased lease data =>
    match m.nextSendSeq key with
    | .error error => (m, losing error, [])
    | .ok seq => (m, sending lease seq 0 (chunksOf maxStreamFrameBytes data), [])
  | sending lease seq sent (chunk :: chunks) =>
    match encodeStreamBytesFrame openerPeerId key.streamId (seq + sent) chunk with
    | .error error => (m, losing error, [])
    | .ok _ => (m, sending lease seq (sent + 1) chunks, [.streamBytes (seq + sent) chunk])
  | sending lease _ sent [] =>
    match m.bumpSendSeq key sent with
    | (m, .error error) => (m, losing error, [])
    | (m, .ok ()) => (m, restoring lease, [])
  | restoring lease =>
    match m.restoreLease key lease with
    | (m, false) => (m, losing .closed, [])
    | (m, true) => (m, returned (.ok ()), [])
  -- `close_stream_after_path_loss`
  | losing error => (m.handleClose key, closing error, [])
  | closing error => (m.closeLocal key, returned (.error error), [])
  | returned result => (m, returned result, [])

end SendCall

/-- One step of the closer. -/
def CloseCall.advance (openerPeerId : String) (key : StreamKey) (m : StreamManager L) :
    CloseCall L → StreamManager L × CloseCall L × List StreamFrame
  | ready =>
    match m.takeLease key with
    | (m, .error error) => (m, losing error, [])
    | (m, .ok lease) => (m, leased lease, [])
  | leased lease =>
    match encodeStreamCloseFrame openerPeerId key.streamId with
    | .error _ => (m, losing .closed, [])
    | .ok _ => (m, sent lease, [.streamClose])
  | sent lease => (m.closeLocal key, restoring lease, [])
  | restoring lease => ((m.restoreLease key lease).1, returned (.ok ()), [])
  -- `close_stream_after_path_loss`
  | losing error => (m.handleClose key, closing error, [])
  | closing error => (m.closeLocal key, returned (.error error), [])
  | returned result => (m, returned result, [])

/-! ## Runs -/

structure RaceState (L : Type) where
  manager : StreamManager L
  guard : Option ℕ
  calls : ℕ → SendCall L
  close : CloseCall L
  wire : List StreamFrame

inductive RaceOp
  | start (i : ℕ) (data : Bytes)
  | send (i : ℕ)
  | close
deriving DecidableEq

def raceStep (openerPeerId : String) (key : StreamKey) (s : RaceState L) :
    RaceOp → RaceState L × Unit
  | .start i data =>
    match s.calls i with
    | .idle => ({ s with calls := Function.update s.calls i (.entered data) }, ())
    | _ => (s, ())
  | .send i =>
    match s.calls i with
    | .waiting data =>
      if s.guard = none then
        ({ s with guard := some i, calls := Function.update s.calls i (.locked data) }, ())
      else (s, ())
    | call =>
      let (m, next, frames) := call.advance openerPeerId key s.manager
      -- a call that returns gives up the send lock
      ({ s with
          manager := m
          guard := if s.guard = some i ∧ next.holdsGuard = false then none else s.guard
          calls := Function.update s.calls i next
          wire := s.wire ++ frames }, ())
  | .close =>
    let (m, next, frames) := s.close.advance openerPeerId key s.manager
    ({ s with manager := m, close := next, wire := s.wire ++ frames }, ())

/-- Senders and a closer on the stream `key` of the manager `m`. -/
def raceMachine (openerPeerId : String) (key : StreamKey) (m : StreamManager L) :
    Machine (RaceState L) RaceOp Unit where
  start := ⟨m, none, fun _ => .idle, .ready, []⟩
  step := raceStep openerPeerId key

/-- The stream is open in both directions and has its lease. -/
def OpenWithLease (key : StreamKey) (m : StreamManager L) : Prop :=
  ∃ e, m.streams.get? key = some e ∧ e.recvClosed = false ∧ e.sendClosed = false ∧
    e.pathLease ≠ none

/-- **The peer is told the close**, and no bytes after it. -/
def ClosesOnWire (wire : List StreamFrame) : Prop :=
  ∃ before after, wire = before ++ .streamClose :: after ∧
    ∀ seq data, .streamBytes seq data ∉ after

/-- The closer takes the lease while no sender has it. -/
def UncontendedClose (s : RaceState L) (op : RaceOp) : Prop :=
  op = .close → s.close = .ready → ∀ i, (s.calls i).holdsLease = false

/-! ## Before the close -/

/-- What a call is like while the stream is open: it has lost nothing, and its chunks are chunks of
data. -/
def SendCall.Sound : SendCall L → Prop
  | sending _ _ _ chunks => ∀ chunk ∈ chunks, chunk ≠ []
  | losing _ | closing _ => False
  | idle | entered _ | waiting _ | locked _ | leased _ _ | restoring _ | returned _ => True

/-- The entry of a stream that is open in both directions. -/
structure OpenEntry (key : StreamKey) (m : StreamManager L) (e : StreamEntry L) : Prop where
  get?_eq : m.streams.get? key = some e
  recvClosed : e.recvClosed = false
  sendClosed : e.sendClosed = false

variable {openerPeerId : String} {key : StreamKey} {m : StreamManager L}

section Before

variable {e : StreamEntry L}

section

variable (h : OpenEntry key m e)

include h

theorem OpenEntry.put {e' : StreamEntry L} (hrecv : e'.recvClosed = e.recvClosed)
    (hsend : e'.sendClosed = e.sendClosed) : OpenEntry key (m.put key e') e' :=
  ⟨get?_put_self m key e', hrecv.trans h.recvClosed, hsend.trans h.sendClosed⟩

theorem OpenEntry.sendGuard : m.sendGuard key = .ok () := by
  rw [StreamManager.sendGuard, h.get?_eq]
  dsimp only
  rw [h.sendClosed, if_neg (by decide)]

theorem OpenEntry.nextSendSeq : m.nextSendSeq key = .ok e.nextSendSeq := by
  rw [StreamManager.nextSendSeq, h.get?_eq]
  dsimp only
  rw [h.sendClosed, if_neg (by decide)]

theorem OpenEntry.bumpSendSeq (count : UInt64) :
    m.bumpSendSeq key count =
      (m.put key { e with nextSendSeq := e.nextSendSeq + count }, .ok ()) := by
  rw [StreamManager.bumpSendSeq, h.get?_eq]
  dsimp only
  rw [if_neg (by rw [h.sendClosed]; decide)]

theorem OpenEntry.takeLease {lease : L} (hlease : e.pathLease = some lease) :
    m.takeLease key = (m.put key { e with pathLease := none }, .ok lease) := by
  rw [StreamManager.takeLease, h.get?_eq]
  dsimp only
  rw [if_neg (by rw [h.sendClosed]; decide), hlease]

theorem OpenEntry.takeLease_none (hlease : e.pathLease = none) :
    m.takeLease key = (m, .error .notConnected) := by
  rw [StreamManager.takeLease, h.get?_eq]
  dsimp only
  rw [if_neg (by rw [h.sendClosed]; decide), hlease]

theorem OpenEntry.restoreLease (hlease : e.pathLease = none) (lease : L) :
    m.restoreLease key lease = (m.put key { e with pathLease := some lease }, true) := by
  rw [StreamManager.restoreLease, h.get?_eq]
  grind [recvClosed]

end

/-- **What a step of a call does** while the stream is open: the lease is out of the entry exactly
while the call that has the send lock holds it. -/
structure Advanced (key : StreamKey) (e : StreamEntry L) (call : SendCall L)
    (result : StreamManager L × SendCall L × List StreamFrame) : Prop where
  sound : result.2.1.Sound
  silent : StreamFrame.streamClose ∉ result.2.2
  guarded : result.2.1.holdsGuard = true → call.holdsGuard = true
  entry : ∃ e', OpenEntry key result.1 e' ∧
    if call.holdsGuard then (e'.pathLease = none ↔ result.2.1.holdsLease = true)
    else e' = e ∧ result.2.1.holdsLease = false

theorem SendCall.advance_open (hopener : validatePeer openerPeerId = true) (h : OpenEntry key m e)
    {call : SendCall L} (hsound : call.Sound) (hholds : call.holdsLease = true → e.pathLease = none)
    (hlocked : ∀ data, call = .locked data → e.pathLease ≠ none) :
    Advanced key e call (call.advance openerPeerId key m) := by
  cases call with
  | idle | waiting data => exact ⟨trivial, List.not_mem_nil, id, e, h, rfl, rfl⟩
  | entered data =>
    rw [advance, h.sendGuard]
    split_ifs
    · exact ⟨trivial, List.not_mem_nil, fun h => (nomatch h), e, h, rfl, rfl⟩
    · exact ⟨trivial, List.not_mem_nil, fun h => (nomatch h), e, h, rfl, rfl⟩
  -- the turn of a sender begins with the lease in its place, and it takes it out of there
  | locked data =>
    obtain ⟨lease, hlease⟩ := Option.ne_none_iff_exists'.mp (hlocked data rfl)
    rw [advance, h.takeLease hlease]
    exact ⟨trivial, List.not_mem_nil, fun _ => rfl, _, h.put rfl rfl, iff_of_true rfl rfl⟩
  | leased lease data =>
    rw [advance, h.nextSendSeq]
    refine ⟨fun chunk hmem => (mem_chunksOf hmem).1, List.not_mem_nil, fun _ => rfl, e, h, ?_⟩
    exact iff_of_true (hholds rfl) rfl
  | sending lease seq sent chunks =>
    cases chunks with
    | nil =>
      rw [advance, h.bumpSendSeq]
      refine ⟨trivial, List.not_mem_nil, fun _ => rfl, _, h.put rfl rfl, ?_⟩
      exact iff_of_true (hholds rfl) rfl
    | cons chunk chunks =>
      have hchunk : chunk ≠ [] := hsound chunk List.mem_cons_self
      obtain ⟨payload, hpayload, -⟩ :=
        encodeStreamBytesFrame_ok hopener key.streamId (seq + sent) hchunk
      rw [advance, hpayload]
      refine ⟨fun chunk hmem => hsound chunk (List.mem_cons_of_mem _ hmem), ?_, fun _ => rfl, e, h,
        iff_of_true (hholds rfl) rfl⟩
      simp
  | restoring lease =>
    rw [advance, h.restoreLease (hholds rfl)]
    refine ⟨trivial, List.not_mem_nil, fun h => (nomatch h), _, h.put rfl rfl, ?_⟩
    exact iff_of_false (fun h => nomatch h) (fun h => nomatch h)
  -- a call loses its lease only on a stream that was closed under it
  | losing error => exact hsound.elim
  | closing error => exact hsound.elim
  | returned result => exact ⟨trivial, List.not_mem_nil, id, e, h, rfl, rfl⟩

end Before

/-- **Before the close** the stream is open, its senders take turns, and the one that has the send
lock may hold the lease. -/
structure BeforeClose (key : StreamKey) (s : RaceState L) : Prop where
  ready : s.close = .ready
  entry : ∃ e, OpenEntry key s.manager e ∧
    (e.pathLease = none ↔ ∃ i, (s.calls i).holdsLease = true)
  guarded : ∀ i, (s.calls i).holdsGuard = true → s.guard = some i
  sound : ∀ i, (s.calls i).Sound
  silent : StreamFrame.streamClose ∉ s.wire

theorem SendCall.holdsGuard_of_holdsLease {call : SendCall L} (h : call.holdsLease = true) :
    call.holdsGuard = true := by
  cases call <;> first | rfl | cases h

variable {s : RaceState L}

section BeforeStep

variable {i : ℕ}

/-- A call changes without a change of who holds the lease. -/
theorem exists_holdsLease_update {calls : ℕ → SendCall L} {call : SendCall L}
    (h : call.holdsLease = (calls i).holdsLease) :
    (∃ j, (Function.update calls i call j).holdsLease = true) ↔
      ∃ j, (calls j).holdsLease = true := by
  refine exists_congr fun j => ?_
  grind

/-- The calls of a state in which call `i` has changed. -/
theorem sound_update (h : ∀ j, (s.calls j).Sound) {call : SendCall L} (hcall : call.Sound)
    (j : ℕ) : (Function.update s.calls i call j).Sound := by
  grind

theorem BeforeClose.start (h : BeforeClose key s) (hidle : s.calls i = .idle)
    (data : Bytes) :
    BeforeClose key { s with calls := Function.update s.calls i (.entered data) } := by
  obtain ⟨e, hopen, hlease⟩ := h.entry
  refine ⟨h.ready, ⟨e, hopen, ?_⟩, fun j hj => ?_, sound_update h.sound trivial, h.silent⟩
  · rw [hlease]
    exact (exists_holdsLease_update (by rw [hidle]; rfl)).symm
  · dsimp only at hj
    by_cases hji : j = i
    · subst hji
      rw [Function.update_self] at hj
      cases hj
    · rw [Function.update_of_ne hji] at hj
      exact h.guarded j hj

theorem BeforeClose.lock (h : BeforeClose key s) {data : Bytes}
    (hwaiting : s.calls i = .waiting data) (hfree : s.guard = none) :
    BeforeClose key
      { s with guard := some i, calls := Function.update s.calls i (.locked data) } := by
  obtain ⟨e, hopen, hlease⟩ := h.entry
  refine ⟨h.ready, ⟨e, hopen, ?_⟩, fun j hj => ?_, sound_update h.sound trivial, h.silent⟩
  · rw [hlease]
    exact (exists_holdsLease_update (by rw [hwaiting]; rfl)).symm
  · dsimp only at hj ⊢
    by_cases hji : j = i
    · rw [hji]
    · rw [Function.update_of_ne hji] at hj
      have hheld := h.guarded j hj
      rw [hfree] at hheld
      cases hheld

/-- **A sender goes on.** -/
theorem BeforeClose.advance (hopener : validatePeer openerPeerId = true) (h : BeforeClose key s)
    (i : ℕ) :
    let result := (s.calls i).advance openerPeerId key s.manager
    BeforeClose key { s with
      manager := result.1
      guard := if s.guard = some i ∧ result.2.1.holdsGuard = false then none else s.guard
      calls := Function.update s.calls i result.2.1
      wire := s.wire ++ result.2.2 } := by
  intro result
  obtain ⟨e, hopen, hlease⟩ := h.entry
  -- the lease is only with the call that has the send lock
  have honly : (s.calls i).holdsGuard = true → ∀ j, (s.calls j).holdsLease = true → j = i := by
    intro hi j hj
    have hboth := (h.guarded j (SendCall.holdsGuard_of_holdsLease hj)).symm.trans (h.guarded i hi)
    exact Option.some.inj hboth
  have hadvanced : Advanced key e (s.calls i) result := by
    refine SendCall.advance_open hopener hopen (h.sound i) (fun hi => hlease.mpr ⟨i, hi⟩) ?_
    intro data hlocked hnone
    obtain ⟨j, hj⟩ := hlease.mp hnone
    obtain rfl := honly (by rw [hlocked]; rfl) j hj
    rw [hlocked] at hj
    cases hj
  obtain ⟨e', hopen', hlease'⟩ := hadvanced.entry
  refine ⟨h.ready, ⟨e', hopen', ?_⟩, fun j hj => ?_, sound_update h.sound hadvanced.sound, ?_⟩
  · by_cases hguard : (s.calls i).holdsGuard = true
    · rw [if_pos hguard] at hlease'
      constructor
      · intro hi
        exact ⟨i, by simp_all⟩
      · rintro ⟨j, hj⟩
        dsimp only at hj
        by_cases hji : j = i
        · simp_all
        · rw [Function.update_of_ne hji] at hj
          exact absurd (honly hguard j hj) hji
    · rw [if_neg hguard] at hlease'
      obtain ⟨rfl, hnone⟩ := hlease'
      rw [hlease]
      refine (exists_holdsLease_update ?_).symm
      rw [hnone]
      grind [SendCall.holdsGuard_of_holdsLease]
  · dsimp only at hj ⊢
    by_cases hji : j = i
    · subst hji
      rw [Function.update_self] at hj
      rw [if_neg (by rw [hj]; simp)]
      exact h.guarded j (hadvanced.guarded hj)
    · rw [Function.update_of_ne hji] at hj
      have hheld := h.guarded j hj
      simp_all
  · intro hmem
    rcases List.mem_append.mp hmem with hold | hnew
    · exact h.silent hold
    · exact hadvanced.silent hnew

end BeforeStep

/-! ## After the closer has taken the lease -/

/-- The entry has no lease for a sender. -/
def NoLease (key : StreamKey) (m : StreamManager L) : Prop :=
  ∀ e, m.streams.get? key = some e → e.sendClosed = true ∨ e.pathLease = none

/-- The sending half is closed, if the stream is still there. -/
def SendClosed (key : StreamKey) (m : StreamManager L) : Prop :=
  ∀ e, m.streams.get? key = some e → e.sendClosed = true

section After

theorem SendClosed.noLease (h : SendClosed key m) : NoLease key m := fun e he => .inl (h e he)

theorem NoLease.takeLease (h : NoLease key m) : ∃ error, m.takeLease key = (m, .error error) := by
  rw [StreamManager.takeLease]
  split
  · exact ⟨_, rfl⟩
  · rename_i e he
    split_ifs with hsend
    · exact ⟨_, rfl⟩
    · rw [(h e he).resolve_left hsend]
      exact ⟨_, rfl⟩

/-- The remote close of the stream's entry. -/
theorem get?_handleClose {e' : StreamEntry L} (h : (m.handleClose key).streams.get? key = some e') :
    ∃ e, m.streams.get? key = some e ∧ e'.sendClosed = e.sendClosed ∧
      e'.pathLease = e.pathLease := by
  rw [StreamManager.handleClose] at h
  split at h
  · simp_all
  · rename_i e he
    split_ifs at h
    · simp_all
    · grind [get?_retire]
    · rw [get?_put_self] at h
      obtain rfl := Option.some.inj h
      exact ⟨e, he, rfl, rfl⟩

theorem NoLease.handleClose (h : NoLease key m) : NoLease key (m.handleClose key) := by
  intro e' he'
  obtain ⟨e, he, hsend, hlease⟩ := get?_handleClose he'
  rw [hsend, hlease]
  exact h e he

theorem SendClosed.handleClose (h : SendClosed key m) : SendClosed key (m.handleClose key) := by
  intro e' he'
  obtain ⟨e, he, hsend, -⟩ := get?_handleClose he'
  rw [hsend]
  exact h e he

/-- After the local close the sending half is closed. -/
theorem sendClosed_closeLocal (key : StreamKey) (m : StreamManager L) :
    SendClosed key (m.closeLocal key) := by
  intro e' he'
  rw [StreamManager.closeLocal] at he'
  split at he'
  · rename_i hnone
    rw [hnone] at he'
    cases he'
  · rename_i e he
    split_ifs at he' with hsend
    · rw [he] at he'
      obtain rfl := Option.some.inj he'
      exact hsend
    · rw [get?_retire, if_pos rfl] at he'
      cases he'
    · rw [get?_put_self] at he'
      obtain rfl := Option.some.inj he'
      rfl

theorem SendClosed.restoreLease (h : SendClosed key m) (lease : L) :
    SendClosed key (m.restoreLease key lease).1 := by
  grind [StreamManager.restoreLease, get?_put_self, SendClosed]

/-- **A sender without the lease** sends nothing and does not get the lease. -/
theorem SendCall.advance_noLease (openerPeerId : String) (h : NoLease key m) {call : SendCall L}
    (hcall : call.holdsLease = false) :
    (call.advance openerPeerId key m).2.1.holdsLease = false ∧
      (call.advance openerPeerId key m).2.2 = [] ∧
      ((call.advance openerPeerId key m).1 = m ∨
        (call.advance openerPeerId key m).1 = m.handleClose key ∨
        (call.advance openerPeerId key m).1 = m.closeLocal key) := by
  cases call with
  | idle | waiting data | returned result => exact ⟨rfl, rfl, .inl rfl⟩
  | entered data =>
    rw [advance]
    split_ifs
    · exact ⟨rfl, rfl, .inl rfl⟩
    · cases m.sendGuard key with
      | error error | ok => exact ⟨rfl, rfl, .inl rfl⟩
  | locked data =>
    obtain ⟨error, herror⟩ := h.takeLease
    rw [advance, herror]
    exact ⟨rfl, rfl, .inl rfl⟩
  | leased lease data | sending lease seq sent chunks | restoring lease => cases hcall
  | losing error => exact ⟨rfl, rfl, .inr (.inl rfl)⟩
  | closing error => exact ⟨rfl, rfl, .inr (.inr rfl)⟩

/-- No sender puts a close on the wire. -/
theorem SendCall.advance_silent (call : SendCall L) :
    StreamFrame.streamClose ∉ (call.advance openerPeerId key m).2.2 := by
  cases call with
  | idle | waiting data | losing error | closing error | returned result => exact List.not_mem_nil
  | entered data =>
    rw [advance]
    split_ifs
    · exact List.not_mem_nil
    · cases m.sendGuard key with
      | error error | ok => exact List.not_mem_nil
  | locked data | leased lease data | restoring lease =>
    grind [advance]
  | sending lease seq sent chunks =>
    cases chunks with
    | nil =>
      grind [advance]
    | cons chunk chunks =>
      rw [advance]
      grind

end After

/-- Where a closer with the lease is, and what it has put on the wire. -/
def TakenPhase (key : StreamKey) (m : StreamManager L) (wire : List StreamFrame) :
    CloseCall L → Prop
  | .leased _ => NoLease key m
  | .sent _ => NoLease key m ∧ ∃ before, wire = before ++ [.streamClose]
  | .restoring _ | .returned _ => SendClosed key m ∧ ∃ before, wire = before ++ [.streamClose]
  | .ready | .losing _ | .closing _ => False

section

variable {wire : List StreamFrame} {call : CloseCall L} (h : TakenPhase key m wire call)

include h

theorem TakenPhase.noLease : NoLease key m := by
  cases call with
  | leased lease => exact h
  | sent lease => exact h.1
  | restoring lease | returned result => exact h.1.noLease
  | ready | losing error | closing error => exact h.elim

/-- The phase of the closer does not depend on what a failing sender does to the stream. -/
theorem TakenPhase.of_close {m' : StreamManager L}
    (hm : m' = m ∨ m' = m.handleClose key ∨ m' = m.closeLocal key) :
    TakenPhase key m' wire call := by
  have hlease : NoLease key m → NoLease key m' := by
    rcases hm with rfl | rfl | rfl
    · exact id
    · exact NoLease.handleClose
    · exact fun _ => (sendClosed_closeLocal key m).noLease
  have hclosed : SendClosed key m → SendClosed key m' := by
    grind [SendClosed.handleClose, sendClosed_closeLocal]
  cases call with
  | leased lease => exact hlease h
  | sent lease => exact ⟨hlease h.1, h.2⟩
  | restoring lease | returned result => exact ⟨hclosed h.1, h.2⟩
  | ready | losing error | closing error => exact h.elim

end

/-- **The closer has taken the lease**: no sender can get it any more. -/
structure LeaseTaken (key : StreamKey) (s : RaceState L) : Prop where
  none_holds : ∀ i, (s.calls i).holdsLease = false
  phase : TakenPhase key s.manager s.wire s.close

/-- **The closer has not found the lease**: there is no close on the wire, and none will come. -/
structure LeaseMissed (s : RaceState L) : Prop where
  phase : match s.close with
    | .losing _ | .closing _ | .returned _ => True
    | .ready | .leased _ | .sent _ | .restoring _ => False
  silent : StreamFrame.streamClose ∉ s.wire

section Phases

theorem holdsLease_update {calls : ℕ → SendCall L} (h : ∀ i, (calls i).holdsLease = false) {i : ℕ}
    {call : SendCall L} (hcall : call.holdsLease = false) (j : ℕ) :
    (Function.update calls i call j).holdsLease = false := by
  grind

theorem LeaseTaken.step (hopener : validatePeer openerPeerId = true) (h : LeaseTaken key s)
    (op : RaceOp) : LeaseTaken key (raceStep openerPeerId key s op).1 := by
  cases op with
  | start i data =>
    rw [raceStep]
    split
    · exact ⟨holdsLease_update h.none_holds rfl, h.phase⟩
    · exact h
  | send i =>
    rw [raceStep]
    split
    · split_ifs
      · exact ⟨holdsLease_update h.none_holds rfl, h.phase⟩
      · exact h
    · obtain ⟨hnone, hframes, hm⟩ := SendCall.advance_noLease openerPeerId
        h.phase.noLease (h.none_holds i)
      refine ⟨holdsLease_update h.none_holds hnone, ?_⟩
      dsimp only
      rw [hframes, List.append_nil]
      exact h.phase.of_close hm
  | close =>
    have hphase := h.phase
    rw [raceStep]
    refine ⟨h.none_holds, ?_⟩
    cases hclose : s.close with
    -- the frame goes out while the close has the lease
    | leased lease =>
      obtain ⟨payload, hpayload⟩ := encodeStreamCloseFrame_ok hopener key.streamId
      grind [CloseCall.advance, TakenPhase]
    | sent lease =>
      rw [hclose] at hphase
      obtain ⟨before, hwire⟩ := hphase.2
      exact ⟨sendClosed_closeLocal key _, before, by rw [hwire]; exact List.append_nil _⟩
    | restoring lease =>
      rw [hclose] at hphase
      obtain ⟨before, hwire⟩ := hphase.2
      exact ⟨hphase.1.restoreLease lease, before, by rw [hwire]; exact List.append_nil _⟩
    | returned result =>
      rw [hclose] at hphase
      obtain ⟨before, hwire⟩ := hphase.2
      exact ⟨hphase.1, before, by rw [hwire]; exact List.append_nil _⟩
    | ready | losing | closing =>
      grind [TakenPhase]

theorem LeaseMissed.step (h : LeaseMissed s) (op : RaceOp) :
    LeaseMissed (raceStep openerPeerId key s op).1 := by
  cases op with
  | start i data =>
    rw [raceStep]
    split
    · exact ⟨h.phase, h.silent⟩
    · exact h
  | send i =>
    rw [raceStep]
    split
    · split_ifs
      · exact ⟨h.phase, h.silent⟩
      · exact h
    · refine ⟨h.phase, fun hmem => ?_⟩
      rcases List.mem_append.mp hmem with hold | hnew
      · exact h.silent hold
      · exact SendCall.advance_silent _ hnew
  | close =>
    have hphase := h.phase
    have hsilent : StreamFrame.streamClose ∉ s.wire ++ [] := by
      rw [List.append_nil]
      exact h.silent
    rw [raceStep]
    cases hclose : s.close with
    | losing | closing | returned => exact ⟨trivial, hsilent⟩
    | ready | leased | sent | restoring =>
      simp_all

/-- A step of a sender before the close. -/
theorem BeforeClose.step (hopener : validatePeer openerPeerId = true) (h : BeforeClose key s)
    {op : RaceOp} (hop : op ≠ .close) : BeforeClose key (raceStep openerPeerId key s op).1 := by
  cases op with
  | start i data =>
    rw [raceStep]
    split
    · rename_i hidle
      exact h.start hidle data
    · exact h
  | send i =>
    rw [raceStep]
    split
    · rename_i data hwaiting
      split_ifs with hfree
      · exact h.lock hwaiting hfree
      · exact h
    · exact h.advance hopener i
  | close => exact absurd rfl hop

/-- **The closer's first step** finds the lease exactly when no sender has it. -/
theorem BeforeClose.close (h : BeforeClose key s) (openerPeerId : String) :
    (∀ i, (s.calls i).holdsLease = false) ∧
        LeaseTaken key (raceStep openerPeerId key s .close).1 ∨
      ¬ (∀ i, (s.calls i).holdsLease = false) ∧
        LeaseMissed (raceStep openerPeerId key s .close).1 := by
  obtain ⟨e, hopen, hlease⟩ := h.entry
  rw [raceStep, h.ready, CloseCall.advance]
  -- the lease is in its place exactly if no sender has it
  cases hpath : e.pathLease with
  | none =>
    obtain ⟨i, hi⟩ := hlease.mp hpath
    rw [hopen.takeLease_none hpath]
    refine .inr ⟨fun hnone => ?_, trivial, ?_⟩
    · rw [hnone i] at hi
      cases hi
    · grind [silent]
  | some lease =>
    have hnone : ∀ i, (s.calls i).holdsLease = false := by
      simp_all
    rw [hopen.takeLease hpath]
    refine .inl ⟨hnone, hnone, fun e' he' => .inr ?_⟩
    grind [get?_put_self]

end Phases

/-! ## Whole runs -/

theorem beforeClose_start
    (h : OpenWithLease key m) : BeforeClose key (raceMachine openerPeerId key m).start := by
  obtain ⟨e, he, hrecv, hsend, hlease⟩ := h
  refine ⟨rfl, ⟨e, ⟨he, hrecv, hsend⟩, iff_of_false hlease ?_⟩, fun i hi => (nomatch hi),
    fun _ => trivial, List.not_mem_nil⟩
  rintro ⟨i, hi⟩
  cases hi

/-- **Every run** is before the close, or has taken the lease with no sender having it, or has
missed it. -/
theorem race_run (hopener : validatePeer openerPeerId = true)
    (h : OpenWithLease key m) (ops : List RaceOp) :
    let M := raceMachine openerPeerId key m
    BeforeClose key (M.run ops) ∧ M.Along UncontendedClose ops ∨
      LeaseTaken key (M.run ops) ∧ M.Along UncontendedClose ops ∨
      LeaseMissed (M.run ops) ∧ ¬ M.Along UncontendedClose ops := by
  intro M
  induction ops using List.reverseRecOn with
  | nil => exact .inl ⟨beforeClose_start h, trivial⟩
  | append_singleton ops op ih =>
    have hsnoc : M.Along UncontendedClose (ops ++ [op]) ↔
        M.Along UncontendedClose ops ∧ UncontendedClose (M.run ops) op :=
      Machine.alongFrom_snoc _ _ _ _
    rw [hsnoc, Machine.run_snoc]
    rcases ih with ⟨hbefore, halong⟩ | ⟨htaken, halong⟩ | ⟨hmissed, halong⟩
    · by_cases hop : op = .close
      · subst hop
        have hiff : UncontendedClose (M.run ops) .close ↔
            ∀ i, ((M.run ops).calls i).holdsLease = false :=
          ⟨fun huncontended => huncontended rfl hbefore.ready, fun hnone _ _ => hnone⟩
        rcases hbefore.close openerPeerId with ⟨hnone, hstep⟩ | ⟨hheld, hstep⟩
        · exact .inr (.inl ⟨hstep, halong, hiff.mpr hnone⟩)
        · exact .inr (.inr ⟨hstep, fun hboth => hheld (hiff.mp hboth.2)⟩)
      · exact .inl ⟨hbefore.step hopener hop, halong, fun hclose => absurd hclose hop⟩
    · refine .inr (.inl ⟨htaken.step hopener op, halong, fun _ hready => ?_⟩)
      have hphase := htaken.phase
      rw [hready] at hphase
      exact hphase.elim
    · exact .inr (.inr ⟨hmissed.step op, fun hboth => halong hboth.1⟩)

/-- **A close reaches the peer** exactly when no sender holds the path lease at the moment the
closer asks for it: in every interleaving of any number of senders and one closer that has
returned. -/
theorem close_reaches_peer_iff (openerPeerId : String)
    (hopener : validatePeer openerPeerId = true) (key : StreamKey) (m : StreamManager L)
    (hopen : OpenWithLease key m) (ops : List RaceOp) (result : Except StreamError Unit)
    (hreturned : ((raceMachine openerPeerId key m).run ops).close = .returned result) :
    ClosesOnWire ((raceMachine openerPeerId key m).run ops).wire ↔
      (raceMachine openerPeerId key m).Along UncontendedClose ops := by
  rcases race_run hopener hopen ops with ⟨hbefore, -⟩ | ⟨htaken, halong⟩ | ⟨hmissed, halong⟩
  · grind [BeforeClose.ready]
  · have hphase := htaken.phase
    rw [hreturned] at hphase
    grind [ClosesOnWire, TakenPhase]
  · refine iff_of_false ?_ halong
    rintro ⟨before, after, hwire, -⟩
    refine hmissed.silent ?_
    simp_all

/-! ## Concrete interleavings -/

def raceStream : StreamKey := ⟨.local, 1⟩

/-- A manager with one open stream and its lease. -/
def raceManager : StreamManager Unit :=
  streamMachine.run [.openStream raceStream "ssh" .poll, .bindLease raceStream ()]

theorem openWithLease_raceManager : OpenWithLease raceStream raceManager :=
  ⟨{ StreamEntry.fresh .poll with pathLease := some () }, rfl, rfl, rfl, fun h => nomatch h⟩

theorem close_reaches_peer_iff_closeOnly :
    ClosesOnWire ((raceMachine "peer-a" raceStream raceManager).run
        [.start 0 [7], .close, .close, .close, .close]).wire ↔
      (raceMachine "peer-a" raceStream raceManager).Along UncontendedClose
        [.start 0 [7], .close, .close, .close, .close] :=
  close_reaches_peer_iff "peer-a" (by decide) raceStream raceManager openWithLease_raceManager
    [.start 0 [7], .close, .close, .close, .close] (.ok ()) rfl

/-- **A silent close**: a sender has taken the lease when the closer comes. The closer removes the
stream and returns, and the peer is told nothing. -/
theorem close_during_send_is_silent :
    let s := (raceMachine "peer-a" raceStream raceManager).run
      [.start 0 [7], .send 0, .send 0, .send 0, .close, .close, .close]
    s.close = .returned (.error .notConnected) ∧ s.wire = [] ∧
      s.manager.streams.get? raceStream = none :=
  ⟨rfl, rfl, rfl⟩

end SshMobile.Stream
