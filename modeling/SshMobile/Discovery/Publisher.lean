import SshMobile.Server.Resolve

/-!
# Publishing the local discovery

The local discovery has an epoch, a revision and the candidates that were gathered last. A change
of the candidates or of the network raises the revision, gathers, stores the new candidates and
publishes; a new control connection publishes what is there. `publish` takes one snapshot and
sends it up to five times until it is acknowledged.

Every one of these is a separate acquisition of the manager's lock. A publisher that waits for its
acknowledgement does not see that the revision has moved on, and one that starts between a raised
revision and its candidates publishes the old candidates under the new revision.

## Main definitions

* `LocalDiscovery`: what the manager's lock guards
* `Stage`, `Stage.next`: the calls, cut at the lock and at the replies of the relay
* `discoveryMachine`: any number of calls in any interleaving
* `DiscoveryState.Acknowledged`: the relay has acknowledged what the manager holds
* `OneContent`: one revision carries one content

## Main results

* `published_acknowledged_iff`: in all runs with at most `n` calls under way at a time, a published
  discovery is an acknowledged one, iff `n ≤ 1`
* `one_content_iff`: in all such runs one revision carries one content, iff `n ≤ 1`
-/

namespace SshMobile.Discovery

open Library Server

/-! ## The manager -/

inductive LocalDiscoveryState
  | idle
  | publishing
  | published
  | degraded
deriving DecidableEq

inductive TransportCapability
  | unspecified
  | quic
  | tcp
  | udpDatagram
  | websocket
  | webrtc
  | relayData
deriving DecidableEq

def TransportCapability.code : TransportCapability → ℤ
  | .unspecified => 0
  | .quic => 1
  | .tcp => 2
  | .udpDatagram => 3
  | .websocket => 4
  | .webrtc => 5
  | .relayData => 6

def localTransportCapabilities : List TransportCapability :=
  [.quic, .tcp, .udpDatagram, .webrtc, .relayData]

/-- `LocalDiscoveryInner`: what the lock of the manager guards. -/
structure LocalDiscovery where
  runtimeEpoch : UInt64 × UInt64
  revision : UInt32
  state : LocalDiscoveryState
  candidateBundle : List Bytes
  transportCapabilities : List TransportCapability
deriving DecidableEq

def u32Top : UInt32 := 0xffffffff

namespace LocalDiscovery

/-- `begin_epoch`, with the candidates of its refresh. -/
def beginEpoch (runtimeEpoch : UInt64 × UInt64) (bundle : List Bytes) : LocalDiscovery :=
  ⟨runtimeEpoch, 1, .idle, bundle, localTransportCapabilities⟩

@[grind =] def bumpRevision (m : LocalDiscovery) : LocalDiscovery :=
  { m with revision := if m.revision = u32Top then u32Top else m.revision + 1, state := .idle }

@[grind =] def setCandidateBundle (m : LocalDiscovery) (bundle : List Bytes) : LocalDiscovery :=
  { m with candidateBundle := bundle }

@[grind =] def setTransportCapabilities (m : LocalDiscovery)
    (capabilities : List TransportCapability) : LocalDiscovery :=
  { m with transportCapabilities := capabilities }

@[grind =] def snapshot (m : LocalDiscovery) : DiscoverySnapshot where
  runtimeEpoch := some m.runtimeEpoch
  revision := m.revision
  transportCapabilities := m.transportCapabilities.map TransportCapability.code
  candidateBundle := some m.candidateBundle

@[grind =] def mark (m : LocalDiscovery) (state : LocalDiscoveryState) : LocalDiscovery :=
  { m with state }

end LocalDiscovery

/-! ## The calls -/

def discoveryPublishMaxAttempts : ℕ := 5

inductive PublishOutcome
  | published
  | degraded
  | unavailable
deriving DecidableEq

structure DiscoveryAck where
  runtimeEpoch : Option (UInt64 × UInt64)
  revision : UInt32
deriving DecidableEq

/-- `ack_is_valid`. The relay client correlates a reply with its request by an id of its own, so
that the ids of the publisher are not compared. -/
def ackIsValid (snapshot : DiscoverySnapshot) (ack : DiscoveryAck) : Bool :=
  decide (snapshot.runtimeEpoch = ack.runtimeEpoch) && decide (snapshot.revision = ack.revision)

/-- What an acknowledgement of the sent candidates names: its own epoch and revision. -/
def acknowledgedBy (snapshot : DiscoverySnapshot) (ack : DiscoveryAck) : DiscoverySnapshot :=
  { snapshot with runtimeEpoch := ack.runtimeEpoch, revision := ack.revision }

theorem acknowledgedBy_of_valid {snapshot : DiscoverySnapshot} {ack : DiscoveryAck}
    (h : ackIsValid snapshot ack = true) : acknowledgedBy snapshot ack = snapshot := by
  simp only [ackIsValid, Bool.and_eq_true, decide_eq_true_eq] at h
  rw [acknowledgedBy, ← h.1, ← h.2]

/-- What a call still has to do next. A change carries the generation and connectivity of
`on_network_environment_changed`, or nothing for `on_local_candidates_changed`. -/
inductive Stage
  | bumpRevision (change : Option (ℕ × Bool))
  | gather (change : Option (ℕ × Bool))
  | setCandidateBundle (change : Option (ℕ × Bool)) (bundle : List Bytes)
  | setTransportCapabilities (change : Option (ℕ × Bool))
  | changeResult (generation : ℕ) (hasConnectivity : Bool)
  | triggerPublish
  | markPublishing
  | takeSnapshot
  | attempt (snapshot : DiscoverySnapshot) (attempts : ℕ)
  | reply (snapshot : DiscoverySnapshot) (attempts : ℕ)
  | markPublished
  | markDegraded (outcome : PublishOutcome)
deriving DecidableEq

/-- What the relay answers to a request: an acknowledgement, which may be lost on its way, or no
acknowledgement at all. -/
inductive Reply
  | ack (ack : DiscoveryAck)
  | lost (ack : DiscoveryAck)
  | failed
deriving DecidableEq

/-- What a call finds in its surroundings: the gathered candidates, whether there is a control
connection that is usable, and the reply of the relay. -/
structure Surroundings where
  gathered : List Bytes
  usable : Bool
  reply : Reply
deriving DecidableEq

structure EnvironmentChangeResult where
  generation : ℕ
  hasConnectivity : Bool
  runtimeEpoch : UInt64 × UInt64
  revision : UInt32
deriving DecidableEq

inductive DiscoveryOutput
  | none
  | sent (snapshot : DiscoverySnapshot)
  | changed (result : EnvironmentChangeResult)
  | returned (outcome : PublishOutcome)
deriving DecidableEq

/-- **One step of a call**: the manager afterwards, the next stage unless the call is over, what
the relay has acknowledged, and what is to be seen of the step. -/
@[grind =] def Stage.next (m : LocalDiscovery) (env : Surroundings) :
    Stage → LocalDiscovery × Option Stage × List DiscoverySnapshot × DiscoveryOutput
  | .bumpRevision change => (m.bumpRevision, some (.gather change), [], .none)
  | .gather change => (m, some (.setCandidateBundle change env.gathered), [], .none)
  | .setCandidateBundle change bundle =>
    (m.setCandidateBundle bundle, some (.setTransportCapabilities change), [], .none)
  | .setTransportCapabilities change =>
    (m.setTransportCapabilities localTransportCapabilities,
      some (match change with
        | some (generation, hasConnectivity) => .changeResult generation hasConnectivity
        | none => .triggerPublish), [], .none)
  | .changeResult generation hasConnectivity =>
    (m, some .triggerPublish, [],
      .changed ⟨generation, hasConnectivity, m.runtimeEpoch, m.revision⟩)
  | .triggerPublish => (m, if env.usable then some .markPublishing else none, [], .none)
  | .markPublishing => (m.mark .publishing, some .takeSnapshot, [], .none)
  | .takeSnapshot => (m, some (.attempt m.snapshot 0), [], .none)
  | .attempt snapshot attempts =>
    if env.usable then (m, some (.reply snapshot attempts), [], .sent snapshot)
    else (m, some (.markDegraded .unavailable), [], .none)
  | .reply snapshot attempts =>
    let retry : Stage :=
      if discoveryPublishMaxAttempts ≤ attempts + 1 then .markDegraded .degraded
      else .attempt snapshot (attempts + 1)
    match env.reply with
    | .ack ack => (m, some (if ackIsValid snapshot ack then .markPublished else retry),
        [acknowledgedBy snapshot ack], .none)
    | .lost ack => (m, some retry, [acknowledgedBy snapshot ack], .none)
    | .failed => (m, some retry, [], .none)
  | .markPublished => (m.mark .published, none, [], .returned .published)
  | .markDegraded outcome => (m.mark .degraded, none, [], .returned outcome)

/-! ## Interleavings -/

structure DiscoveryState where
  manager : LocalDiscovery
  calls : Table ℕ Stage
  nextCall : ℕ
  /-- The snapshots the relay has acknowledged, as its acknowledgements name them. -/
  acknowledged : List DiscoverySnapshot

inductive DiscoveryOp
  | onControlConnected
  | onLocalCandidatesChanged
  | onNetworkEnvironmentChanged (generation : ℕ) (hasConnectivity : Bool)
  | resume (call : ℕ) (env : Surroundings)
deriving DecidableEq

/-- The first stage of a call that begins. -/
def DiscoveryOp.begins : DiscoveryOp → Option Stage
  | .onControlConnected => some .triggerPublish
  | .onLocalCandidatesChanged => some (.bumpRevision none)
  | .onNetworkEnvironmentChanged generation hasConnectivity =>
    some (.bumpRevision (some (generation, hasConnectivity)))
  | .resume .. => none

def DiscoveryState.begin (s : DiscoveryState) (stage : Stage) : DiscoveryState :=
  { s with calls := s.calls.insert s.nextCall stage, nextCall := s.nextCall + 1 }

/-- The state after a call has gone on. -/
@[grind =] def DiscoveryState.proceed (s : DiscoveryState) (call : ℕ)
    (out : LocalDiscovery × Option Stage × List DiscoverySnapshot × DiscoveryOutput) :
    DiscoveryState :=
  { s with
    manager := out.1
    calls := match out.2.1 with
      | some stage => s.calls.insert call stage
      | none => s.calls.erase call
    acknowledged := s.acknowledged ++ out.2.2.1 }

def discoveryStep (s : DiscoveryState) (op : DiscoveryOp) : DiscoveryState × DiscoveryOutput :=
  match op with
  | .resume call env =>
    match s.calls.get? call with
    | none => (s, .none)
    | some stage => (s.proceed call (stage.next s.manager env), (stage.next s.manager env).2.2.2)
  | op =>
    match op.begins with
    | none => (s, .none)
    | some stage => (s.begin stage, .none)

/-- **Calls on the discovery of one runtime**, in any interleaving. -/
def discoveryMachine (runtimeEpoch : UInt64 × UInt64) (bundle : List Bytes) :
    Machine DiscoveryState DiscoveryOp DiscoveryOutput where
  start := ⟨.beginEpoch runtimeEpoch bundle, ∅, 0, []⟩
  step := discoveryStep

/-- A call begins only while fewer than `n` are under way. -/
def AtMost (n : ℕ) (s : DiscoveryState) (op : DiscoveryOp) : Prop :=
  op.begins ≠ none → s.calls.size < n

instance (n : ℕ) (s : DiscoveryState) (op : DiscoveryOp) : Decidable (AtMost n s op) :=
  inferInstanceAs (Decidable (op.begins ≠ none → s.calls.size < n))

/-- **Published means acknowledged**: the relay has acknowledged the epoch, the revision and the
candidates the manager holds. -/
def DiscoveryState.Acknowledged (s : DiscoveryState) : Prop :=
  s.manager.state = .published → ∃ snapshot ∈ s.acknowledged,
    snapshot.runtimeEpoch = some s.manager.runtimeEpoch ∧
    snapshot.revision = s.manager.revision ∧
    snapshot.candidateBundle = some s.manager.candidateBundle

/-- The snapshots a run has sent. -/
@[grind =] def sentBy (h : List (DiscoveryOp × DiscoveryOutput)) : List DiscoverySnapshot :=
  h.filterMap fun entry => match entry.2 with
    | .sent snapshot => some snapshot
    | _ => none

/-- **One revision carries one content**: two snapshots of a run with the same epoch and revision
have the same candidates and capabilities, and the relay that has stored the one does not refuse
the other for its content. -/
structure OneContent (h : List (DiscoveryOp × DiscoveryOutput)) : Prop where
  same : ∀ a ∈ sentBy h, ∀ b ∈ sentBy h, a.runtimeEpoch = b.runtimeEpoch →
    a.revision = b.revision → a.revision < u32Top →
    a.candidateBundle = b.candidateBundle ∧ a.transportCapabilities = b.transportCapabilities
  accepted : ∀ a ∈ sentBy h, ∀ b ∈ sentBy h, b.revision < u32Top →
    ∀ config deviceId storedAt now connectionId,
      checkRevision (discoveryFromV2 config deviceId b now)
        (some { discoveryFromV2 config deviceId a storedAt with connectionId }) ≠
          some .revisionImmutable

/-! ## One call at a time -/

/-- The snapshots that were sent are of earlier revisions, as long as revisions rise. -/
@[grind =] def Earlier (m : LocalDiscovery) (sent : List DiscoverySnapshot) : Prop :=
  ∀ snapshot ∈ sent, snapshot.revision < u32Top → snapshot.revision < m.revision

/-- Or they are what the manager holds. -/
@[grind =] def UpToNow (m : LocalDiscovery) (sent : List DiscoverySnapshot) : Prop :=
  ∀ snapshot ∈ sent, snapshot.revision < u32Top →
    snapshot.revision < m.revision ∨ snapshot = m.snapshot

/-- **What a call that runs alone relies on**: its new revision has not been sent before its
candidates are stored, and what it publishes is what the manager holds. -/
@[grind =] def Stage.Relies (m : LocalDiscovery) (acknowledged sent : List DiscoverySnapshot) :
    Stage → Prop
  | .gather _ | .setCandidateBundle .. | .setTransportCapabilities _ =>
    m.state = .idle ∧ Earlier m sent
  | .takeSnapshot => m.state = .publishing
  | .attempt snapshot _ | .reply snapshot _ => m.state = .publishing ∧ snapshot = m.snapshot
  | .markPublished => m.snapshot ∈ acknowledged
  | _ => True

/-- **The runs in which a call begins when the one before it is over.** -/
structure Alone (s : DiscoveryState) (sent : List DiscoverySnapshot) : Prop where
  one : ∀ {call call' stage stage'}, s.calls.get? call = some stage →
    s.calls.get? call' = some stage' → call = call'
  acknowledged : s.manager.state = .published → s.manager.snapshot ∈ s.acknowledged
  epoch : ∀ snapshot ∈ sent, snapshot.runtimeEpoch = some s.manager.runtimeEpoch
  upToNow : UpToNow s.manager sent
  same : ∀ a ∈ sent, ∀ b ∈ sent, a.revision = b.revision → a.revision < u32Top → a = b
  relies : ∀ {call stage}, s.calls.get? call = some stage →
    stage.Relies s.manager s.acknowledged sent

theorem lt_add_one_of_ne_top {revision : UInt32} (h : revision ≠ u32Top) :
    revision < revision + 1 := by
  have hne : revision.toNat ≠ 4294967295 := fun heq => h (UInt32.toNat_inj.mp heq)
  have hlt := revision.toNat_lt
  rw [UInt32.lt_iff_toNat_lt, UInt32.toNat_add]
  change revision.toNat < (revision.toNat + 1) % 2 ^ 32
  omega

variable {sent : List DiscoverySnapshot} {s : DiscoveryState} {runtimeEpoch : UInt64 × UInt64}
  {bundle : List Bytes} {ops : List DiscoveryOp}

/-- A raised revision is above all that were sent. -/
theorem earlier_bumpRevision {m : LocalDiscovery} (h : UpToNow m sent) :
    Earlier m.bumpRevision sent := by
  intro snapshot hsent htop
  unfold LocalDiscovery.bumpRevision
  split
  · exact htop
  · rename_i hne
    rcases h snapshot hsent htop with hlt | rfl
    · exact UInt32.lt_trans hlt (lt_add_one_of_ne_top hne)
    · exact lt_add_one_of_ne_top hne

/-- **The step lemma**: a call that runs alone finds what it relies on, and leaves what the next
stage relies on. -/
theorem Stage.relies_next {stage : Stage} (h : Alone s sent)
    (hrelies : stage.Relies s.manager s.acknowledged sent) (env : Surroundings) (call : ℕ) :
    let out := stage.next s.manager env
    let acks := s.acknowledged ++ out.2.2.1
    let sent' := sent ++ sentBy [(.resume call env, out.2.2.2)]
    out.1.runtimeEpoch = s.manager.runtimeEpoch ∧
    (out.1.state = .published → out.1.snapshot ∈ acks) ∧
    (∀ snapshot ∈ sent', snapshot.runtimeEpoch = some s.manager.runtimeEpoch) ∧
    UpToNow out.1 sent' ∧
    (∀ a ∈ sent', ∀ b ∈ sent', a.revision = b.revision → a.revision < u32Top → a = b) ∧
    ∀ stage', out.2.1 = some stage' → stage'.Relies out.1 acks sent' := by
  have hacks := h.acknowledged
  have hepoch := h.epoch
  have hnow := h.upToNow
  have hsame := h.same
  have hearlier := earlier_bumpRevision hnow
  cases stage with
  | setTransportCapabilities change => cases change <;> grind
  | reply snapshot attempts =>
    rcases hreply : env.reply with ack | ack | _ <;> grind [acknowledgedBy_of_valid]
  | _ => grind

theorem alone_begin (h : Alone s sent) (hnone : s.calls.size < 1) {stage : Stage}
    (hrelies : stage.Relies s.manager s.acknowledged sent) : Alone (s.begin stage) sent := by
  have hfree := Table.get?_of_size_eq_zero (Nat.lt_one_iff.mp hnone)
  refine ⟨?_, h.acknowledged, h.epoch, h.upToNow, h.same, ?_⟩ <;> grind [DiscoveryState.begin]

theorem alone_step {op : DiscoveryOp} (h : Alone s sent) (hone : AtMost 1 s op) :
    Alone (discoveryStep s op).1 (sent ++ sentBy [(op, (discoveryStep s op).2)]) := by
  cases op with
  | onControlConnected | onLocalCandidatesChanged | onNetworkEnvironmentChanged =>
    exact (List.append_nil sent).symm ▸ alone_begin h (hone nofun) trivial
  | resume call env =>
    rcases hcall : s.calls.get? call with _ | stage
    · simp only [discoveryStep, hcall]
      exact (List.append_nil sent).symm ▸ h
    · obtain ⟨hepoch, hacks, hsent, hnow, hsame, hnext⟩ :=
        Stage.relies_next h (h.relies hcall) env call
      have hother : ∀ other stage', s.calls.get? other = some stage' → other = call :=
        fun other stage' hother => h.one hother hcall
      simp only [discoveryStep, hcall]
      exact ⟨by grind, hacks, hepoch.symm ▸ hsent, hnow, hsame, by grind⟩

theorem alone_start (runtimeEpoch : UInt64 × UInt64) (bundle : List Bytes) :
    Alone (discoveryMachine runtimeEpoch bundle).start [] := by
  refine ⟨?_, nofun, nofun, nofun, nofun, ?_⟩ <;> simp [discoveryMachine]

theorem alone_run (hone : (discoveryMachine runtimeEpoch bundle).Along (AtMost 1) ops) :
    Alone ((discoveryMachine runtimeEpoch bundle).run ops)
      (sentBy ((discoveryMachine runtimeEpoch bundle).transcript ops)) := by
  refine Machine.transcript_invariant (P := AtMost 1) (I := fun s h => Alone s (sentBy h)) _
    (alone_start runtimeEpoch bundle) (fun s h op hs hop => ?_) hone
  have hsnoc : ∀ entry, sentBy (h ++ [entry]) = sentBy h ++ sentBy [entry] := fun entry =>
    List.filterMap_append
  rw [hsnoc]
  exact alone_step hs hop

theorem along_mono {n k : ℕ} (hle : n ≤ k)
    (h : (discoveryMachine runtimeEpoch bundle).Along (AtMost n) ops) :
    (discoveryMachine runtimeEpoch bundle).Along (AtMost k) ops :=
  Machine.alongFrom_mono _ (fun _ _ hop hbegins => (hop hbegins).trans_le hle) h

/-! ## Published means acknowledged -/

theorem Alone.published (h : Alone s sent) :
    s.Acknowledged := fun hstate =>
  ⟨s.manager.snapshot, h.acknowledged hstate, rfl, rfl, rfl⟩

/-- A usable control connection, newly gathered candidates, and an acknowledgement of the first
revision. -/
def surroundings : Surroundings := ⟨[[2]], true, .ack ⟨some (7, 7), 1⟩⟩

/-- The first revision is sent, the candidates change, and then its acknowledgement arrives. -/
def lateAcknowledgement : List DiscoveryOp :=
  [.onControlConnected, .resume 0 surroundings, .resume 0 surroundings, .resume 0 surroundings,
    .resume 0 surroundings, .onLocalCandidatesChanged, .resume 1 surroundings,
    .resume 0 surroundings, .resume 0 surroundings]

theorem lateAcknowledgement_run :
    (discoveryMachine (7, 7) [[1]]).Along (AtMost 2) lateAcknowledgement ∧
    ((discoveryMachine (7, 7) [[1]]).run lateAcknowledgement).manager =
      ⟨(7, 7), 2, .published, [[1]], localTransportCapabilities⟩ ∧
    ((discoveryMachine (7, 7) [[1]]).run lateAcknowledgement).acknowledged.map
      DiscoverySnapshot.revision = [1] := by
  decide +kernel

theorem lateAcknowledgement_unacknowledged :
    ¬ ((discoveryMachine (7, 7) [[1]]).run lateAcknowledgement).Acknowledged := by
  intro h
  obtain ⟨-, hmanager, hacks⟩ := lateAcknowledgement_run
  obtain ⟨snapshot, hmem, -, hrevision, -⟩ := h (by rw [hmanager])
  have hone := List.mem_map_of_mem (f := DiscoverySnapshot.revision) hmem
  rw [hacks, hrevision, hmanager] at hone
  revert hone
  decide

/-- **A published discovery is an acknowledged one** in all runs with at most `n` calls under way
at a time, iff `n ≤ 1`. -/
theorem published_acknowledged_iff (n : ℕ) :
    (∀ (runtimeEpoch : UInt64 × UInt64) (bundle : List Bytes) (ops : List DiscoveryOp),
      (discoveryMachine runtimeEpoch bundle).Along (AtMost n) ops →
      ((discoveryMachine runtimeEpoch bundle).run ops).Acknowledged) ↔ n ≤ 1 := by
  constructor
  · intro h
    by_contra hgt
    exact lateAcknowledgement_unacknowledged
      (h _ _ _ (along_mono (not_le.mp hgt) lateAcknowledgement_run.1))
  · intro hle runtimeEpoch bundle ops halong
    exact (alone_run (along_mono hle halong)).published

/-- **Published, not acknowledged**: the manager is at the second revision, and the relay has
acknowledged the first one only. -/
theorem published_unacknowledged :
    ((discoveryMachine (7, 7) [[1]]).run lateAcknowledgement).manager =
        ⟨(7, 7), 2, .published, [[1]], localTransportCapabilities⟩ ∧
      ((discoveryMachine (7, 7) [[1]]).run lateAcknowledgement).acknowledged.map
        DiscoverySnapshot.revision = [1] ∧
      ¬ ((discoveryMachine (7, 7) [[1]]).run lateAcknowledgement).Acknowledged :=
  ⟨lateAcknowledgement_run.2.1, lateAcknowledgement_run.2.2, lateAcknowledgement_unacknowledged⟩

/-! ## One revision, one content -/

theorem sameStringSet_self (strings : List String) : sameStringSet strings strings = true := by
  simp [sameStringSet, List.isPerm_iff]

/-- The relay does not refuse what it has stored. -/
theorem checkRevision_self (config : DiscoveryConfig) (deviceId connectionId : String)
    (snapshot : DiscoverySnapshot) (storedAt now : ℕ) :
    checkRevision (discoveryFromV2 config deviceId snapshot now)
      (some { discoveryFromV2 config deviceId snapshot storedAt with connectionId }) = none := by
  simp [checkRevision, discoveryFromV2, sameDiscoveryContent, sameStringSet_self]

theorem Alone.oneContent {h : List (DiscoveryOp × DiscoveryOutput)} (halone : Alone s (sentBy h)) :
    OneContent h := by
  constructor
  · intro a ha b hb _ hrevision htop
    rw [halone.same a ha b hb hrevision htop]
    exact ⟨rfl, rfl⟩
  · intro a ha b hb htop config deviceId storedAt now connectionId
    by_cases hrevision : a.revision = b.revision
    · rw [halone.same a ha b hb hrevision (hrevision ▸ htop), checkRevision_self]
      simp
    · -- Only an equal revision is refused for its content.
      have hne : ¬ b.revision = a.revision := fun heq => hrevision heq.symm
      simp only [checkRevision, discoveryFromV2, hne, false_and, if_false]
      split_ifs <;> simp

/-- The revision is raised; a new control connection publishes it with the old candidates; then
the new ones are stored and published. -/
def gatheringOvertaken : List DiscoveryOp :=
  [.onLocalCandidatesChanged, .resume 0 surroundings, .resume 0 surroundings,
    .onControlConnected, .resume 1 surroundings, .resume 1 surroundings, .resume 1 surroundings,
    .resume 1 surroundings, .resume 0 surroundings, .resume 0 surroundings,
    .resume 0 surroundings, .resume 0 surroundings, .resume 0 surroundings, .resume 0 surroundings]

theorem gatheringOvertaken_run :
    (discoveryMachine (7, 7) [[1]]).Along (AtMost 2) gatheringOvertaken ∧
    sentBy ((discoveryMachine (7, 7) [[1]]).transcript gatheringOvertaken) =
      [⟨some (7, 7), 2, [1, 2, 3, 5, 6], some [[1]]⟩,
        ⟨some (7, 7), 2, [1, 2, 3, 5, 6], some [[2]]⟩] := by
  decide +kernel

theorem gatheringOvertaken_differs :
    ¬ OneContent ((discoveryMachine (7, 7) [[1]]).transcript gatheringOvertaken) := by
  intro h
  have hsame := h.same ⟨some (7, 7), 2, [1, 2, 3, 5, 6], some [[1]]⟩
    (by simp [gatheringOvertaken_run.2]) ⟨some (7, 7), 2, [1, 2, 3, 5, 6], some [[2]]⟩
    (by simp [gatheringOvertaken_run.2]) rfl rfl (by decide)
  exact absurd hsame.1 (by decide)

/-- **One revision carries one content** in all runs with at most `n` calls under way at a time,
iff `n ≤ 1`. -/
theorem one_content_iff (n : ℕ) :
    (∀ (runtimeEpoch : UInt64 × UInt64) (bundle : List Bytes) (ops : List DiscoveryOp),
      (discoveryMachine runtimeEpoch bundle).Along (AtMost n) ops →
      OneContent ((discoveryMachine runtimeEpoch bundle).transcript ops)) ↔ n ≤ 1 := by
  constructor
  · intro h
    by_contra hgt
    exact gatheringOvertaken_differs
      (h _ _ _ (along_mono (not_le.mp hgt) gatheringOvertaken_run.1))
  · intro hle runtimeEpoch bundle ops halong
    exact (alone_run (along_mono hle halong)).oneContent

/-- **Two contents under one revision**: both are sent, and the relay that has stored the first
refuses the second. -/
theorem second_content_refused :
    sentBy ((discoveryMachine (7, 7) [[1]]).transcript gatheringOvertaken) =
      [⟨some (7, 7), 2, [1, 2, 3, 5, 6], some [[1]]⟩,
        ⟨some (7, 7), 2, [1, 2, 3, 5, 6], some [[2]]⟩] ∧
    checkRevision
        (discoveryFromV2 ⟨60, fun candidate => toString candidate⟩ "device"
          ⟨some (7, 7), 2, [1, 2, 3, 5, 6], some [[2]]⟩ 1)
        (some (discoveryFromV2 ⟨60, fun candidate => toString candidate⟩ "device"
          ⟨some (7, 7), 2, [1, 2, 3, 5, 6], some [[1]]⟩ 0)) = some .revisionImmutable ∧
    ¬ OneContent ((discoveryMachine (7, 7) [[1]]).transcript gatheringOvertaken) :=
  ⟨gatheringOvertaken_run.2, by decide +kernel, gatheringOvertaken_differs⟩

end SshMobile.Discovery
