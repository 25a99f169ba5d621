import SshMobile.Connection.Session
import SshMobile.Library.Machine

/-!
# One winner for every session

Candidates that authenticate at the same time race for the session of their peer. The calls on the
store come in any order: reservations, claims with and without an expected identity, completions,
releases that reopen a reservation, replacements by a peer that was restarted, and retirements.

What a run says about a session is its last claim: an admission opens it, a release closes it. The
store and the history agree on it at every moment, and that is all the guarantees need.

## Main definitions

* `SessionOp`, `sessionMachine`: calls on the store in any order
* `admits`, `releases`, `finalizes`, `ends`: what an entry of a transcript has done
* `claim`: the binding of the last admission of a session, unless it was released
* `SingleWinner`: the guarantees for one peer
* `Tallies`: the store agrees with the history

## Main results

* `single_winner`: the guarantees hold in every run whose identities are drawn fresh
-/

namespace SshMobile.Connection

open Library

inductive SessionOp
  | registerPending (peerId : String) (sessionId : SessionId)
  | admitSession (fresh : SessionId) (peerId : String) (expected : Option SessionId)
    (binding : String)
  | finalize (peerId : String) (sessionId : SessionId) (binding : String)
  | release (peerId : String) (sessionId : SessionId) (binding : String)
  | retire (peerId : String) (sessionId : SessionId)
deriving DecidableEq

inductive SessionResult
  | registered (result : Except ConnectionAdmissionError Unit)
  | admitted (result : Except ConnectionAdmissionError ConnectionAdmission)
  | finalized (result : Except ConnectionAdmissionError Unit)
  | released (done : Bool)
  | retired (done : Bool)
deriving DecidableEq

@[grind =] def sessionStep (sessions : ConnectionSessionStore) :
    SessionOp → ConnectionSessionStore × SessionResult
  | .registerPending peerId sessionId =>
    ((registerPendingSession sessions peerId sessionId).1,
      .registered (registerPendingSession sessions peerId sessionId).2)
  | .admitSession fresh peerId expected binding =>
    ((admitAuthenticatedSession sessions fresh peerId expected binding).1,
      .admitted (admitAuthenticatedSession sessions fresh peerId expected binding).2)
  | .finalize peerId sessionId binding =>
    ((finalizeAuthenticatedSession sessions peerId sessionId binding).1,
      .finalized (finalizeAuthenticatedSession sessions peerId sessionId binding).2)
  | .release peerId sessionId binding =>
    ((releaseAuthenticatedSession sessions peerId sessionId binding).1,
      .released (releaseAuthenticatedSession sessions peerId sessionId binding).2)
  | .retire peerId sessionId =>
    ((retireSession sessions peerId sessionId).1,
      .retired (retireSession sessions peerId sessionId).2)

def sessionMachine : Machine ConnectionSessionStore SessionOp SessionResult where
  start := ∅
  step := sessionStep

abbrev SessionEntry := SessionOp × SessionResult

/-! ## What a history says -/

/-- The peer, session and binding of a successful admission. -/
@[grind =] def admits : SessionEntry → Option (String × SessionId × String)
  | (.admitSession _ peerId _ binding, .admitted (.ok admission)) =>
    some (peerId, admission.sessionId, binding)
  | _ => none

@[grind =] def releases : SessionEntry → Option (String × SessionId × String)
  | (.release peerId sessionId binding, .released true) => some (peerId, sessionId, binding)
  | _ => none

@[grind =] def finalizes : SessionEntry → Option (String × SessionId × String)
  | (.finalize peerId sessionId binding, .finalized (.ok ())) => some (peerId, sessionId, binding)
  | _ => none

/-- The peer and session of a replacement or a retirement. -/
@[grind =] def ends : SessionEntry → Option (String × SessionId)
  | (.admitSession _ peerId _ _, .admitted (.ok admission)) =>
    admission.replacedSessionId.map fun sessionId => (peerId, sessionId)
  | (.retire peerId sessionId, .retired true) => some (peerId, sessionId)
  | _ => none

/-- The identity that was drawn for a reservation or for an admission. -/
@[grind =] def draws : SessionEntry → Option SessionId
  | (.registerPending _ sessionId, .registered (.ok ())) => some sessionId
  | (.admitSession fresh _ _ _, .admitted (.ok admission)) =>
    if admission.sessionId = fresh then some fresh else none
  | _ => none

@[grind →] theorem releases_of_admits {entry : SessionEntry} {x : String × SessionId × String}
    (h : admits entry = some x) : releases entry = none := by
  grind [admits.eq_def, releases.eq_def]

/-- The claim on a session after one more entry. -/
@[grind =] def claimAfter (peerId : String) (sessionId : SessionId) (claim : Option String)
    (entry : SessionEntry) : Option String :=
  match admits entry, releases entry with
  | some (peer, session, binding), _ =>
    if peer = peerId ∧ session = sessionId then some binding else claim
  | none, some (peer, session, _) =>
    if peer = peerId ∧ session = sessionId then none else claim
  | none, none => claim

/-- **The claim on a session**: the binding of its last admission, unless it was released. -/
def claim (peerId : String) (sessionId : SessionId) (h : List SessionEntry) : Option String :=
  h.foldl (claimAfter peerId sessionId) none

@[grind =] theorem claim_snoc (peerId : String) (sessionId : SessionId) (h : List SessionEntry)
    (entry : SessionEntry) : claim peerId sessionId (h ++ [entry]) =
      claimAfter peerId sessionId (claim peerId sessionId h) entry := by
  simp [claim]

/-- **The guarantees for one peer.** -/
structure SingleWinner (peerId : String) (ops : List SessionOp) : Prop where
  /-- Between two admissions of a session, the claim of the first one is released. -/
  separated : ∀ before first between second sessionId binding binding',
    before ++ first :: between ++ [second] <+: sessionMachine.transcript ops →
    admits first = some (peerId, sessionId, binding) →
    admits second = some (peerId, sessionId, binding') →
    ∃ entry ∈ between, releases entry = some (peerId, sessionId, binding)
  /-- A session is completed only while it is current, for the binding of its last admission, which
  was not released. -/
  finalized : ∀ before op sessionId binding, before ++ [op] <+: ops →
    finalizes (op, (sessionMachine.step (sessionMachine.run before) op).2) =
      some (peerId, sessionId, binding) →
    currentSessionId (sessionMachine.run before) peerId = some sessionId ∧
      ∃ earlier admission later,
        sessionMachine.transcript before = earlier ++ admission :: later ∧
        admits admission = some (peerId, sessionId, binding) ∧
        ∀ entry ∈ later, ∀ other, admits entry ≠ some (peerId, sessionId, other) ∧
          releases entry ≠ some (peerId, sessionId, other)
  /-- A completed session keeps its binding. -/
  kept : ∀ entry ∈ sessionMachine.transcript ops, ∀ sessionId binding,
    finalizes entry = some (peerId, sessionId, binding) →
    ∀ current, (sessionMachine.run ops).get? peerId = some current → current.id = sessionId →
      current.remoteSessionBinding = some binding
  /-- A completed session is not admitted again. -/
  final : ∀ before entry between later sessionId binding binding',
    before ++ entry :: between ++ [later] <+: sessionMachine.transcript ops →
    finalizes entry = some (peerId, sessionId, binding) →
    admits later ≠ some (peerId, sessionId, binding')
  /-- A session that was replaced or retired is not current again. -/
  gone : ∀ entry ∈ sessionMachine.transcript ops, ∀ sessionId,
    ends entry = some (peerId, sessionId) →
    currentSessionId (sessionMachine.run ops) peerId ≠ some sessionId

/-! ## The store agrees with the history -/

/-- The session is spoken of in the history. -/
@[grind =] def Mentions (peerId : String) (sessionId : SessionId) (entry : SessionEntry) : Prop :=
  (∃ binding, admits entry = some (peerId, sessionId, binding)) ∨
    (∃ binding, finalizes entry = some (peerId, sessionId, binding)) ∨
    ends entry = some (peerId, sessionId)

/-- **The session of the peer is what the history says of it.** -/
structure Tallies (peerId : String) (sessions : ConnectionSessionStore) (h : List SessionEntry) :
    Prop where
  drawn : ∀ {current}, sessions.get? peerId = some current → current.id ∈ h.filterMap draws
  mentioned : ∀ entry ∈ h, ∀ sessionId, Mentions peerId sessionId entry →
    sessionId ∈ h.filterMap draws
  claimed : ∀ {current}, sessions.get? peerId = some current →
    current.remoteSessionBinding = claim peerId current.id h ∧
      (current.phase = .reserved ↔ current.remoteSessionBinding = none)
  completed : ∀ {current}, sessions.get? peerId = some current → ∀ entry ∈ h, ∀ binding,
    finalizes entry = some (peerId, current.id, binding) →
      current.phase = .authenticated ∧ current.remoteSessionBinding = some binding
  gone : ∀ entry ∈ h, ∀ {current}, sessions.get? peerId = some current →
    ends entry ≠ some (peerId, current.id)

/-- A session that was never spoken of has no claim. -/
theorem claim_eq_none {peerId : String} {sessionId : SessionId} {h : List SessionEntry}
    (hnew : ∀ entry ∈ h, ¬ Mentions peerId sessionId entry) : claim peerId sessionId h = none := by
  induction h using List.reverseRecOn with
  | nil => rfl
  | append_singleton h entry ih =>
    have hbefore := ih fun other hother => hnew other (List.mem_append_left _ hother)
    have hentry := hnew entry (by simp)
    rw [claim_snoc, hbefore]
    grind

attribute [grind =] registerPendingSession admitAuthenticatedSession replacesExisting
  finalizeAuthenticatedSession releaseAuthenticatedSession retireSession currentSessionId

/-- **What a call does to the session of the peer**, as the history records it. -/
inductive Effect (peerId : String) (entry : SessionEntry) :
    Option SessionAdmission → Option SessionAdmission → Prop
  | untouched {current} (hadm : ∀ x, admits entry ≠ some (peerId, x))
      (hrel : ∀ x, releases entry ≠ some (peerId, x))
      (hfin : ∀ x, finalizes entry ≠ some (peerId, x))
      (hends : ∀ x, ends entry ≠ some (peerId, x)) : Effect peerId entry current current
  | reserve {sessionId} (hdraws : draws entry = some sessionId) (hadm : admits entry = none)
      (hrel : releases entry = none) (hfin : finalizes entry = none) (hends : ends entry = none) :
      Effect peerId entry none (some ⟨sessionId, none, .reserved⟩)
  | open {current sessionId binding} (hdraws : draws entry = some sessionId)
      (hadm : admits entry = some (peerId, sessionId, binding))
      (hrel : releases entry = none) (hfin : finalizes entry = none)
      (hends : ends entry = current.map fun current => (peerId, current.id)) :
      Effect peerId entry current (some ⟨sessionId, some binding, .claimed⟩)
  | claim {sessionId old binding}
      (hadm : admits entry = some (peerId, sessionId, binding))
      (hrel : releases entry = none) (hfin : finalizes entry = none) (hends : ends entry = none) :
      Effect peerId entry (some ⟨sessionId, old, .reserved⟩)
        (some ⟨sessionId, some binding, .claimed⟩)
  | finalize {sessionId old binding phase} (hold : ∀ other, old = some other → other = binding)
      (hphase : phase ≠ .reserved) (hadm : admits entry = none)
      (hrel : releases entry = none)
      (hfin : finalizes entry = some (peerId, sessionId, binding)) (hends : ends entry = none) :
      Effect peerId entry (some ⟨sessionId, old, phase⟩)
        (some ⟨sessionId, some binding, .authenticated⟩)
  | release {sessionId binding} (hadm : admits entry = none)
      (hrel : releases entry = some (peerId, sessionId, binding)) (hfin : finalizes entry = none)
      (hends : ends entry = none) :
      Effect peerId entry (some ⟨sessionId, some binding, .claimed⟩)
        (some ⟨sessionId, none, .reserved⟩)
  | retire {current} (hadm : admits entry = none) (hrel : releases entry = none)
      (hfin : finalizes entry = none) (hends : ends entry = some (peerId, current.id)) :
      Effect peerId entry (some current) none

@[grind =] def peerOf : SessionOp → String
  | .registerPending peerId _ | .admitSession _ peerId _ _ | .finalize peerId _ _
  | .release peerId _ _ | .retire peerId _ => peerId

variable {peerId binding : String} {sessions : ConnectionSessionStore} {h : List SessionEntry}
  {entry : SessionEntry} {sessionId : SessionId} {new : Option SessionAdmission}

/-- A refused call leaves the session and is not recorded. -/
theorem Effect.refused {current : Option SessionAdmission}
    (hadm : admits entry = none) (hrel : releases entry = none) (hfin : finalizes entry = none)
    (hends : ends entry = none) : Effect peerId entry current current :=
  .untouched (by simp [hadm]) (by simp [hrel]) (by simp [hfin]) (by simp [hends])

theorem effect_sessionStep (peerId : String) (sessions : ConnectionSessionStore) (op : SessionOp) :
    Effect peerId (op, (sessionStep sessions op).2) (sessions.get? peerId)
      ((sessionStep sessions op).1.get? peerId) := by
  by_cases hpeer : peerOf op = peerId
  · subst hpeer
    cases op with
    | registerPending peerId sessionId =>
      simp only [sessionStep, registerPendingSession, peerOf]
      split
      · exact .refused rfl rfl rfl rfl
      · have : sessions.get? peerId = none := by grind
        simpa [this, Table.get?_insert] using Effect.reserve rfl rfl rfl rfl rfl
    | admitSession fresh peerId expected binding =>
      simp only [sessionStep, admitAuthenticatedSession, peerOf]
      split
      · exact .refused rfl rfl rfl rfl
      rcases hcur : sessions.get? peerId with _ | current
      · dsimp only
        split
        · simpa [hcur] using Effect.refused rfl rfl rfl rfl
        · simpa [Table.get?_insert] using Effect.open (by simp [draws]) rfl rfl rfl rfl
      · dsimp only
        split
        · simpa [hcur] using Effect.refused rfl rfl rfl rfl
        split
        · simpa [hcur] using Effect.refused rfl rfl rfl rfl
        rcases hreplaces : replacesExisting current expected with _ | _ | _
        · simpa [hcur] using Effect.refused rfl rfl rfl rfl
        · have hphase : current.phase = .reserved := by
            rcases expected <;> grind
          obtain ⟨id, old, phase⟩ := current
          subst hphase
          simpa [Table.get?_insert] using Effect.claim rfl rfl rfl rfl
        · simpa [Table.get?_insert] using Effect.open (by simp [draws]) rfl rfl rfl rfl
    | finalize peerId sessionId binding =>
      simp only [sessionStep, finalizeAuthenticatedSession, peerOf]
      split
      · exact .refused rfl rfl rfl rfl
      rcases hcur : sessions.get? peerId with _ | ⟨id, old, phase⟩
      · simpa [hcur] using Effect.refused rfl rfl rfl rfl
      dsimp only
      split
      · simpa [hcur] using Effect.refused rfl rfl rfl rfl
      split
      · simpa [hcur] using Effect.refused rfl rfl rfl rfl
      split
      · simpa [hcur] using Effect.refused rfl rfl rfl rfl
      · obtain rfl : id = sessionId := by grind
        simpa [Table.get?_insert] using Effect.finalize (by grind) ‹_› rfl rfl rfl rfl
    | release peerId sessionId binding =>
      simp only [sessionStep, releaseAuthenticatedSession, peerOf]
      rcases hcur : sessions.get? peerId with _ | ⟨id, old, phase⟩
      · simpa [hcur] using Effect.refused rfl rfl rfl rfl
      dsimp only
      split
      · simpa [hcur] using Effect.refused rfl rfl rfl rfl
      · obtain ⟨rfl, rfl, rfl⟩ : id = sessionId ∧ phase = .claimed ∧ old = some binding := by grind
        simpa [Table.get?_insert] using Effect.release rfl rfl rfl rfl
    | retire peerId sessionId =>
      simp only [sessionStep, retireSession, peerOf]
      rcases hcur : sessions.get? peerId with _ | current
      · simpa [hcur] using Effect.refused rfl rfl rfl rfl
      by_cases hid : current.id = sessionId
      · subst hid
        simpa [Table.get?_erase] using Effect.retire rfl rfl rfl rfl
      · simpa [hid, hcur] using Effect.refused rfl rfl rfl rfl
  · have : (sessionStep sessions op).1.get? peerId = sessions.get? peerId := by
      cases op <;> grind
    rw [this]
    apply Effect.untouched <;> intro x hx
    · grind [admits.eq_def]
    · grind [releases.eq_def]
    · grind [finalizes.eq_def]
    · grind [ends.eq_def]

/-- An identity that is drawn now was never spoken of. -/
theorem Tallies.not_mentions (htallies : Tallies peerId sessions h)
    (hfresh : ((h ++ [entry]).filterMap draws).Nodup) (hdraws : draws entry = some sessionId) :
    sessionId ∉ h.filterMap draws ∧ ∀ entry ∈ h, ¬ Mentions peerId sessionId entry := by
  have hunused : sessionId ∉ h.filterMap draws := by
    simp only [List.filterMap_append, List.nodup_append] at hfresh
    grind
  exact ⟨hunused, fun other hother hmentions =>
    hunused (htallies.mentioned other hother sessionId hmentions)⟩

theorem tallies_step {sessions' : ConnectionSessionStore} (htallies : Tallies peerId sessions h)
    (heffect : Effect peerId entry (sessions.get? peerId) (sessions'.get? peerId))
    (hfresh : ((h ++ [entry]).filterMap draws).Nodup) :
    Tallies peerId sessions' (h ++ [entry]) := by
  have hnew : ∀ sessionId, draws entry = some sessionId → sessionId ∉ h.filterMap draws ∧
      ∀ entry ∈ h, ¬ Mentions peerId sessionId entry :=
    fun _ hdraws => htallies.not_mentions hfresh hdraws
  obtain ⟨hdrawn, hmentioned, hclaimed, hcompleted, hgone⟩ := htallies
  have hnone := fun sessionId hdraws => claim_eq_none (hnew sessionId hdraws).2
  clear hfresh
  generalize hold : sessions.get? peerId = old at heffect
  generalize hcur : sessions'.get? peerId = new at heffect
  cases heffect with
  | untouched | reserve | retire => constructor <;> grind
  | «open» => rcases old <;> constructor <;> grind
  | claim | release =>
    have := hcompleted hold
    constructor <;> grind
  | finalize hsame hphase =>
    have := hcompleted hold
    obtain ⟨hclaim, hreserved⟩ := hclaimed hold
    obtain ⟨binding, rfl⟩ := Option.ne_none_iff_exists'.1 (mt hreserved.2 hphase)
    obtain rfl := hsame binding rfl
    constructor <;> grind

theorem tallies_run (peerId : String) {ops : List SessionOp}
    (hfresh : ((sessionMachine.transcript ops).filterMap draws).Nodup) :
    Tallies peerId (sessionMachine.run ops) (sessionMachine.transcript ops) := by
  induction ops using List.reverseRecOn with
  | nil => constructor <;> simp [Machine.transcript, Machine.transcriptFrom, Machine.run,
      sessionMachine]
  | append_singleton ops op ih =>
    rw [Machine.transcript, Machine.transcriptFrom_snoc] at hfresh ⊢
    rw [Machine.run_snoc]
    have hbefore := ih (by
      rw [List.filterMap_append] at hfresh
      exact hfresh.of_append_left)
    exact tallies_step hbefore (effect_sessionStep peerId _ op) hfresh

/-- **What the history says before a call that is recorded**: a session is admitted when it has no
claim and was not completed, and released or completed with the binding of its claim. -/
structure Orderly (peerId : String) (h : List SessionEntry) (entry : SessionEntry) : Prop where
  admits : ∀ {sessionId binding}, admits entry = some (peerId, sessionId, binding) →
    claim peerId sessionId h = none ∧
      ∀ e ∈ h, ∀ other, finalizes e ≠ some (peerId, sessionId, other)
  releases : ∀ {sessionId binding}, releases entry = some (peerId, sessionId, binding) →
    claim peerId sessionId h = some binding
  finalizes : ∀ {sessionId binding}, finalizes entry = some (peerId, sessionId, binding) →
    claim peerId sessionId h = some binding

theorem orderly_of_effect (htallies : Tallies peerId sessions h)
    (heffect : Effect peerId entry (sessions.get? peerId) new)
    (hfresh : ((h ++ [entry]).filterMap draws).Nodup) : Orderly peerId h entry := by
  generalize hold : sessions.get? peerId = old at heffect
  cases heffect with
  | «open» hdraws =>
    have hnew := (htallies.not_mentions hfresh hdraws).2
    have hnone := claim_eq_none hnew
    constructor <;> grind
  | finalize hsame hphase =>
    obtain ⟨hclaim, hreserved⟩ := htallies.claimed hold
    obtain ⟨binding, rfl⟩ := Option.ne_none_iff_exists'.1 (mt hreserved.2 hphase)
    obtain rfl := hsame binding rfl
    constructor <;> grind
  | claim | release =>
    have := htallies.claimed hold
    have := htallies.completed hold
    constructor <;> grind
  | _ => constructor <;> grind

theorem Effect.id_of_finalizes
    {old : Option SessionAdmission} (heffect : Effect peerId entry old new)
    (hfinalizes : finalizes entry = some (peerId, sessionId, binding)) :
    old.map SessionAdmission.id = some sessionId := by
  cases heffect <;> grind

theorem orderly_run {ops : List SessionOp}
    (hfresh : ((sessionMachine.transcript ops).filterMap draws).Nodup)
    (hinit : h ++ [entry] <+: sessionMachine.transcript ops) : Orderly peerId h entry := by
  have hnodup := hfresh.sublist (hinit.sublist.filterMap draws)
  obtain ⟨before, op, -, rfl, rfl⟩ := sessionMachine.exists_of_concat_prefix_transcript hinit
  have hbefore := hnodup.sublist ((List.sublist_append_left ..).filterMap draws)
  exact orderly_of_effect (tallies_run peerId hbefore) (effect_sessionStep peerId _ op) hnodup

/-- A claim stands from the last admission on. -/
theorem exists_of_claim_eq_some (hclaim : claim peerId sessionId h = some binding) :
    ∃ earlier admission later, h = earlier ++ admission :: later ∧
      admits admission = some (peerId, sessionId, binding) ∧
      ∀ entry ∈ later, ∀ other, admits entry ≠ some (peerId, sessionId, other) ∧
        releases entry ≠ some (peerId, sessionId, other) := by
  induction h using List.reverseRecOn with
  | nil => cases hclaim
  | append_singleton h entry ih =>
    by_cases hadmits : admits entry = some (peerId, sessionId, binding)
    · exact ⟨h, entry, [], by simp [hadmits]⟩
    · obtain ⟨earlier, admission, later, rfl, hadm, hlater⟩ := ih (by grind)
      exact ⟨earlier, admission, later ++ [entry], by simp, hadm, by grind⟩

/-- A claim stands until it is released. -/
theorem claim_of_not_released {before between : List SessionEntry} {first : SessionEntry}
    (horderly : ∀ {h' entry}, h' ++ [entry] <+: h → Orderly peerId h' entry)
    (hinit : before ++ first :: between <+: h)
    (hadmits : admits first = some (peerId, sessionId, binding))
    (hkept : ∀ entry ∈ between, releases entry ≠ some (peerId, sessionId, binding)) :
    claim peerId sessionId (before ++ first :: between) = some binding := by
  induction between using List.reverseRecOn with
  | nil => grind
  | append_singleton between entry ih =>
    have hassoc : before ++ first :: (between ++ [entry]) =
      before ++ first :: between ++ [entry] := by simp
    rw [hassoc] at hinit ⊢
    have hbefore := ih ((List.prefix_append ..).trans hinit) (by grind)
    have hentry := horderly hinit
    grind [Orderly]

/-- **Every session has a single winner**: in every run of calls by any callers whose identities
are drawn fresh, the guarantees hold for every peer. -/
theorem single_winner (peerId : String) (ops : List SessionOp)
    (hfresh : ((sessionMachine.transcript ops).filterMap draws).Nodup) :
    SingleWinner peerId ops where
  separated before first between second sessionId binding binding' hinit hfirst hsecond := by
    by_contra hkept
    have horderly : Orderly peerId _ _ := orderly_run hfresh hinit
    have hclaim := claim_of_not_released (orderly_run hfresh)
      ((List.prefix_append ..).trans hinit) hfirst (by grind)
    have := (horderly.admits hsecond).1
    grind
  finalized before op sessionId binding hinit hfinalizes := by
    have hfresh' : ((sessionMachine.transcript (before ++ [op])).filterMap draws).Nodup := by
      obtain ⟨after, rfl⟩ := hinit
      rw [Machine.transcript, Machine.transcriptFrom_append, List.filterMap_append] at hfresh
      exact hfresh.of_append_left
    rw [Machine.transcript, Machine.transcriptFrom_snoc] at hfresh'
    have heffect := effect_sessionStep peerId (sessionMachine.run before) op
    have hbefore := hfresh'.sublist ((List.sublist_append_left ..).filterMap draws)
    have horderly := orderly_of_effect (tallies_run peerId hbefore) heffect hfresh'
    refine ⟨?_, exists_of_claim_eq_some (horderly.finalizes hfinalizes)⟩
    exact heffect.id_of_finalizes hfinalizes
  kept entry hentry sessionId binding hfinalizes current hcurrent hid := by
    subst hid
    exact ((tallies_run peerId hfresh).completed hcurrent entry hentry binding hfinalizes).2
  final before entry between later sessionId binding binding' hinit hfinalizes hadmits := by
    have horderly : Orderly peerId _ _ := orderly_run hfresh hinit
    exact (horderly.admits hadmits).2 entry (by simp) binding hfinalizes
  gone entry hentry sessionId hends := by
    intro hid
    obtain ⟨current, hcurrent, rfl⟩ := Option.map_eq_some_iff.1 hid
    exact (tallies_run peerId hfresh).gone entry hentry hcurrent hends

/-- Two candidates race for a reservation: the first one gives it back, the second one completes
it, and a restarted peer replaces it. -/
def raceOps : List SessionOp :=
  [.registerPending "phone" (.replicate 16 1),
    .admitSession (.replicate 16 2) "phone" (some (.replicate 16 1)) "quic",
    .admitSession (.replicate 16 3) "phone" (some (.replicate 16 1)) "tcp",
    .release "phone" (.replicate 16 1) "quic",
    .admitSession (.replicate 16 4) "phone" (some (.replicate 16 1)) "tcp",
    .finalize "phone" (.replicate 16 1) "tcp",
    .admitSession (.replicate 16 5) "phone" none "restarted"]

theorem single_winner_race :
    (sessionMachine.transcript raceOps).filterMap draws = [.replicate 16 1, .replicate 16 5] ∧
      SingleWinner "phone" raceOps := by
  have hdraws : (sessionMachine.transcript raceOps).filterMap draws =
      [.replicate 16 1, .replicate 16 5] := by decide +kernel
  exact ⟨hdraws, single_winner "phone" raceOps (by rw [hdraws]; decide)⟩

end SshMobile.Connection
