import SshMobile.Server.Accounting

/-!
# The quota of pending pairs

A new pair is refused once as many pairs are pending as sessions are allowed. One increase of the
counter is not guarded: a retry against an active role makes its pair pending again without
looking at how many there are. The quota is respected exactly by the runs in which this does not
happen at the limit.

## Main definitions

* `ReplacesActiveAtQuota`: the retry that exceeds the quota

## Main results

* `pending_registryStep`: what a step does to the counter of pending pairs
* `pending_quota_iff`: when pending pairs stay within the quota
* `pending_quota_exceeded`: a run in which they do not
-/

namespace SshMobile.Server

open Library

/-! ## Retries against an active role -/

/-- The operation is a first frame that `admitEndpoint` takes for a retry against an active
role. -/
def replacesActive (r : RelayDataRegistry) : RegistryOp → Bool
  | .connect conn reservationId localToken _ _ _ =>
    (r.conns.get? conn).any fun rc =>
      rc.activated && !rc.connected && !rc.isTerminal &&
        rc.acceptConnect reservationId localToken && !r.closed &&
          (r.pairs.get? rc.reservationId).any fun pair =>
            pair.active && (pair.slot rc.role).isSome
  | _ => false

/-- **A retry against an active role** while as many pairs are pending as are allowed. -/
def ReplacesActiveAtQuota (r : RelayDataRegistry) (op : RegistryOp) : Prop :=
  replacesActive r op = true ∧ r.maxSessions ≤ r.pendingPairs

instance (r : RelayDataRegistry) (op : RegistryOp) : Decidable (ReplacesActiveAtQuota r op) :=
  inferInstanceAs (Decidable (_ ∧ _))

/-! ## The counter of pending pairs -/

/-- No more pairs are pending than before. -/
structure Lowers (r r' : RelayDataRegistry) : Prop where
  pending : r'.pendingPairs ≤ r.pendingPairs
  quota : r'.maxSessions = r.maxSessions

section Lowers

variable {r r' r'' : RelayDataRegistry} {conn : ℕ} {rc : RelayDataConn}

theorem Lowers.refl (r : RelayDataRegistry) : Lowers r r := ⟨le_rfl, rfl⟩

theorem Lowers.trans (h : Lowers r r') (h' : Lowers r' r'') : Lowers r r'' :=
  ⟨h'.pending.trans h.pending, h'.quota.trans h.quota⟩

theorem Lowers.of_eq (hpending : r'.pendingPairs = r.pendingPairs)
    (hquota : r'.maxSessions = r.maxSessions) : Lowers r r' :=
  ⟨hpending.le, hquota⟩

theorem decrement_le (count : ℤ) : decrement count ≤ count := by
  unfold decrement
  split_ifs <;> omega

theorem Idle.lowers (h : Idle r r') : Lowers r r' := .of_eq h.pendingPairs h.maxSessions

theorem Release.lowers (h : Release r conn rc r') : Lowers r r' := by
  cases h with
  | unseated | dissolves | leaves => exact .of_eq rfl rfl
  | empties => exact ⟨decrement_le _, rfl⟩

theorem lowers_releaseEndpointLocked (r : RelayDataRegistry) (conn : ℕ) :
    Lowers r (releaseEndpointLocked r conn) := by
  rcases hrc : r.conns.get? conn with _ | rc
  · unfold releaseEndpointLocked
    rw [hrc]
    exact .refl r
  · exact (idle_removeUpgradeLocked r conn).lowers.trans (release_releaseEndpointLocked hrc).lowers

theorem lowers_foldl {α : Type} {f : RelayDataRegistry → α → RelayDataRegistry}
    (hf : ∀ r a, Lowers r (f r a)) (r : RelayDataRegistry) (list : List α) :
    Lowers r (list.foldl f r) :=
  List.foldlRecOn list f (.refl r) fun r' h a _ => h.trans (hf r' a)

theorem lowers_closeTargets (r : RelayDataRegistry) (targets : Finset ℕ) (order : List ℕ) :
    Lowers r (closeTargets r targets order) := by
  refine (lowers_foldl ?_ r _).trans (lowers_foldl lowers_releaseEndpointLocked _ _)
  exact fun r conn => .of_eq rfl rfl

/-- **What an admission does to the pending pairs**: a new pair is within the quota, and any other
increase is a retry against an active role. -/
theorem Admission.pending {ok : Bool} (h : Admission r conn rc r' ok) :
    r'.maxSessions = r.maxSessions ∧ (r'.pendingPairs ≤ r.pendingPairs ∨
      r'.pendingPairs ≤ r.maxSessions ∨ ∃ pair replaced,
        r.pairs.get? rc.reservationId = some pair ∧ pair.slot rc.role = some replaced ∧
          pair.active = true ∧ r.closed = false ∧ rc.isTerminal = false ∧
            r'.pendingPairs = r.pendingPairs + 1) := by
  cases h with
  | refused | waits | replacesPending => exact ⟨rfl, .inl le_rfl⟩
  | opens consumed hnone hquota => exact ⟨rfl, .inr (.inl hquota)⟩
  | replacesActive consumed pair replaced hpair hslot hactive hopen hlive =>
    exact ⟨rfl, .inr (.inr ⟨pair, replaced, hpair, hslot, hactive, hopen, hlive, rfl⟩)⟩
  | undone => exact ⟨rfl, .inl (decrement_le _)⟩
  | commits => exact ⟨rfl, .inl (Int.sub_le_self _ (by decide))⟩

end Lowers

variable {r : RelayDataRegistry}

/-- The fields that `replacesActive` looks at. -/
theorem replacesActive_connect {conn : ℕ} {rc : RelayDataConn}
    (hrc : r.conns.get? conn = some rc) (reservationId : String) (localToken : Bytes) (now : ℕ)
    (room peerRoom : Bool) :
    replacesActive r (.connect conn reservationId localToken now room peerRoom) = true ↔
      rc.activated = true ∧ rc.connected = false ∧ rc.isTerminal = false ∧
        rc.acceptConnect reservationId localToken = true ∧ r.closed = false ∧
          ∃ pair replaced, r.pairs.get? rc.reservationId = some pair ∧ pair.active = true ∧
            pair.slot rc.role = some replaced := by
  simp only [replacesActive, hrc, Option.any_some, Bool.and_eq_true, Bool.not_eq_true',
    Option.any_eq_true, Option.isSome_iff_exists, and_assoc, exists_and_left]

theorem closed_removeUpgradeLocked (r : RelayDataRegistry) (conn : ℕ) :
    (r.removeUpgradeLocked conn).closed = r.closed := by
  unfold RelayDataRegistry.removeUpgradeLocked
  split_ifs <;> rfl

open RelayDataConn

/-- **What a step does to the pending pairs.** -/
theorem pending_registryStep (r : RelayDataRegistry) (op : RegistryOp) :
    (registryStep r op).1.maxSessions = r.maxSessions ∧
      ((registryStep r op).1.pendingPairs ≤ r.pendingPairs ∨
        (registryStep r op).1.pendingPairs ≤ r.maxSessions ∨ replacesActive r op = true) := by
  have hmove := move_registryStep r op
  generalize (registryStep r op).1 = r', (registryStep r op).2 = output at hmove ⊢
  have hlowers : Lowers r r' → r'.maxSessions = r.maxSessions ∧
      (r'.pendingPairs ≤ r.pendingPairs ∨ r'.pendingPairs ≤ r.maxSessions ∨
        replacesActive r op = true) :=
    fun h => ⟨h.quota, .inl h.pending⟩
  cases hmove with
  | idle h => exact hlowers h.lowers
  | authorizes | pumps conn f | rejects conn => exact hlowers (.of_eq rfl rfl)
  | stages lease =>
    refine hlowers ?_
    unfold stageEndpoint
    split
    · exact .refl r
    · split_ifs <;> exact .of_eq rfl rfl
  | admits conn reservationId localToken now room peerRoom hrc hactivated hfirst haccept h =>
    have hbefore := (idle_removeUpgradeLocked (r.modify conn connect) conn).lowers
    obtain ⟨hquota, hle | hle | ⟨pair, replaced, hpair, hslot, hactive, hopen, hlive, _⟩⟩ :=
      h.pending
    · exact ⟨hquota.trans hbefore.quota, .inl (hle.trans hbefore.pending)⟩
    · exact ⟨hquota.trans hbefore.quota, .inr (.inl (hbefore.quota ▸ hle))⟩
    · refine ⟨hquota.trans hbefore.quota, .inr (.inr ?_)⟩
      rw [(idle_removeUpgradeLocked _ conn).pairs] at hpair
      rw [closed_removeUpgradeLocked] at hopen
      exact (replacesActive_connect hrc reservationId localToken now room peerRoom).mpr
        ⟨hactivated, hfirst, hlive, haccept, hopen, pair, replaced, hpair, hactive, hslot⟩
  | forwards => exact hlowers (.refl r)
  | releases conn f =>
    have hrelease := lowers_releaseEndpointLocked
      ((r.modify conn f).modify conn markTerminal) conn
    exact hlowers ⟨hrelease.pending, hrelease.quota⟩
  | closes hbase targets order => exact hlowers (hbase.lowers.trans (lowers_closeTargets _ _ order))

theorem checkConsumed_of_active {id : String} {pair : RelayDataPair}
    (hpair : r.pairs.get? id = some pair) (hactive : pair.active = true) (now : ℕ) :
    ∃ consumed, checkConsumed r id now = some { r with consumed } := by
  unfold checkConsumed
  split
  · exact ⟨r.consumed, rfl⟩
  · split_ifs
    · rw [hpair]
      dsimp only
      rw [hactive]
      exact ⟨r.consumed, rfl⟩
    · exact ⟨_, rfl⟩

/-- A retry against an active role makes one more pair pending, whatever the quota says. -/
theorem pending_of_replacesActive {op : RegistryOp} (h : replacesActive r op = true) :
    (registryStep r op).1.pendingPairs = r.pendingPairs + 1 := by
  cases op with
  | connect conn reservationId localToken now room peerRoom =>
    rcases hrc : r.conns.get? conn with _ | rc
    · simp [replacesActive, hrc] at h
    obtain ⟨hactivated, hfirst, hlive, haccept, hopen, pair, replaced, hpair, hactive, hslot⟩ :=
      (replacesActive_connect hrc reservationId localToken now room peerRoom).mp h
    have hrc' : (r.modify conn connect).conns.get? conn = some rc.connect := by
      rw [RelayDataRegistry.get?_modify, hrc]
      exact congrArg some (if_pos rfl)
    dsimp only [registryStep]
    rw [hrc]
    dsimp only
    rw [hactivated, hfirst, haccept]
    change (admitEndpoint (r.modify conn connect) conn now room
      peerRoom).1.pendingPairs = r.pendingPairs + 1
    unfold admitEndpoint
    rw [hrc']
    dsimp only
    have hidle := idle_removeUpgradeLocked (r.modify conn connect) conn
    have hclosed := closed_removeUpgradeLocked (r.modify conn connect) conn
    generalize (r.modify conn connect).removeUpgradeLocked conn = base
      at hidle hclosed ⊢
    replace hpair : base.pairs.get? rc.connect.reservationId = some pair := by
      rw [hidle.pairs]
      exact hpair
    obtain ⟨consumed, hcheck⟩ := checkConsumed_of_active hpair hactive now
    rw [hclosed, show (r.modify conn connect).closed = false from hopen,
      show rc.connect.isTerminal = false from hlive, hcheck]
    dsimp only
    rw [openPair_of_some (r := { base with consumed }) hpair]
    dsimp only
    rw [show pair.slot rc.connect.role = some replaced from hslot]
    rw [hactive]
    rw [hidle.pendingPairs]
    rfl
  | _ => cases h

/-! ## The quota -/

/-- One step from within the quota stays within it, unless it is such a retry at the limit. -/
theorem quota_registryStep (hquota : r.pendingPairs ≤ r.maxSessions) (op : RegistryOp) :
    (registryStep r op).1.pendingPairs ≤ (registryStep r op).1.maxSessions ↔
      ¬ ReplacesActiveAtQuota r op := by
  obtain ⟨hmax, hpending⟩ := pending_registryStep r op
  rw [hmax]
  constructor
  · rintro hle ⟨hreplaces, hfull⟩
    have := pending_of_replacesActive hreplaces
    omega
  · intro hnot
    rcases hpending with hle | hle | hreplaces
    · exact hle.trans hquota
    · exact hle
    · have hroom : r.pendingPairs < r.maxSessions := not_le.mp fun hfull => hnot ⟨hreplaces, hfull⟩
      have := pending_of_replacesActive hreplaces
      omega

theorem quota_statesFrom (maxSessions : ℤ) (h : Accounts r)
    (hquota : r.pendingPairs ≤ r.maxSessions) (ops : List RegistryOp) :
    (∀ s ∈ (registryMachine maxSessions).statesFrom r ops, (s.inactiveCount : ℤ) ≤ s.maxSessions) ↔
      (registryMachine maxSessions).AlongFrom (fun r op => ¬ ReplacesActiveAtQuota r op) r ops := by
  have hcount : (r.inactiveCount : ℤ) ≤ r.maxSessions := h.counts.pending ▸ hquota
  induction ops generalizing r with
  | nil => exact ⟨fun _ => trivial, fun _ s hs => List.mem_singleton.mp hs ▸ hcount⟩
  | cons op ops ih =>
    have hstep := quota_registryStep hquota op
    have hnext := h.step op
    rw [Machine.statesFrom, Machine.AlongFrom, List.forall_mem_cons]
    constructor
    · rintro ⟨_, hrest⟩
      have hfirst : ((registryStep r op).1.inactiveCount : ℤ) ≤ (registryStep r op).1.maxSessions :=
        hrest _ (Machine.mem_statesFrom_self ..)
      rw [← hnext.counts.pending] at hfirst
      exact ⟨hstep.mp hfirst, (ih hnext hfirst (hnext.counts.pending ▸ hfirst)).mp hrest⟩
    · rintro ⟨hguard, hrest⟩
      have hfirst := hstep.mpr hguard
      exact ⟨hcount, (ih hnext hfirst (hnext.counts.pending ▸ hfirst)).mpr hrest⟩

/-- **The quota of pending pairs.** In every state of a run no more pairs are pending than
sessions are allowed, exactly if no endpoint of the run retries a role of an active pair while
that many are pending. -/
theorem pending_quota_iff (maxSessions : ℤ) (ops : List RegistryOp) :
    (∀ r ∈ (registryMachine maxSessions).states ops, (r.inactiveCount : ℤ) ≤ r.maxSessions) ↔
      (registryMachine maxSessions).Along (fun r op => ¬ ReplacesActiveAtQuota r op) ops := by
  have hstart := Accounts.start maxSessions
  -- Neither pending nor active pairs are there at the start.
  exact quota_statesFrom maxSessions hstart hstart.counts.quota ops

/-- The steps of the `conn`-th endpoint from its request to its first frame. -/
def endpointOps (conn : ℕ) (res : Reservation) (role : RelayDataRole) : List RegistryOp :=
  [.authorize (res.deviceId role) 1 res.reservationId (.ok (some res)) false
      (some (res.token role)),
    .beginUpgrade conn, .stageEndpoint conn, .activateEndpoint conn,
    .connect conn res.reservationId (res.token role) 0 true true]

/-- One session is allowed. A first pair is active and a second one waits for its responder when
the initiator of the first retries: both are pending. -/
theorem pending_quota_exceeded :
    ∃ first second : Reservation, ¬ ∀ r ∈ (registryMachine 1).states
      (endpointOps 0 first .initiator ++ endpointOps 1 first .responder ++
        endpointOps 2 second .initiator ++ endpointOps 3 first .initiator),
      (r.inactiveCount : ℤ) ≤ r.maxSessions := by
  refine ⟨⟨"r1", "A", "B", [1], [2]⟩, ⟨"r2", "C", "D", [3], [4]⟩, ?_⟩
  decide +kernel

end SshMobile.Server
