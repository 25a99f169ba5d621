import SshMobile.Server.Slots

/-!
# Forwarding between the endpoints of a pair

A business frame goes from one endpoint to the other one of the same active pair, and either of
them was admitted with the token of its own role. An endpoint that was admitted is in its slot or
terminal, and two endpoints that were paired are paired or both terminal; so when a device is
closed, its endpoints and all that were ever paired with them are terminal, and they stay so.

The pumps read and write outside of the registry's lock, but the one place where a business frame
enters a queue is a critical section. The device counts as closed from the end of the critical
section of `closeDevice`, which is before the call returns.

## Main definitions

* `Admitted`: an endpoint that showed the token of its role, in its request and in its first frame
* `Vouched`: the registry and its history
* `ForwardingDiscipline`: forwarding is isolated, and revocation is final

## Main results

* `terminal_closeDevice`: the critical section of `closeDevice`
* `forwarding_is_isolated`: the discipline holds in every interleaving
-/

namespace SshMobile.Server

open Library

/-! ## Where endpoints come from -/

/-- Whatever is known of the requests that were authorised is known of the leases and the
endpoints that came of them. -/
structure Credible (P : String → Reservation → RelayDataRole → Prop) (r : RelayDataRegistry) :
    Prop where
  requests : ∀ ⦃request upgrade⦄, r.requests.get? request = some upgrade →
    P upgrade.deviceId upgrade.res upgrade.role
  leases : ∀ ⦃lease upgrade⦄, r.upgradeLeases.get? lease = some upgrade →
    P upgrade.deviceId upgrade.res upgrade.role
  conns : ∀ ⦃conn rc⦄, r.conns.get? conn = some rc → P rc.deviceId rc.res rc.role

variable {r r' : RelayDataRegistry}

namespace Credible

variable {P : String → Reservation → RelayDataRole → Prop}

section

variable (h : Credible P r)

include h

theorem within {id : String} (hwithin : Within id r r') (hrequests : r'.requests = r.requests)
    (hleases : r'.upgradeLeases = r.upgradeLeases) :
    Credible P r' := by
  refine ⟨hrequests ▸ h.requests, hleases ▸ h.leases, ?_⟩
  intro conn rc' hrc'
  rcases hrc : r.conns.get? conn with _ | rc
  · cases (hwithin.absent hrc).symm.trans hrc'
  · obtain ⟨rc'', hrc'', hlater⟩ := hwithin.grows hrc
    cases hrc''.symm.trans hrc'
    rw [hlater.deviceId, hlater.res, hlater.role]
    exact h.conns hrc

theorem modify (conn : ℕ) {f : RelayDataConn → RelayDataConn}
    (hf : ∀ rc : RelayDataConn, rc.Later (f rc)) : Credible P (r.modify conn f) := by
  have hwithin : Within "" r (r.modify conn f) := (Within.refl r).modify hf
  exact h.within hwithin rfl rfl

theorem idle (hidle : Idle r r') : Credible P r' := by
  refine ⟨fun _ _ hrequest => h.requests (hidle.requests hrequest), ?_, hidle.conns ▸ h.conns⟩
  intro lease upgrade hlease
  rcases hidle.leases hlease with hlease | hrequest
  · exact h.leases hlease
  · exact h.requests hrequest

theorem admission {conn : ℕ} {rc : RelayDataConn} {ok : Bool}
    (hadmission : Admission r conn rc r' ok) (hrc : r.conns.get? conn = some rc)
    (hseated : Seated r) : Credible P r' := by
  refine h.within (hadmission.within hrc hseated) ?_ ?_
  · cases hadmission <;> rfl
  · cases hadmission <;> rfl

theorem releaseEndpointLocked (conn : ℕ) :
    Credible P (releaseEndpointLocked r conn) := by
  rcases hrc : r.conns.get? conn with _ | rc
  · unfold Server.releaseEndpointLocked
    rw [hrc]
    exact h
  · have hrelease := release_releaseEndpointLocked hrc
    have hidle := idle_removeUpgradeLocked r conn
    generalize Server.releaseEndpointLocked r conn = r' at hrelease ⊢
    rw [← hidle.conns] at hrc
    refine (h.idle hidle).within (hrelease.within hrc) ?_ ?_
    · cases hrelease <;> rfl
    · cases hrelease <;> rfl

theorem closeTargets (targets : Finset ℕ) (order : List ℕ) :
    Credible P (closeTargets r targets order) := by
  refine List.foldlRecOn _ _ (List.foldlRecOn _ _ h ?_) fun _ h conn _ =>
    h.releaseEndpointLocked conn
  exact fun _ h conn _ => h.modify conn RelayDataConn.later_markTerminal

theorem stageEndpoint (lease : ℕ) : Credible P (stageEndpoint r lease) := by
  unfold Server.stageEndpoint
  split
  · exact h
  · rename_i upgrade hlease
    split_ifs
    · exact h
    · refine ⟨h.requests, ?_, ?_⟩
      · intro other upgrade' hother
        simp only [Table.get?_erase] at hother
        split_ifs at hother
        exact h.leases hother
      · intro conn rc hrc
        simp only [Table.get?_insert] at hrc
        split_ifs at hrc
        · cases hrc
          exact h.leases hlease
        · exact h.conns hrc

end

end Credible

/-! ## Histories -/

/-- The device showed the token of its role in a request. -/
def Presented (history : List (RegistryOp × RegistryOutput)) (deviceId : String)
    (res : Reservation) (role : RelayDataRole) : Prop :=
  res.roleForDevice deviceId = some role ∧ ∃ generation reservationId stored,
    (.authorize deviceId generation reservationId stored false (some (res.token role)), .done) ∈
      history

/-- **The endpoint was admitted with the token of its own role**: in the request it came from, and
in its first frame. -/
structure Admitted (history : List (RegistryOp × RegistryOutput)) (conn : ℕ) (rc : RelayDataConn) :
    Prop where
  presented : Presented history rc.deviceId rc.res rc.role
  connected : ∃ now room peerRoom, (.connect conn rc.reservationId (rc.res.token rc.role) now room
    peerRoom, .admitted true) ∈ history
  device : rc.deviceId = rc.res.deviceId rc.role
  token : rc.res.token rc.role ≠ []

variable {history : List (RegistryOp × RegistryOutput)} {conn : ℕ}

section History

variable {op : RegistryOp} {output : RegistryOutput} {rc rc' : RelayDataConn}

theorem Presented.snoc {deviceId : String} {res : Reservation} {role : RelayDataRole}
    (h : Presented history deviceId res role) (entry : RegistryOp × RegistryOutput) :
    Presented (history ++ [entry]) deviceId res role := by
  grind [Presented]

theorem Admitted.snoc (h : Admitted history conn rc) (entry : RegistryOp × RegistryOutput) :
    Admitted (history ++ [entry]) conn rc := by
  obtain ⟨hpresented, ⟨now, room, peerRoom, hmem⟩, hdevice, htoken⟩ := h
  exact ⟨hpresented.snoc entry, ⟨now, room, peerRoom, List.mem_append_left _ hmem⟩, hdevice, htoken⟩

theorem Admitted.later (h : Admitted history conn rc) (hlater : rc.Later rc') :
    Admitted history conn rc' := by
  obtain ⟨hpresented, hconnected, hdevice, htoken⟩ := h
  have hid := hlater.reservationId
  rcases hlater with ⟨hres, hdeviceId, hrole, _⟩
  refine ⟨?_, ?_, ?_, ?_⟩
  · rwa [hdeviceId, hres, hrole]
  · rwa [hid, hres, hrole]
  · rw [hdeviceId, hres, hrole, hdevice]
  · rwa [hres, hrole]

/-- The checks of an authorised request. -/
theorem presented_of_authorize {deviceId reservationId : String} {generation : ℤ}
    {stored : Except Unit (Option Reservation)} {queryToken : Bool} {header : Option Bytes}
    {res : Reservation} {role : RelayDataRole}
    (h : relayDataAdmissionAuthorize r deviceId reservationId stored queryToken header =
      some (res, role)) :
    Presented (history ++ [(.authorize deviceId generation reservationId stored queryToken header,
      .done)]) deviceId res role := by
  grind [relayDataAdmissionAuthorize, Option.bind_eq_some_iff, Presented]

theorem Credible.mono {P Q : String → Reservation → RelayDataRole → Prop} (h : Credible P r)
    (hPQ : ∀ deviceId res role, P deviceId res role → Q deviceId res role) : Credible Q r :=
  ⟨fun _ _ hrequest => hPQ _ _ _ (h.requests hrequest),
    fun _ _ hlease => hPQ _ _ _ (h.leases hlease), fun _ _ hconn => hPQ _ _ _ (h.conns hconn)⟩

/-- Every endpoint comes of a request that showed the token of its role. -/
theorem Credible.move (h : Credible (Presented history) r) (hseated : Seated r)
    (hmove : Move r op r' output) : Credible (Presented (history ++ [(op, output)])) r' := by
  replace h := h.mono fun _ _ _ hpresented => hpresented.snoc (op, output)
  cases hmove with
  | idle hidle => exact h.idle hidle
  | authorizes deviceId generation reservationId stored queryToken header hauthorize =>
    refine ⟨?_, h.leases, h.conns⟩
    intro request upgrade hrequest
    simp only [Table.get?_insert] at hrequest
    split_ifs at hrequest
    · grind [presented_of_authorize]
    · exact h.requests hrequest
  | stages lease => exact h.stageEndpoint lease
  | pumps conn f hf => exact h.modify conn hf
  | rejects conn => exact h.modify conn fun _ => ⟨rfl, rfl, rfl, fun h => h⟩
  | @admits conn reservationId localToken now room peerRoom rc _ ok hrc _ _ _ hadmission =>
    have hconnect : ∀ rc : RelayDataConn, rc.Later rc.connect :=
      fun _ => ⟨rfl, rfl, rfl, fun h => h⟩
    have hidle := idle_removeUpgradeLocked (r.modify conn RelayDataConn.connect) conn
    refine ((h.modify conn hconnect).idle hidle).admission hadmission ?_
      (hidle.seated (hseated.modify conn hconnect))
    rw [hidle.conns, RelayDataRegistry.get?_modify, hrc]
    exact congrArg some (if_pos rfl)
  | forwards => exact h
  | releases conn f hf =>
    exact ((h.modify conn hf).modify conn
      RelayDataConn.later_markTerminal).releaseEndpointLocked conn
  | closes hbase targets order => exact (h.idle hbase).closeTargets targets order

/-- A newcomer's first frame had the token of its role. -/
theorem newcomer_of_move (hmove : Move r op r' output) (hnew : newcomer (op, output) = some conn) :
    ∃ rc now room peerRoom, r.conns.get? conn = some rc ∧
      op = .connect conn rc.reservationId (rc.res.token rc.role) now room peerRoom ∧
        output = .admitted true ∧ rc.deviceId = rc.res.deviceId rc.role ∧
          rc.res.token rc.role ≠ [] ∧ Holds r' rc.reservationId rc.role conn := by
  have hdone : newcomer (op, .done) = none := by cases op <;> rfl
  cases hmove with
  | idle | pumps | closes => cases hdone.symm.trans hnew
  | authorizes | stages | rejects | forwards | releases => cases hnew
  | @admits _ reservationId localToken now room peerRoom rc _ ok hrc _ _ haccept hadmission =>
    cases ok with
    | false => cases hnew
    | true =>
      cases hnew
      unfold RelayDataConn.acceptConnect at haccept
      simp only [Bool.and_eq_true, beq_iff_eq, Bool.not_eq_true', List.isEmpty_eq_false_iff]
        at haccept
      obtain ⟨⟨⟨rfl, hdevice⟩, htoken⟩, rfl⟩ := haccept
      exact ⟨rc, now, room, peerRoom, hrc, rfl, rfl, hdevice, htoken, hadmission.takes⟩

end History

/-- **The registry and its history**: an endpoint that was admitted is in its slot or terminal,
and whoever is in a slot was admitted. -/
structure Vouched (r : RelayDataRegistry) (history : List (RegistryOp × RegistryOutput)) :
    Prop where
  accounts : Accounts r
  credible : Credible (Presented history) r
  admitted : ∀ ⦃entry conn⦄, entry ∈ history → newcomer entry = some conn →
    ∃ rc, r.conns.get? conn = some rc ∧ Admitted history conn rc ∧
      ((∃ id role, Holds r id role conn) ∨ rc.terminal = true)
  holders : ∀ ⦃id role conn⦄, Holds r id role conn → ∃ entry ∈ history, newcomer entry = some conn

namespace Vouched

theorem start (maxSessions : ℤ) : Vouched (newRelayDataRegistry maxSessions) [] where
  accounts := .start maxSessions
  credible := ⟨fun _ _ h => (nomatch h), fun _ _ h => (nomatch h), fun _ _ h => (nomatch h)⟩
  admitted := fun _ _ h => absurd h List.not_mem_nil
  holders := by
    rintro id role conn ⟨pair, hpair, _⟩
    cases hpair

theorem step (h : Vouched r history) (op : RegistryOp) :
    Vouched (registryStep r op).1 (history ++ [(op, (registryStep r op).2)]) := by
  have hmove := move_registryStep r op
  have hshifts := shifts_registryStep h.accounts op
  refine ⟨h.accounts.step op, h.credible.move h.accounts.seated hmove, ?_, ?_⟩
  · intro entry conn hentry hnew
    rcases List.mem_append.mp hentry with hentry | hentry
    · obtain ⟨rc, hrc, hadmitted, hplace⟩ := h.admitted hentry hnew
      obtain ⟨rc', hrc', hlater⟩ := hshifts.grows hrc
      refine ⟨rc', hrc', (hadmitted.later hlater).snoc _, ?_⟩
      rcases hplace with ⟨id, role, hholds⟩ | hterminal
      · rcases hshifts.holds hholds with hholds | ⟨rc'', hrc'', hterminal⟩
        · exact .inl ⟨id, role, hholds⟩
        · simp_all
      · exact .inr (hlater.terminal hterminal)
    · cases List.mem_singleton.mp hentry
      obtain ⟨rc, now, room, peerRoom, hrc, rfl, houtput, hdevice, htoken, hholds⟩ :=
        newcomer_of_move hmove hnew
      obtain ⟨rc', hrc', hlater⟩ := hshifts.grows hrc
      have hadmitted : Admitted (history ++ [(.connect conn rc.reservationId (rc.res.token rc.role)
          now room peerRoom, .admitted true)]) conn rc :=
        ⟨(h.credible.conns hrc).snoc _,
          ⟨now, room, peerRoom, List.mem_append_right _ List.mem_cons_self⟩, hdevice, htoken⟩
      rw [houtput]
      exact ⟨rc', hrc', hadmitted.later hlater, .inl ⟨_, _, hholds⟩⟩
  · intro id role conn hholds
    rcases hshifts.entered hholds with hholds | hnew
    · obtain ⟨entry, hentry, hnew⟩ := h.holders hholds
      grind
    · simp_all

end Vouched

/-! ## Isolation and revocation -/

/-- **The frame stays in its pair**: it goes to the other role's endpoint of the same reservation's
active pair, and both were admitted with the tokens of their roles. -/
def Isolated (r : RelayDataRegistry) (history : List (RegistryOp × RegistryOutput))
    (conn other : ℕ) : Prop :=
  ∃ pair rc otherConn, r.conns.get? conn = some rc ∧ r.conns.get? other = some otherConn ∧
    otherConn.reservationId = rc.reservationId ∧ r.pairs.get? rc.reservationId = some pair ∧
      pair.active = true ∧ pair.slot rc.role = some conn ∧ pair.slot rc.role.other = some other ∧
        Admitted history conn rc ∧ Admitted history other otherConn

/-- The endpoint is not to be heard of again once the device is closed: it is an endpoint of the
device that was admitted before, or was ever the counterpart of one in an active pair. -/
def Concerned (maxSessions : ℤ) (before : List RegistryOp) (deviceId : String) (target : ℕ) :
    Prop :=
  ∃ conn rc, ((registryMachine maxSessions).run before).conns.get? conn = some rc ∧
    rc.deviceId = deviceId ∧
      (∃ entry ∈ (registryMachine maxSessions).transcript before, newcomer entry = some conn) ∧
        (target = conn ∨ ∃ earlier later, before = earlier ++ later ∧
          Paired ((registryMachine maxSessions).run earlier) conn target)

/-- What is asked of a run of the registry, at the moment a business frame enters a queue and after
`closeDevice`. -/
structure ForwardingDiscipline (maxSessions : ℤ) (ops : List RegistryOp) : Prop where
  isolated : ∀ before op after conn other, ops = before ++ op :: after →
    (registryStep ((registryMachine maxSessions).run before) op).2 = .enqueued conn other →
      Isolated ((registryMachine maxSessions).run before)
        ((registryMachine maxSessions).transcript before) conn other
  revoked : ∀ before deviceId order after target,
    ops = before ++ .closeDevice deviceId 0 order :: after →
      Concerned maxSessions before deviceId target →
        ∀ entry ∈ (registryMachine maxSessions).transcriptFrom
            ((registryMachine maxSessions).run (before ++ [.closeDevice deviceId 0 order])) after,
          ∀ source sink, entry.2 = .enqueued source sink → source ≠ target ∧ sink ≠ target

variable {other : ℕ}

/-- The checks of `forwardEndpoint`. -/
theorem forwardEndpoint_eq_some {room : Bool} (h : forwardEndpoint r conn room = some other) :
    ∃ rc otherConn pair role, r.conns.get? conn = some rc ∧ rc.isTerminal = false ∧
      r.conns.get? other = some otherConn ∧ otherConn.isTerminal = false ∧
        r.pairs.get? rc.reservationId = some pair ∧ pair.active = true ∧
          pair.slot role = some conn ∧ pair.slot role.other = some other := by
  unfold forwardEndpoint at h
  simp only [Option.bind_eq_bind, Option.bind_eq_some_iff] at h
  obtain ⟨rc, hrc, h⟩ := h
  split_ifs at h with hready
  grind [Option.bind_eq_some_iff, RelayDataPair.slots_of_counterpart]

/-- Only a forwarded frame enters a queue. -/
theorem forward_of_enqueued {op : RegistryOp} (h : (registryStep r op).2 = .enqueued conn other) :
    ∃ room, forwardEndpoint r conn room = some other := by
  have hmove := move_registryStep r op
  generalize (registryStep r op).1 = r' at hmove
  rw [h] at hmove
  cases hmove with
  | forwards conn room hforward => exact ⟨room, hforward⟩

theorem Vouched.isolated (h : Vouched r history) {room : Bool}
    (hforward : forwardEndpoint r conn room = some other) : Isolated r history conn other := by
  obtain ⟨rc, otherConn, pair, role, hrc, _, hother, _, hpair, hactive, hslot, hslot'⟩ :=
    forwardEndpoint_eq_some hforward
  have hadmitted : ∀ {role conn rc'}, pair.slot role = some conn → r.conns.get? conn = some rc' →
      Admitted history conn rc' ∧ rc'.reservationId = rc.reservationId ∧ rc'.role = role := by
    intro role conn rc' hslot hrc'
    obtain ⟨entry, hentry, hnew⟩ := h.holders ⟨pair, hpair, hslot⟩
    obtain ⟨rc₁, hrc₁, hadmitted, _⟩ := h.admitted hentry hnew
    cases hrc'.symm.trans hrc₁
    obtain ⟨rc₂, hrc₂, hid, hrole⟩ := (h.accounts.seated hpair hslot).endpoint
    simp_all
  grind [Isolated]

/-- A terminal endpoint neither sends nor receives. -/
theorem ne_of_terminal {op : RegistryOp} {target : ℕ}
    (hterminal : Terminal r target) (h : (registryStep r op).2 = .enqueued conn other) :
    conn ≠ target ∧ other ≠ target := by
  obtain ⟨room, hforward⟩ := forward_of_enqueued h
  obtain ⟨rc, otherConn, pair, role, hrc, hlive, hother, hlive', _⟩ :=
    forwardEndpoint_eq_some hforward
  obtain ⟨rc', hrc', hdead⟩ := hterminal
  have hne : ∀ {conn rc}, r.conns.get? conn = some rc → rc.isTerminal = false → conn ≠ target := by
    rintro conn rc hrc hlive rfl
    cases hrc.symm.trans hrc'
    rw [RelayDataConn.isTerminal, hdead] at hlive
    cases hlive
  exact ⟨hne hrc hlive, hne hother hlive'⟩

theorem grows_registryStep (h : Accounts r) (op : RegistryOp) :
    Grows r (registryStep r op).1 := (shifts_registryStep h op).grows

/-- **A terminal endpoint is silent for the rest of the run.** -/
theorem silent_of_terminal (maxSessions : ℤ) {target : ℕ} (h : Accounts r)
    (hterminal : Terminal r target) (ops : List RegistryOp) :
    ∀ entry ∈ (registryMachine maxSessions).transcriptFrom r ops, ∀ source sink,
      entry.2 = .enqueued source sink → source ≠ target ∧ sink ≠ target := by
  induction ops generalizing r with
  | nil => exact fun entry hentry => absurd hentry List.not_mem_nil
  | cons op ops ih =>
    intro entry hentry source sink houtput
    rcases List.mem_cons.mp hentry with rfl | hentry
    · exact ne_of_terminal hterminal houtput
    · exact ih (h.step op) (hterminal.grows (grows_registryStep h op)) entry hentry source sink
        houtput

/-- Two endpoints that were paired are paired or both terminal. -/
theorem paired_or_terminal (maxSessions : ℤ) {target : ℕ}
    (h : Accounts r) (hpaired : Paired r conn target) (ops : List RegistryOp) :
    let r' := (registryMachine maxSessions).runFrom r ops
    Paired r' conn target ∨ Terminal r' conn ∧ Terminal r' target := by
  have hrun := (registryMachine maxSessions).runFrom_always
    (I := fun r => Accounts r ∧ (Paired r conn target ∨ Terminal r conn ∧ Terminal r target))
    ⟨h, .inl hpaired⟩ ?_ ops
  · exact hrun.2
  · rintro s op ⟨haccounts, hplace⟩
    have hshifts := shifts_registryStep haccounts op
    refine ⟨haccounts.step op, ?_⟩
    rcases hplace with hpaired | ⟨hconn, htarget⟩
    · exact hshifts.paired hpaired
    · exact .inr ⟨hconn.grows hshifts.grows, htarget.grows hshifts.grows⟩

/-- **The critical section of `closeDevice`**: an endpoint of the device that is in a slot is
terminal afterwards, and so is its counterpart. -/
theorem terminal_closeDevice (h : Accounts r) {deviceId : String}
    {rc : RelayDataConn} {id : String} {role : RelayDataRole}
    (hrc : r.conns.get? conn = some rc) (hdevice : rc.deviceId = deviceId)
    (hholds : Holds r id role conn) (order : List ℕ) :
    Terminal (closeDeviceBeforeGeneration r deviceId 0 order) conn ∧
      ∀ target, Paired r conn target →
        Terminal (closeDeviceBeforeGeneration r deviceId 0 order) target := by
  unfold closeDeviceBeforeGeneration
  dsimp only
  have hidle := idle_invalidated r ((r.upgradeLeases.toList.filter fun lease =>
    lease.2.deviceId == deviceId && decide ((0 : ℤ) ≤ 0 ∨ lease.2.enrollmentGeneration < 0)).map
      Prod.fst)
  generalize List.foldl RelayDataRegistry.invalidateUpgradeLeaseLocked r _ = base at hidle ⊢
  obtain ⟨pair, hpair, hslot⟩ := hholds
  rw [← hidle.conns] at hrc
  have hlisted := (h.seated hpair hslot).listed
  rw [← hidle.deviceRefs] at hlisted
  have htarget : conn ∈ base.closeTargetsOf deviceId 0 := by
    refine Finset.mem_union_left _ (Finset.mem_union_left _ (Finset.mem_filter.mpr
      ⟨Finset.mem_filter.mpr ⟨hlisted, ?_⟩, ?_⟩))
    · rw [hrc]
      exact beq_iff_eq.mpr hdevice
    · simp_all
  obtain ⟨hshifts, hgone⟩ := shifts_closeTargets (hidle.seated h.seated)
    (base.closeTargetsOf deviceId 0) order
  obtain ⟨hterminal, hout⟩ := hgone conn htarget (Option.isSome_iff_exists.mpr ⟨rc, hrc⟩)
  refine ⟨hterminal, fun target hpaired => ?_⟩
  have hboth : Shifts none r _ := hidle.shifts.trans hshifts
  rcases hboth.paired hpaired with hpaired | ⟨_, htarget⟩
  · obtain ⟨id', pair', role', hpair', _, hslot', _⟩ := hpaired
    exact absurd ⟨pair', hpair', hslot'⟩ (hout id' role')
  · exact htarget

/-- **Forwarding is isolated and revocation is final**, in every interleaving of the registry's
critical sections with the pumps. -/
theorem forwarding_is_isolated (maxSessions : ℤ) (ops : List RegistryOp) :
    ForwardingDiscipline maxSessions ops := by
  have hvouched : ∀ ops, Vouched ((registryMachine maxSessions).run ops)
      ((registryMachine maxSessions).transcript ops) :=
    (registryMachine maxSessions).transcript_always (.start maxSessions) fun _ _ op h => h.step op
  refine ⟨?_, ?_⟩
  · intro before op after conn other _ houtput
    obtain ⟨room, hforward⟩ := forward_of_enqueued houtput
    exact (hvouched before).isolated hforward
  · rintro before deviceId order after target _
      ⟨conn, rc, hrc, hdevice, ⟨entry, hentry, hnew⟩, htarget⟩
    have haccounts := accounts_run maxSessions before
    refine silent_of_terminal maxSessions (accounts_run maxSessions _) ?_ after
    rw [Machine.run_snoc]
    have hgrows := grows_registryStep haccounts (.closeDevice deviceId 0 order)
    obtain ⟨rc', hrc', _, hplace⟩ := (hvouched before).admitted hentry hnew
    cases hrc.symm.trans hrc'
    -- The endpoint itself: in its slot, where it is found, or terminal already.
    rcases htarget with rfl | ⟨earlier, later, rfl, hpaired⟩
    · rcases hplace with ⟨id, role, hholds⟩ | hterminal
      · exact (terminal_closeDevice haccounts hrc hdevice hholds order).1
      · exact Terminal.grows ⟨rc, hrc, hterminal⟩ hgrows
    -- A counterpart: still paired with it, or both were made terminal when the pair went.
    · have hnow := paired_or_terminal maxSessions (accounts_run maxSessions earlier) hpaired later
      rw [← Machine.run_append] at hnow
      rcases hnow with hpaired | ⟨_, hterminal⟩
      · have ⟨id, pair, role, hpair, _, hslot, _⟩ := hpaired
        exact (terminal_closeDevice haccounts hrc hdevice ⟨pair, hpair, hslot⟩ order).2 target
          hpaired
      · exact hterminal.grows hgrows

end SshMobile.Server
