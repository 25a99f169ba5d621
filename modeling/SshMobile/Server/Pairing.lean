import SshMobile.Server.DataRegistry

/-!
# What the data registry does to its pairs

The branches of `admitEndpoint` and `releaseEndpointLocked`, said once. Either of them touches the
pair of one reservation and the endpoints of that reservation only; endpoints keep their
reservation, device and role, and one that is terminal stays so.

## Main definitions

* `Grows`: the endpoints of one registry are endpoints of the other
* `Within id`: two registries differ in the reservation `id` only
* `Admission`, `Release`: the branches of an admission and of a release

## Main results

* `admission_admitEndpoint`, `release_releaseEndpointLocked`: each takes one of its branches
* `Admission.within`, `Release.within`: and stays within one reservation
-/

namespace SshMobile.Server

open Library

/-! ## Endpoints -/

/-- What no step changes about an endpoint; once terminal, it is terminal for good. -/
structure RelayDataConn.Later (rc rc' : RelayDataConn) : Prop where
  res : rc'.res = rc.res
  deviceId : rc'.deviceId = rc.deviceId
  role : rc'.role = rc.role
  terminal : rc.terminal = true → rc'.terminal = true

variable {rc : RelayDataConn}

namespace RelayDataConn

variable {rc' rc'' : RelayDataConn}

theorem Later.refl (rc : RelayDataConn) : rc.Later rc := ⟨rfl, rfl, rfl, fun h => h⟩

theorem Later.trans (h : rc.Later rc') (h' : rc'.Later rc'') : rc.Later rc'' :=
  ⟨h'.res.trans h.res, h'.deviceId.trans h.deviceId, h'.role.trans h.role,
    fun hrc => h'.terminal (h.terminal hrc)⟩

theorem Later.reservationId (h : rc.Later rc') : rc'.reservationId = rc.reservationId :=
  congrArg Reservation.reservationId h.res

theorem later_markTerminal (rc : RelayDataConn) : rc.Later rc.markTerminal :=
  ⟨rfl, rfl, rfl, fun _ => rfl⟩

theorem later_clearPeer (rc : RelayDataConn) : rc.Later rc.clearPeer :=
  ⟨rfl, rfl, rfl, fun h => h⟩

theorem later_commit (rc : RelayDataConn) (peer : ℕ) : rc.Later (rc.commit peer) :=
  ⟨rfl, rfl, rfl, fun h => h⟩

theorem later_displaced (rc : RelayDataConn) : rc.Later rc.markTerminal.clearPeer :=
  ⟨rfl, rfl, rfl, fun _ => rfl⟩

end RelayDataConn

/-- Every endpoint of `r` is an endpoint of `r'`. -/
def Grows (r r' : RelayDataRegistry) : Prop :=
  ∀ ⦃conn rc⦄, r.conns.get? conn = some rc → ∃ rc', r'.conns.get? conn = some rc' ∧ rc.Later rc'

/-- The endpoint was made for the reservation. -/
def Belongs (r : RelayDataRegistry) (id : String) (conn : ℕ) : Prop :=
  ∃ rc, r.conns.get? conn = some rc ∧ rc.reservationId = id

/-- The endpoint is terminal: no frame enters its queue, and none that it reads is forwarded. -/
def Terminal (r : RelayDataRegistry) (conn : ℕ) : Prop :=
  ∃ rc, r.conns.get? conn = some rc ∧ rc.terminal = true

open RelayDataConn

variable {r r' r'' : RelayDataRegistry} {id : String} {conn : ℕ} {f : RelayDataConn → RelayDataConn}

section Grows

theorem Grows.of_conns (h : r'.conns = r.conns) : Grows r r' :=
  fun _ rc hrc => ⟨rc, h ▸ hrc, .refl rc⟩

theorem Grows.trans (h : Grows r r') (h' : Grows r' r'') : Grows r r'' := by
  intro conn rc hrc
  obtain ⟨rc', hrc', hlater⟩ := h hrc
  obtain ⟨rc'', hrc'', hlater'⟩ := h' hrc'
  exact ⟨rc'', hrc'', hlater.trans hlater'⟩

theorem grows_modify (r : RelayDataRegistry) (conn : ℕ) (hf : ∀ rc : RelayDataConn, rc.Later
    (f rc)) : Grows r (r.modify conn f) := by
  intro other rc hrc
  refine ⟨if other = conn then f rc else rc, ?_, ?_⟩
  · rw [RelayDataRegistry.get?_modify, hrc]
    rfl
  · split_ifs
    exacts [hf rc, .refl rc]

theorem grows_modifyPeer (r : RelayDataRegistry) (peer : Option ℕ)
    (hf : ∀ rc : RelayDataConn, rc.Later (f rc)) : Grows r (r.modifyPeer peer f) := by
  intro other rc hrc
  refine ⟨if peer = some other then f rc else rc, ?_, ?_⟩
  · rw [RelayDataRegistry.get?_modifyPeer, hrc]
    rfl
  · split_ifs
    exacts [hf rc, .refl rc]

theorem Belongs.grows (h : Belongs r id conn) (hgrows : Grows r r') : Belongs r' id conn := by
  grind [Later.reservationId, Belongs, Grows]

theorem Terminal.grows (h : Terminal r conn) (hgrows : Grows r r') : Terminal r' conn := by
  obtain ⟨rc, hrc, hterminal⟩ := h
  obtain ⟨rc', hrc', hlater⟩ := hgrows hrc
  exact ⟨rc', hrc', hlater.terminal hterminal⟩

/-- An endpoint that some modification makes terminal. -/
theorem terminal_modify (hrc : r.conns.get? conn = some rc)
    (hf : (f rc).terminal = true) : Terminal (r.modify conn f) conn := by
  grind [RelayDataRegistry.get?_modify, Terminal]

end Grows

/-! ## One reservation at a time -/

/-- **The registries differ in the reservation `id` only**: they have the same endpoints, the other
pairs are as they were, and so are the endpoints of other reservations in the index of devices. -/
structure Within (id : String) (r r' : RelayDataRegistry) : Prop where
  grows : Grows r r'
  absent : ∀ ⦃conn⦄, r.conns.get? conn = none → r'.conns.get? conn = none
  listed : ∀ ⦃conn rc⦄, r.conns.get? conn = some rc → rc.reservationId ≠ id → conn ∈ r.deviceRefs →
    conn ∈ r'.deviceRefs
  pairs : ∀ ⦃other⦄, other ≠ id → r'.pairs.get? other = r.pairs.get? other

open Within

namespace Within

theorem refl (r : RelayDataRegistry) : Within id r r :=
  ⟨.of_conns rfl, fun _ h => h, fun _ _ _ _ hmem => hmem, fun _ _ => rfl⟩

section

variable (h : Within id r r')

include h

theorem trans (h' : Within id r' r'') : Within id r r'' := by
  refine ⟨h.grows.trans h'.grows, fun conn hconn => h'.absent (h.absent hconn), ?_,
    fun other hne => (h'.pairs hne).trans (h.pairs hne)⟩
  intro conn rc hrc hne hmem
  obtain ⟨rc', hrc', hlater⟩ := h.grows hrc
  exact h'.listed hrc' (hlater.reservationId ▸ hne) (h.listed hrc hne hmem)

/-- Only the pair of the reservation changes, and what is of no concern here. -/
theorem pair (hconns : r''.conns = r'.conns) (hrefs : r''.deviceRefs = r'.deviceRefs)
    (hpairs : ∀ ⦃other⦄, other ≠ id → r''.pairs.get? other = r'.pairs.get? other) :
    Within id r r'' :=
  h.trans ⟨.of_conns hconns, fun _ hconn => hconns ▸ hconn, fun _ _ _ _ hmem => hrefs ▸ hmem,
    hpairs⟩

/-- Endpoints leave the index of devices, if they belong to the reservation. -/
theorem refs (hconns : r''.conns = r'.conns) (hpairs : r''.pairs = r'.pairs)
    (hrefs : ∀ conn ∈ r'.deviceRefs, conn ∉ r''.deviceRefs → Belongs r id conn) :
    Within id r r'' := by
  refine h.trans ⟨.of_conns hconns, fun _ hconn => hconns ▸ hconn, ?_, fun _ _ => by rw [hpairs]⟩
  intro conn rc hrc hne hmem
  by_contra hleft
  obtain ⟨rc', hrc', hid⟩ := (hrefs conn hmem hleft).grows h.grows
  simp_all

section

variable (hconns : r''.conns = r'.conns) (hrefs : r''.deviceRefs = r'.deviceRefs)

include hconns hrefs

theorem same (hpairs : r''.pairs = r'.pairs) : Within id r r'' :=
  h.pair hconns hrefs fun _ _ => by rw [hpairs]

theorem insert {pair : RelayDataPair} (hpairs : r''.pairs = r'.pairs.insert id pair) :
    Within id r r'' :=
  h.pair hconns hrefs fun _ hne => by rw [hpairs, Table.get?_insert_of_ne hne]

theorem erase (hpairs : r''.pairs = r'.pairs.erase id) : Within id r r'' :=
  h.pair hconns hrefs fun _ hne => by rw [hpairs, Table.get?_erase_of_ne hne]

end

section

variable (hf : ∀ rc : RelayDataConn, rc.Later (f rc))

include hf

theorem modify :
    Within id r (r'.modify conn f) := by
  refine h.trans ⟨grows_modify r' conn hf, ?_, fun _ _ _ _ hmem => hmem, fun _ _ => rfl⟩
  grind [RelayDataRegistry.get?_modify]

theorem modifyPeer {peer : Option ℕ} : Within id r (r'.modifyPeer peer f) := by
  refine h.trans ⟨grows_modifyPeer r' peer hf, ?_, fun _ _ _ _ hmem => hmem, fun _ _ => rfl⟩
  grind [RelayDataRegistry.get?_modifyPeer]

end

theorem addDeviceRefLocked : Within id r (r'.addDeviceRefLocked conn) :=
  h.refs rfl rfl fun _ hmem hleft => absurd (Finset.mem_insert_of_mem hmem) hleft

theorem removeDeviceRefLocked (hconn : Belongs r id conn) :
    Within id r (r'.removeDeviceRefLocked conn) := by
  refine h.refs rfl rfl fun other hmem hleft => ?_
  have heq : other = conn := by
    by_contra hne
    exact hleft (Finset.mem_erase.mpr ⟨hne, hmem⟩)
  exact heq ▸ hconn

theorem displaceLocked (hconn : Belongs r id conn) : Within id r (r'.displaceLocked conn) :=
  (h.removeDeviceRefLocked hconn).modify later_displaced

theorem displacePeerLocked {peer : Option ℕ}
    (hpeer : ∀ conn, peer = some conn → Belongs r id conn) :
    Within id r (r'.displacePeerLocked peer) := by
  refine modifyPeer ?_ later_displaced
  refine h.refs rfl rfl fun conn hmem hleft => ?_
  simp_all

theorem removeUpgradeLocked : Within id r (r'.removeUpgradeLocked conn) := by
  unfold RelayDataRegistry.removeUpgradeLocked
  split_ifs
  · exact h.same rfl rfl rfl
  · exact h

theorem detachLocked (hconn : Belongs r id conn) {other : Option ℕ} :
    Within id r (r'.detachLocked conn other) :=
  ((h.removeDeviceRefLocked hconn).modifyPeer later_displaced).modify
    later_clearPeer

end

end Within

/-! ## The branches of an admission -/

/-- **What an admission does**, to a registry in which the endpoint holds no upgrade slot. The
tombstones may change in every branch. -/
inductive Admission (r : RelayDataRegistry) (conn : ℕ) (rc : RelayDataConn) :
    RelayDataRegistry → Bool → Prop
  | refused (consumed : Table String ℕ) : Admission r conn rc { r with consumed } false
  | opens (consumed : Table String ℕ) (hnone : r.pairs.get? rc.reservationId = none)
      (hquota : r.pendingPairs < r.maxSessions) :
    Admission r conn rc
      (occupySlot ({ r with consumed }.newPairLocked rc.res) conn rc (.empty rc.res)) true
  | waits (consumed : Table String ℕ) (pair : RelayDataPair)
      (hpair : r.pairs.get? rc.reservationId = some pair) (hslot : pair.slot rc.role = none)
      (hother : pair.slot rc.role.other = none) :
    Admission r conn rc (occupySlot { r with consumed } conn rc pair) true
  | replacesPending (consumed : Table String ℕ) (pair : RelayDataPair) (replaced : ℕ)
      (hpair : r.pairs.get? rc.reservationId = some pair)
      (hslot : pair.slot rc.role = some replaced) (hactive : pair.active = false) :
    Admission r conn rc (replacePending { r with consumed } conn rc pair replaced) true
  | replacesActive (consumed : Table String ℕ) (pair : RelayDataPair) (replaced : ℕ)
      (hpair : r.pairs.get? rc.reservationId = some pair)
      (hslot : pair.slot rc.role = some replaced) (hactive : pair.active = true)
      (hopen : r.closed = false) (hlive : rc.isTerminal = false) :
    Admission r conn rc (replaceActive { r with consumed } conn rc pair) true
  | undone (consumed : Table String ℕ) (pair : RelayDataPair) (peer : ℕ)
      (hpair : r.pairs.get? rc.reservationId = some pair) (hslot : pair.slot rc.role = none)
      (hother : pair.slot rc.role.other = some peer) :
    Admission r conn rc (undoPair (occupySlot { r with consumed } conn rc pair) conn peer rc) false
  | commits (consumed : Table String ℕ) (pair : RelayDataPair) (peer now : ℕ)
      (hpair : r.pairs.get? rc.reservationId = some pair) (hslot : pair.slot rc.role = none)
      (hother : pair.slot rc.role.other = some peer) (hquota : r.activePairs < r.maxSessions) :
    Admission r conn rc (commitPair (occupySlot { r with consumed } conn rc pair) conn peer rc
      (pair.setSlot rc.role (some conn)) now) true

section Admission

variable {pair : RelayDataPair}

theorem consumed_of_checkConsumed {now : ℕ}
    (h : checkConsumed r id now = some r') : ∃ consumed, r' = { r with consumed } := by
  unfold checkConsumed at h
  split at h
  · exact ⟨r.consumed, (Option.some.inj h).symm⟩
  · split_ifs at h
    · split at h
      · cases h
      · split_ifs at h
        exact ⟨r.consumed, (Option.some.inj h).symm⟩
    · exact ⟨_, (Option.some.inj h).symm⟩

theorem openPair_of_some {res : Reservation} (h : r.pairs.get? res.reservationId = some pair) :
    openPair r res = some (r, pair) := by
  rw [openPair, h]

theorem openPair_of_none {res : Reservation} (h : r.pairs.get? res.reservationId = none) :
    openPair r res = if r.maxSessions ≤ r.pendingPairs then none
      else some (r.newPairLocked res, .empty res) := by
  rw [openPair, h]

section

variable (consumed : Table String ℕ) (now : ℕ) (room peerRoom : Bool)
  (hpair : r.pairs.get? rc.reservationId = some pair) (hslot : pair.slot rc.role = none)

include hpair hslot

theorem admission_completePair {peer : ℕ}
    (hother : pair.slot rc.role.other = some peer) (hquota : r.activePairs < r.maxSessions) :
    let result := completePair (occupySlot { r with consumed } conn rc pair) conn peer rc
      (pair.setSlot rc.role (some conn)) now room peerRoom
    Admission r conn rc result.1 result.2 := by
  unfold completePair
  dsimp only
  split_ifs
  · exact .undone consumed pair peer hpair hslot hother
  · exact .commits consumed pair peer now hpair hslot hother hquota

theorem admission_joinPair :
    let result := joinPair { r with consumed } conn rc pair now room peerRoom
    Admission r conn rc result.1 result.2 := by
  unfold joinPair
  dsimp only
  split
  · rename_i hother
    exact .waits consumed pair hpair hslot hother
  · rename_i peer hother
    split_ifs with hfull hsize hsize
    · exact .refused consumed
    · grind [admission_completePair]
    · exact .refused _
    · exact admission_completePair _ now room peerRoom hpair hslot hother (not_le.mp hfull)

end

/-- **An admission takes one of its branches.** -/
theorem admission_admitEndpoint (hrc : r.conns.get? conn = some rc) (now : ℕ)
    (room peerRoom : Bool) :
    Admission (r.removeUpgradeLocked conn) conn rc (admitEndpoint r conn now room peerRoom).1
      (admitEndpoint r conn now room peerRoom).2 := by
  unfold admitEndpoint
  rw [hrc]
  dsimp only
  generalize r.removeUpgradeLocked conn = r
  split_ifs with hgone
  · exact .refused r.consumed
  simp only [Bool.or_eq_true, not_or, Bool.not_eq_true] at hgone
  rcases hcheck : checkConsumed r rc.reservationId now with _ | checked
  · exact .refused r.consumed
  obtain ⟨consumed, rfl⟩ := consumed_of_checkConsumed hcheck
  dsimp only
  rcases hpair : r.pairs.get? rc.reservationId with _ | pair
  · -- A new pair has both slots free, so the endpoint only waits in it.
    rw [openPair_of_none (r := { r with consumed }) hpair]
    split_ifs with hfull
    · exact .refused consumed
    · dsimp only
      rw [RelayDataPair.slot_empty]
      dsimp only [joinPair]
      rw [RelayDataPair.slot_empty]
      exact .opens consumed hpair (not_le.mp hfull)
  · rw [openPair_of_some (r := { r with consumed }) hpair]
    dsimp only
    rcases hslot : pair.slot rc.role with _ | replaced
    · grind [admission_joinPair]
    · rcases hactive : pair.active with _ | _
      · exact .replacesPending consumed pair replaced hpair hslot hactive
      · exact .replacesActive consumed pair replaced hpair hslot hactive hgone.1 hgone.2

end Admission

/-! ## The branches of a release -/

/-- **What a release does**, to a registry in which the endpoint holds no upgrade slot. -/
inductive Release (r : RelayDataRegistry) (conn : ℕ) (rc : RelayDataConn) :
    RelayDataRegistry → Prop
  | unseated (hfree : ∀ pair role, r.pairs.get? rc.reservationId = some pair →
      pair.slot role ≠ some conn) : Release r conn rc (r.removeDeviceRefLocked conn)
  | dissolves (pair : RelayDataPair) (role : RelayDataRole)
      (hpair : r.pairs.get? rc.reservationId = some pair) (hslot : pair.slot role = some conn)
      (hactive : pair.active = true) :
    Release r conn rc
      { r.detachLocked conn ((pair.without conn).initiator.or (pair.without conn).responder) with
        pairs := r.pairs.erase rc.reservationId
        activePairs := decrement r.activePairs }
  | empties (pair : RelayDataPair) (role : RelayDataRole)
      (hpair : r.pairs.get? rc.reservationId = some pair) (hslot : pair.slot role = some conn)
      (hactive : pair.active = false) (hempty : ∀ role, (pair.without conn).slot role = none) :
    Release r conn rc
      { r.detachLocked conn ((pair.without conn).initiator.or (pair.without conn).responder) with
        pairs := r.pairs.erase rc.reservationId
        pendingPairs := decrement r.pendingPairs }
  | leaves (pair : RelayDataPair) (role : RelayDataRole)
      (hpair : r.pairs.get? rc.reservationId = some pair) (hslot : pair.slot role = some conn)
      (hactive : pair.active = false) :
    Release r conn rc
      { r.detachLocked conn ((pair.without conn).initiator.or (pair.without conn).responder) with
        pairs := r.pairs.insert rc.reservationId (pair.without conn) }

/-- **A release takes one of its branches.** -/
theorem release_releaseEndpointLocked (hrc : r.conns.get? conn = some rc) :
    Release (r.removeUpgradeLocked conn) conn rc (releaseEndpointLocked r conn) := by
  unfold releaseEndpointLocked
  rw [hrc]
  dsimp only
  generalize r.removeUpgradeLocked conn = r
  rcases hpair : r.pairs.get? rc.reservationId with _ | pair
  · exact .unseated fun pair role h => nomatch hpair.symm.trans h
  dsimp only
  by_cases hin : pair.initiator = some conn ∨ pair.responder = some conn
  · rw [if_pos hin]
    obtain ⟨role, hslot⟩ : ∃ role, pair.slot role = some conn := by
      rcases hin with h | h
      exacts [⟨.initiator, h⟩, ⟨.responder, h⟩]
    rcases hactive : pair.active with _ | _
    · rw [if_neg Bool.false_ne_true]
      split_ifs with hempty
      · refine .empties pair role hpair hslot hactive ?_
        rintro (_ | _)
        exacts [hempty.1, hempty.2]
      · exact .leaves pair role hpair hslot hactive
    · exact .dissolves pair role hpair hslot hactive
  · rw [if_neg hin]
    refine .unseated fun pair' role h hslot => ?_
    cases hpair.symm.trans h
    cases role with
    | initiator => exact hin (.inl hslot)
    | responder => exact hin (.inr hslot)

theorem Release.within (h : Release r conn rc r') (hrc : r.conns.get? conn = some rc) :
    Within rc.reservationId r r' := by
  have hbelongs : Belongs r rc.reservationId conn := ⟨rc, hrc, rfl⟩
  have hdetach : ∀ other, Within rc.reservationId r (r.detachLocked conn other) :=
    fun _ => (refl r).detachLocked hbelongs
  cases h with
  | unseated => exact (refl r).removeDeviceRefLocked hbelongs
  | dissolves | empties => exact (hdetach _).erase rfl rfl rfl
  | leaves => exact (hdetach _).insert rfl rfl rfl

/-! ## Seats -/

/-- **An endpoint of the given reservation and role**, listed for its device. -/
structure Seat (r : RelayDataRegistry) (id : String) (role : RelayDataRole) (conn : ℕ) : Prop where
  endpoint : ∃ rc, r.conns.get? conn = some rc ∧ rc.reservationId = id ∧ rc.role = role
  listed : conn ∈ r.deviceRefs

/-- The slots of every pair hold endpoints of its reservation and of the slot's role. -/
def Seated (r : RelayDataRegistry) : Prop :=
  ∀ ⦃id pair role conn⦄, r.pairs.get? id = some pair → pair.slot role = some conn →
    Seat r id role conn

section Seats

variable {role : RelayDataRole} {ok : Bool}

theorem Seat.belongs (h : Seat r id role conn) : Belongs r id conn := by
  grind [endpoint, Belongs]

theorem Seat.grows (h : Seat r id role conn) (hgrows : Grows r r') (hmem : conn ∈ r'.deviceRefs) :
    Seat r' id role conn := by
  obtain ⟨rc, hrc, rfl, rfl⟩ := h.endpoint
  obtain ⟨rc', hrc', hlater⟩ := hgrows hrc
  exact ⟨⟨rc', hrc', hlater.reservationId, hlater.role⟩, hmem⟩

/-- An endpoint is seated at its own reservation and role only. -/
theorem Seat.unique {id' : String} {role' : RelayDataRole} (h : Seat r id role conn)
    (h' : Seat r id' role' conn) : id = id' ∧ role = role' := by
  grind [endpoint]

/-- Seats of other reservations are left alone. -/
theorem Seated.of_within (h : Seated r) (hwithin : Within id r r')
    (hslots : ∀ ⦃pair role conn⦄, r'.pairs.get? id = some pair → pair.slot role = some conn →
      Seat r' id role conn) : Seated r' := by
  intro other pair role conn hpair hslot
  by_cases heq : other = id
  · subst heq
    exact hslots hpair hslot
  · have hseat := h (hwithin.pairs heq ▸ hpair) hslot
    obtain ⟨rc, hrc, hid, _⟩ := hseat.endpoint
    exact hseat.grows hwithin.grows (hwithin.listed hrc (hid ▸ heq) hseat.listed)

theorem Seated.same (h : Seated r) (hpairs : r'.pairs = r.pairs) (hconns : r'.conns = r.conns)
    (hrefs : r'.deviceRefs = r.deviceRefs) : Seated r' := by
  intro id pair role conn hpair hslot
  rw [hpairs] at hpair
  have hseat := h hpair hslot
  exact hseat.grows (.of_conns hconns) (hrefs ▸ hseat.listed)

theorem Seated.modify (h : Seated r) (conn : ℕ)
    (hf : ∀ rc : RelayDataConn, rc.Later (f rc)) : Seated (r.modify conn f) :=
  fun _ _ _ _ hpair hslot =>
    (h hpair hslot).grows (grows_modify r conn hf) (h hpair hslot).listed

theorem Admission.within (h : Admission r conn rc r' ok) (hrc : r.conns.get? conn = some rc)
    (hseated : Seated r) : Within rc.reservationId r r' := by
  have hbelongs : Belongs r rc.reservationId conn := ⟨rc, hrc, rfl⟩
  have hpruned : ∀ consumed, Within rc.reservationId r { r with consumed } :=
    fun consumed => (refl r).same rfl rfl rfl
  have hoccupy : ∀ consumed pair,
      Within rc.reservationId r (occupySlot { r with consumed } conn rc pair) :=
    fun consumed pair => addDeviceRefLocked ((hpruned consumed).insert rfl rfl rfl)
  cases h with
  | refused consumed => exact hpruned consumed
  | opens consumed =>
    have hnew : Within rc.reservationId r ({ r with consumed }.newPairLocked rc.res) :=
      (hpruned consumed).insert rfl rfl rfl
    exact addDeviceRefLocked (hnew.insert rfl rfl rfl)
  | waits consumed pair => exact hoccupy consumed pair
  | replacesPending consumed pair replaced hpair hslot =>
    refine addDeviceRefLocked (displaceLocked ?_ (hseated hpair hslot).belongs)
    exact (hpruned consumed).insert rfl rfl rfl
  | replacesActive consumed pair replaced hpair =>
    refine addDeviceRefLocked (insert (displacePeerLocked
      (displacePeerLocked (hpruned consumed) ?_) ?_) rfl rfl rfl)
    · intro other hother
      exact (show Seat r _ .initiator other from hseated hpair hother).belongs
    · intro other hother
      exact (show Seat r _ .responder other from hseated hpair hother).belongs
  | undone consumed pair peer hpair hslot hother =>
    refine displaceLocked (displaceLocked ?_ hbelongs) (hseated hpair hother).belongs
    exact (hoccupy consumed pair).erase rfl rfl rfl
  | commits consumed pair peer now =>
    refine modify (modify ?_ (fun rc => rc.later_commit peer))
      (fun rc => rc.later_commit conn)
    exact (hoccupy consumed pair).insert rfl rfl rfl

end Seats

/-! ## The moves of the registry -/

/-- Neither pairs nor endpoints change, and leases come of requests. -/
structure Idle (r r' : RelayDataRegistry) : Prop where
  conns : r'.conns = r.conns
  pairs : r'.pairs = r.pairs
  deviceRefs : r'.deviceRefs = r.deviceRefs
  pendingPairs : r'.pendingPairs = r.pendingPairs
  maxSessions : r'.maxSessions = r.maxSessions
  maxUpgrades : r'.maxUpgrades = r.maxUpgrades
  requests : ∀ ⦃request upgrade⦄, r'.requests.get? request = some upgrade →
    r.requests.get? request = some upgrade
  leases : ∀ ⦃lease upgrade⦄, r'.upgradeLeases.get? lease = some upgrade →
    r.upgradeLeases.get? lease = some upgrade ∨ r.requests.get? lease = some upgrade

theorem Idle.refl (r : RelayDataRegistry) : Idle r r :=
  ⟨rfl, rfl, rfl, rfl, rfl, rfl, fun _ _ h => h, fun _ _ h => .inl h⟩

theorem Idle.trans (h : Idle r r') (h' : Idle r' r'') :
    Idle r r'' := by
  refine ⟨h'.conns.trans h.conns, h'.pairs.trans h.pairs, h'.deviceRefs.trans h.deviceRefs,
    h'.pendingPairs.trans h.pendingPairs, h'.maxSessions.trans h.maxSessions,
    h'.maxUpgrades.trans h.maxUpgrades, fun _ _ hrequest => h.requests (h'.requests hrequest), ?_⟩
  intro lease upgrade hlease
  rcases h'.leases hlease with hlease | hrequest
  · exact h.leases hlease
  · exact .inr (h.requests hrequest)

theorem Idle.seated (h : Idle r r') (hseated : Seated r) : Seated r' :=
  hseated.same h.pairs h.conns h.deviceRefs

theorem idle_removeUpgradeLocked (r : RelayDataRegistry) (conn : ℕ) :
    Idle r (r.removeUpgradeLocked conn) := by
  unfold RelayDataRegistry.removeUpgradeLocked
  split_ifs <;> exact ⟨rfl, rfl, rfl, rfl, rfl, rfl, fun _ _ h => h, fun _ _ h => .inl h⟩

theorem idle_invalidateUpgradeLeaseLocked (r : RelayDataRegistry) (lease : ℕ) :
    Idle r (r.invalidateUpgradeLeaseLocked lease) := by
  unfold RelayDataRegistry.invalidateUpgradeLeaseLocked
  split
  · exact .refl r
  · refine ⟨rfl, rfl, rfl, rfl, rfl, rfl, fun _ _ h => h, ?_⟩
    grind

theorem idle_invalidated (r : RelayDataRegistry) (leases : List ℕ) :
    Idle r (leases.foldl RelayDataRegistry.invalidateUpgradeLeaseLocked r) :=
  List.foldlRecOn leases _ (.refl r)
    fun r' h lease _ => h.trans (idle_invalidateUpgradeLeaseLocked r' lease)

theorem idle_beginUpgrade (r : RelayDataRegistry) (request : ℕ) :
    Idle r (beginUpgrade r request) := by
  unfold beginUpgrade
  split
  · exact .refl r
  · split_ifs
    · exact .refl r
    · exact .refl r
    · refine ⟨rfl, rfl, rfl, rfl, rfl, rfl, ?_, ?_⟩
      · grind
      · grind

/-- The endpoint's first frame has come. -/
def RelayDataConn.connect (rc : RelayDataConn) : RelayDataConn := { rc with connected := true }

/-- **What a step does to pairs and endpoints.** -/
inductive Move (r : RelayDataRegistry) :
    RegistryOp → RelayDataRegistry → RegistryOutput → Prop
  | idle {op : RegistryOp} {r' : RelayDataRegistry} (h : Idle r r') : Move r op r' .done
  | authorizes (deviceId : String) (generation : ℤ) (reservationId : String)
      (stored : Except Unit (Option Reservation)) (queryToken : Bool) (header : Option Bytes)
      {res : Reservation} {role : RelayDataRole}
      (h : relayDataAdmissionAuthorize r deviceId reservationId stored queryToken header =
        some (res, role)) :
    Move r (.authorize deviceId generation reservationId stored queryToken header)
      { r with
        requests := r.requests.insert r.nextRequest ⟨deviceId, generation, res, role⟩
        nextRequest := r.nextRequest + 1 } .done
  | stages (lease : ℕ) : Move r (.stageEndpoint lease) (stageEndpoint r lease) .done
  | pumps {op : RegistryOp} (conn : ℕ) (f : RelayDataConn → RelayDataConn)
      (hf : ∀ rc : RelayDataConn, rc.Later (f rc)) : Move r op (r.modify conn f) .done
  | rejects (conn : ℕ) (reservationId : String) (localToken : Bytes) (now : ℕ)
      (room peerRoom : Bool) :
    Move r (.connect conn reservationId localToken now room peerRoom)
      (r.modify conn RelayDataConn.connect) (.admitted false)
  | admits (conn : ℕ) (reservationId : String) (localToken : Bytes) (now : ℕ)
      (room peerRoom : Bool) {rc : RelayDataConn} {r' : RelayDataRegistry} {ok : Bool}
      (hrc : r.conns.get? conn = some rc) (hactivated : rc.activated = true)
      (hfirst : rc.connected = false)
      (haccept : rc.acceptConnect reservationId localToken = true)
      (h : Admission ((r.modify conn RelayDataConn.connect).removeUpgradeLocked conn) conn
        rc.connect r' ok) :
    Move r (.connect conn reservationId localToken now room peerRoom) r' (.admitted ok)
  | forwards (conn : ℕ) (room : Bool) {other : ℕ} (h : forwardEndpoint r conn room = some other) :
    Move r (.forward conn room) r (.enqueued conn other)
  | releases (conn : ℕ) (f : RelayDataConn → RelayDataConn)
      (hf : ∀ rc : RelayDataConn, rc.Later (f rc)) :
    Move r (.release conn) (releaseEndpoint (r.modify conn f) conn) .done
  | closes {op : RegistryOp} {base : RelayDataRegistry} (hbase : Idle r base) (targets : Finset ℕ)
      (order : List ℕ) : Move r op (closeTargets base targets order) .done

theorem move_connect (r : RelayDataRegistry) (conn : ℕ) (reservationId : String)
    (localToken : Bytes) (now : ℕ) (room peerRoom : Bool) :
    let op := RegistryOp.connect conn reservationId localToken now room peerRoom
    Move r op (registryStep r op).1 (registryStep r op).2 := by
  dsimp only [registryStep]
  rcases hrc : r.conns.get? conn with _ | rc
  · exact .idle (.refl r)
  dsimp only
  split_ifs with hlate hreject
  · exact .idle (.refl r)
  · exact .rejects conn reservationId localToken now room peerRoom
  · simp only [Bool.or_eq_true, Bool.not_eq_true', not_or, Bool.not_eq_true,
      Bool.not_eq_false] at hlate hreject
    have hrc' : (r.modify conn connect).conns.get? conn = some rc.connect := by
      grind [RelayDataRegistry.get?_modify]
    exact .admits conn reservationId localToken now room peerRoom hrc hlate.1 hlate.2 hreject
      (admission_admitEndpoint hrc' now room peerRoom)

/-- **Every step is a move.** -/
theorem move_registryStep (r : RelayDataRegistry) (op : RegistryOp) :
    Move r op (registryStep r op).1 (registryStep r op).2 := by
  cases op with
  | authorize deviceId generation reservationId stored queryToken header =>
    dsimp only [registryStep]
    split
    · exact .idle (.refl r)
    · rename_i res role hauthorize
      exact .authorizes deviceId generation reservationId stored queryToken header hauthorize
  | beginUpgrade request => exact .idle (idle_beginUpgrade r request)
  | releaseLease lease => exact .idle (idle_invalidateUpgradeLeaseLocked r lease)
  | stageEndpoint lease => exact .stages lease
  | activateEndpoint conn =>
    dsimp only [registryStep, activateEndpoint]
    split_ifs
    · exact .pumps conn _ fun _ => ⟨rfl, rfl, rfl, fun h => h⟩
    · exact .idle (.refl r)
  | connect conn reservationId localToken now room peerRoom =>
    grind [move_connect]
  | forward conn room =>
    dsimp only [registryStep]
    split
    · exact .idle (.refl r)
    · split_ifs
      · exact .idle (.refl r)
      · split
        · exact .idle (.refl r)
        · rename_i other hforward
          exact .forwards conn room hforward
  | release conn => exact .releases conn _ fun _ => ⟨rfl, rfl, rfl, fun h => h⟩
  | pumpsDone conn =>
    dsimp only [registryStep]
    split_ifs
    · exact .idle ⟨rfl, rfl, rfl, rfl, rfl, rfl, fun _ _ h => h, fun _ _ h => .inl h⟩
    · exact .idle (.refl r)
  | closeDevice deviceId cutoff order => exact .closes (idle_invalidated r _) _ order
  | closeAll order =>
    dsimp only [registryStep, closeAll]
    split_ifs
    · exact .idle (.refl r)
    · refine .closes (Idle.trans ?_ (idle_invalidated { r with closed := true } _)) _ order
      exact ⟨rfl, rfl, rfl, rfl, rfl, rfl, fun _ _ h => h, fun _ _ h => .inl h⟩
  | markTerminal conn => exact .pumps conn _ fun _ => ⟨rfl, rfl, rfl, fun _ => rfl⟩
  | clearFlags conn | closeDone conn | writePairReady conn =>
    refine .pumps conn _ fun rc => ?_
    split_ifs
    exacts [⟨rfl, rfl, rfl, fun h => h⟩, .refl rc]

end SshMobile.Server
