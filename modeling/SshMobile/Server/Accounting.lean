import SshMobile.Server.Pairing

/-!
# The accounts of the data registry

Counters are adjusted where pairs are created, activated, replaced and deleted, and where upgrade
slots are taken and given back. They are compared here with the maps they count, in every state
that any interleaving reaches.

## Main definitions

* `Counts`, `Upgrades`: the counters of pairs and of upgrade slots
* `Accounts`: the invariant of the registry
* `Audited`: what the counters and maps are to say

## Main results

* `Accounts.step`: every step keeps the accounts
* `registry_accounts`: they are right in every reachable state
-/

namespace SshMobile.Server

open Library

/-! ## Counting pairs -/

namespace RelayDataRegistry

/-- The number of pairs that are not active. -/
def inactiveCount (r : RelayDataRegistry) : ℕ :=
  r.pairs.sumBy fun _ pair => if pair.active then 0 else 1

def activeCount (r : RelayDataRegistry) : ℕ :=
  r.pairs.sumBy fun _ pair => if pair.active then 1 else 0

end RelayDataRegistry

/-- The counters of pairs. -/
structure Counts (r : RelayDataRegistry) : Prop where
  pending : r.pendingPairs = r.inactiveCount
  active : r.activePairs = r.activeCount
  quota : r.activePairs ≤ r.maxSessions

theorem decrement_of_pos {count : ℤ} (h : 0 < count) : decrement count = count - 1 := if_pos h

variable {r r' : RelayDataRegistry}

section Counts

variable {id : String} {old : RelayDataPair}

theorem counts_insert (hold : r.pairs.get? id = some old) (new : RelayDataPair)
    (hpairs : r'.pairs = r.pairs.insert id new) :
    (r'.inactiveCount + (if old.active then 0 else 1) =
      r.inactiveCount + if new.active then 0 else 1) ∧
      r'.activeCount + (if old.active then 1 else 0) =
        r.activeCount + if new.active then 1 else 0 := by
  rw [RelayDataRegistry.inactiveCount, RelayDataRegistry.activeCount, hpairs]
  exact ⟨Table.sumBy_insert_of_some hold, Table.sumBy_insert_of_some hold⟩

theorem counts_erase (hold : r.pairs.get? id = some old) (hpairs : r'.pairs = r.pairs.erase id) :
    r'.inactiveCount + (if old.active then 0 else 1) = r.inactiveCount ∧
      r'.activeCount + (if old.active then 1 else 0) = r.activeCount := by
  rw [RelayDataRegistry.inactiveCount, RelayDataRegistry.activeCount, hpairs]
  exact ⟨Table.sumBy_erase hold, Table.sumBy_erase hold⟩

variable {new : RelayDataPair}

/-- A new pair is pending. -/
theorem Counts.open (h : Counts r) (hnone : r.pairs.get? id = none) (hnew : new.active = false)
    (hpairs : r'.pairs = r.pairs.insert id new) (hpending : r'.pendingPairs = r.pendingPairs + 1)
    (hactive : r'.activePairs = r.activePairs) (hmax : r'.maxSessions = r.maxSessions) :
    Counts r' := by
  have hin : r'.inactiveCount = r.inactiveCount + 1 := by
    grind [RelayDataRegistry.inactiveCount, Table.sumBy_insert]
  have hac : r'.activeCount = r.activeCount := by
    grind [RelayDataRegistry.activeCount, Table.sumBy_insert]
  obtain ⟨h₁, h₂, h₃⟩ := h
  exact ⟨by omega, by omega, by omega⟩

section

variable (h : Counts r) (hold : r.pairs.get? id = some old)
  (hmax : r'.maxSessions = r.maxSessions)

include h hold hmax

/-- A pair is put back as active as it was. -/
theorem Counts.keep (hnew : new.active = old.active) (hpairs : r'.pairs = r.pairs.insert id new)
    (hpending : r'.pendingPairs = r.pendingPairs) (hactive : r'.activePairs = r.activePairs) :
    Counts r' := by
  obtain ⟨hin, hac⟩ := counts_insert hold new hpairs
  rw [hnew] at hin hac
  obtain ⟨h₁, h₂, h₃⟩ := h
  exact ⟨by omega, by omega, by omega⟩

/-- A pending pair becomes active, within the quota. -/
theorem Counts.activate (hinactive : old.active = false) (hnew : new.active = true)
    (hquota : r.activePairs < r.maxSessions) (hpairs : r'.pairs = r.pairs.insert id new)
    (hpending : r'.pendingPairs = r.pendingPairs - 1)
    (hactive : r'.activePairs = r.activePairs + 1) : Counts r' := by
  obtain ⟨hin, hac⟩ := counts_insert hold new hpairs
  simp only [hinactive, hnew, Bool.false_eq_true, if_true, if_false] at hin hac
  obtain ⟨h₁, h₂, h₃⟩ := h
  exact ⟨by omega, by omega, by omega⟩

/-- An active pair becomes pending again. -/
theorem Counts.deactivate (hwas : old.active = true) (hnew : new.active = false)
    (hpairs : r'.pairs = r.pairs.insert id new) (hpending : r'.pendingPairs = r.pendingPairs + 1)
    (hactive : r'.activePairs = decrement r.activePairs) : Counts r' := by
  obtain ⟨hin, hac⟩ := counts_insert hold new hpairs
  simp only [hwas, hnew, Bool.false_eq_true, if_true, if_false] at hin hac
  obtain ⟨h₁, h₂, h₃⟩ := h
  rw [decrement_of_pos (by omega)] at hactive
  exact ⟨by omega, by omega, by omega⟩

theorem Counts.eraseActive (hwas : old.active = true) (hpairs : r'.pairs = r.pairs.erase id)
    (hpending : r'.pendingPairs = r.pendingPairs)
    (hactive : r'.activePairs = decrement r.activePairs) : Counts r' := by
  obtain ⟨hin, hac⟩ := counts_erase hold hpairs
  simp only [hwas, if_true] at hin hac
  obtain ⟨h₁, h₂, h₃⟩ := h
  rw [decrement_of_pos (by omega)] at hactive
  exact ⟨by omega, by omega, by omega⟩

theorem Counts.erasePending (hwas : old.active = false) (hpairs : r'.pairs = r.pairs.erase id)
    (hpending : r'.pendingPairs = decrement r.pendingPairs)
    (hactive : r'.activePairs = r.activePairs) : Counts r' := by
  obtain ⟨hin, hac⟩ := counts_erase hold hpairs
  simp only [hwas, Bool.false_eq_true, if_false] at hin hac
  obtain ⟨h₁, h₂, h₃⟩ := h
  rw [decrement_of_pos (by omega)] at hpending
  exact ⟨by omega, by omega, by omega⟩

end

/-- Nothing about pairs changes. -/
theorem Counts.same (h : Counts r) (hpairs : r'.pairs = r.pairs)
    (hpending : r'.pendingPairs = r.pendingPairs) (hactive : r'.activePairs = r.activePairs)
    (hmax : r'.maxSessions = r.maxSessions) : Counts r' := by
  obtain ⟨h₁, h₂, h₃⟩ := h
  refine ⟨?_, ?_, ?_⟩
  · grind [RelayDataRegistry.inactiveCount]
  · grind [RelayDataRegistry.activeCount]
  · rwa [hactive, hmax]

end Counts

/-! ## Upgrade slots -/

/-- The counter of upgrade slots; leases and endpoints have numbers of their own. -/
structure Upgrades (r : RelayDataRegistry) : Prop where
  slots : r.upgradeSlots = (r.upgradeLeases.size : ℤ) + r.upgradeRefs.card
  quota : r.upgradeSlots = 0 ∨ r.upgradeSlots ≤ r.maxUpgrades
  staged : ∀ conn ∈ r.upgradeRefs, conn < r.nextConn
  leased : ∀ lease upgrade, r.upgradeLeases.get? lease = some upgrade → lease < r.nextRequest
  requested : ∀ request upgrade, r.requests.get? request = some upgrade →
    request < r.nextRequest ∧ r.upgradeLeases.get? request = none

namespace Upgrades

section

variable (h : Upgrades r)

include h

theorem same (hslots : r'.upgradeSlots = r.upgradeSlots) (hmax : r'.maxUpgrades = r.maxUpgrades)
    (hleases : r'.upgradeLeases = r.upgradeLeases) (hrefs : r'.upgradeRefs = r.upgradeRefs)
    (hnext : r'.nextConn = r.nextConn) (hrequests : r'.requests = r.requests)
    (hnextRequest : r'.nextRequest = r.nextRequest) :
    Upgrades r' := by
  obtain ⟨h₁, h₂, h₃, h₄, h₅⟩ := h
  exact ⟨by rw [hslots, hleases, hrefs, h₁], by rwa [hslots, hmax], by rwa [hrefs, hnext],
    by rwa [hleases, hnextRequest], by rwa [hrequests, hnextRequest, hleases]⟩

theorem removeUpgradeLocked (conn : ℕ) :
    Upgrades (r.removeUpgradeLocked conn) := by
  unfold RelayDataRegistry.removeUpgradeLocked
  split_ifs with hmem
  · have hcard := Finset.card_erase_add_one hmem
    obtain ⟨h₁, h₂, h₃, h₄, h₅⟩ := h
    have hpos : decrement r.upgradeSlots = r.upgradeSlots - 1 := decrement_of_pos (by omega)
    refine ⟨?_, ?_, fun other hother => h₃ other (Finset.mem_of_mem_erase hother), h₄, h₅⟩
    · simp only [hpos]
      omega
    · simp only [hpos]
      omega
  · exact h

theorem invalidateUpgradeLeaseLocked (lease : ℕ) :
    Upgrades (r.invalidateUpgradeLeaseLocked lease) := by
  unfold RelayDataRegistry.invalidateUpgradeLeaseLocked
  split
  · exact h
  · rename_i upgrade hlease
    have hsize := Table.size_erase_of_some hlease
    obtain ⟨h₁, h₂, h₃, h₄, h₅⟩ := h
    have hpos : decrement r.upgradeSlots = r.upgradeSlots - 1 := decrement_of_pos (by omega)
    refine ⟨?_, ?_, h₃, ?_, ?_⟩
    · simp only [hpos]
      omega
    · simp only [hpos]
      omega
    · grind
    · grind

theorem beginUpgrade (request : ℕ) : Upgrades (beginUpgrade r request) := by
  unfold Server.beginUpgrade
  split
  · exact h
  · rename_i upgrade hrequest
    split_ifs with hclosed hfull
    · exact h
    · exact h
    · obtain ⟨h₁, h₂, h₃, h₄, h₅⟩ := h
      obtain ⟨hlt, hnone⟩ := h₅ request upgrade hrequest
      have hsize := Table.size_insert_of_none (v := upgrade) hnone
      refine ⟨?_, ?_, h₃, ?_, ?_⟩
      · simp only
        omega
      · simp only
        omega
      · grind
      · grind

theorem stageEndpoint (lease : ℕ) : Upgrades (stageEndpoint r lease) := by
  unfold Server.stageEndpoint
  split
  · exact h
  · rename_i upgrade hlease
    split_ifs
    · exact h
    · have hsize := Table.size_erase_of_some hlease
      obtain ⟨h₁, h₂, h₃, h₄, h₅⟩ := h
      have hnew : r.nextConn ∉ r.upgradeRefs := fun hmem => lt_irrefl _ (h₃ _ hmem)
      have hcard := Finset.card_insert_of_notMem hnew
      refine ⟨?_, h₂, ?_, ?_, ?_⟩
      · simp only
        omega
      · grind
      · grind
      · grind

theorem request (upgrade : UpgradeRequest) :
    Upgrades { r with
      requests := r.requests.insert r.nextRequest upgrade
      nextRequest := r.nextRequest + 1 } := by
  obtain ⟨h₁, h₂, h₃, h₄, h₅⟩ := h
  refine ⟨h₁, h₂, h₃, fun lease other hlease => Nat.lt_succ_of_lt (h₄ lease other hlease), ?_⟩
  intro request other hrequest
  simp only [Table.get?_insert] at hrequest
  split_ifs at hrequest with heq
  · subst heq
    refine ⟨Nat.lt_succ_self _, ?_⟩
    rcases hlease : r.upgradeLeases.get? r.nextRequest with _ | other
    · rfl
    · grind
  · grind

end

end Upgrades

/-! ## Admission -/

/-- An active pair has both of its endpoints. -/
def Filled (r : RelayDataRegistry) : Prop :=
  ∀ ⦃id pair⦄, r.pairs.get? id = some pair → pair.active = true → ∀ role, (pair.slot role).isSome

theorem Filled.of_within {id : String} (h : Filled r)
    (hwithin : Within id r r') (hpair : ∀ ⦃pair⦄, r'.pairs.get? id = some pair →
      pair.active = true → ∀ role, (pair.slot role).isSome) : Filled r' := by
  intro other pair hget hactive
  by_cases heq : other = id
  · subst heq
    exact hpair hget hactive
  · exact h (hwithin.pairs heq ▸ hget) hactive

/-- A pair with a free slot is pending. -/
theorem Filled.inactive {id : String} {pair : RelayDataPair}
    {role : RelayDataRole} (h : Filled r) (hpair : r.pairs.get? id = some pair)
    (hslot : pair.slot role = none) : pair.active = false := by
  rcases hactive : pair.active with _ | _
  · rfl
  · have hsome := h hpair hactive role
    rw [hslot] at hsome
    cases hsome

open RelayDataPair

variable {conn : ℕ} {rc : RelayDataConn}

namespace Admission

variable {ok : Bool}

section

variable (h : Admission r conn rc r' ok)

include h

theorem counts (hcounts : Counts r) (hfilled : Filled r) :
    Counts r' := by
  have hoccupy : ∀ {pair : RelayDataPair} (consumed),
      r.pairs.get? rc.reservationId = some pair →
        Counts (occupySlot { r with consumed } conn rc pair) :=
    fun consumed hpair => hcounts.keep hpair rfl (active_setSlot ..) rfl rfl rfl
  cases h with
  | refused consumed => exact hcounts.same rfl rfl rfl rfl
  | opens consumed hnone =>
    have hnew : Counts ({ r with consumed }.newPairLocked rc.res) :=
      hcounts.open hnone rfl rfl rfl rfl rfl
    exact hnew.keep (Table.get?_insert_self ..) rfl (active_setSlot ..) rfl rfl rfl
  | waits consumed pair hpair => exact hoccupy consumed hpair
  | replacesPending consumed pair replaced hpair =>
    refine hcounts.keep hpair rfl ?_ rfl rfl rfl
    simp
  | replacesActive consumed pair replaced hpair hslot hactive =>
    exact hcounts.deactivate hpair rfl hactive (active_setSlot ..) rfl rfl rfl
  | undone consumed pair peer hpair hslot =>
    refine (hoccupy consumed hpair).erasePending (Table.get?_insert_self ..) rfl ?_ rfl rfl rfl
    rw [active_setSlot]
    exact hfilled.inactive hpair hslot
  | commits consumed pair peer now hpair hslot hother hquota =>
    refine (hoccupy consumed hpair).activate (Table.get?_insert_self ..) rfl ?_ rfl hquota rfl rfl
      rfl
    rw [active_setSlot]
    exact hfilled.inactive hpair hslot

theorem upgrades (hupgrades : Upgrades r) : Upgrades r' := by
  cases h <;> exact hupgrades.same rfl rfl rfl rfl rfl rfl rfl

theorem nextConn_eq : r'.nextConn = r.nextConn := by
  cases h <;> rfl

theorem maxUpgrades_eq : r'.maxUpgrades = r.maxUpgrades := by
  cases h <;> rfl

end

/-- The slots of a pair that `conn` has joined. -/
theorem seated_of_setSlot {pair : RelayDataPair} (hrc : r.conns.get? conn = some rc)
    (hgrows : Grows r r') (hmem : conn ∈ r'.deviceRefs)
    (hseats : ∀ role other, role ≠ rc.role → pair.slot role = some other →
      Seat r rc.reservationId role other ∧ other ∈ r'.deviceRefs)
    {role : RelayDataRole} {other : ℕ}
    (hslot : (pair.setSlot rc.role (some conn)).slot role = some other) :
    Seat r' rc.reservationId role other := by
  rw [slot_setSlot] at hslot
  split_ifs at hslot with hrole
  · cases hslot
    subst hrole
    obtain ⟨rc', hrc', hlater⟩ := hgrows hrc
    exact ⟨⟨rc', hrc', hlater.reservationId, hlater.role⟩, hmem⟩
  · obtain ⟨hseat, hother⟩ := hseats role other hrole hslot
    exact hseat.grows hgrows hother

section

variable (h : Admission r conn rc r' ok) (hrc : r.conns.get? conn = some rc) (hseated : Seated r)

include h hrc hseated

theorem seated : Seated r' := by
  have hwithin := h.within hrc hseated
  have hgrows := hwithin.grows
  refine hseated.of_within hwithin ?_
  intro pair' role other hpair' hslot'
  cases h with
  | refused consumed =>
    have hseat := hseated hpair' hslot'
    exact hseat.grows hgrows hseat.listed
  | opens consumed =>
    cases (Table.get?_insert_self ..).symm.trans hpair'
    refine seated_of_setSlot hrc hgrows (Finset.mem_insert_self ..) ?_ hslot'
    simp
  | replacesPending consumed pair replaced hpair hslot =>
    cases (Table.get?_insert_self ..).symm.trans hpair'
    refine seated_of_setSlot hrc hgrows (Finset.mem_insert_self ..) ?_
      ((slot_congr rfl rfl role).trans hslot')
    intro role other hrole hother
    have hseat := hseated hpair hother
    refine ⟨hseat, Finset.mem_insert_of_mem (Finset.mem_erase.mpr ⟨?_, hseat.listed⟩)⟩
    rintro rfl
    exact hrole (hseat.unique (hseated hpair hslot)).2
  | replacesActive consumed pair replaced hpair =>
    cases (Table.get?_insert_self ..).symm.trans hpair'
    refine seated_of_setSlot hrc hgrows (Finset.mem_insert_self ..) ?_ hslot'
    rintro (_ | _) other _ hslot <;> cases hslot
  | undone consumed pair peer =>
    cases (Table.get?_erase_self ..).symm.trans hpair'
  | waits consumed pair hpair | commits consumed pair peer now hpair =>
    cases (Table.get?_insert_self ..).symm.trans hpair'
    refine seated_of_setSlot hrc hgrows (Finset.mem_insert_self ..) ?_
      ((slot_congr rfl rfl role).trans hslot')
    intro role other _ hslot
    have hseat := hseated hpair hslot
    exact ⟨hseat, Finset.mem_insert_of_mem hseat.listed⟩

theorem filled (hfilled : Filled r) : Filled r' := by
  refine hfilled.of_within (h.within hrc hseated) ?_
  intro pair' hpair' hactive' role
  cases h with
  | refused consumed => exact hfilled hpair' hactive' role
  | opens consumed =>
    cases (Table.get?_insert_self ..).symm.trans hpair'
    rw [active_setSlot] at hactive'
    cases hactive'
  | waits consumed pair hpair hslot =>
    cases (Table.get?_insert_self ..).symm.trans hpair'
    rw [active_setSlot, hfilled.inactive hpair hslot] at hactive'
    cases hactive'
  | replacesPending consumed pair replaced hpair hslot hactive
  | replacesActive consumed pair replaced hpair =>
    cases (Table.get?_insert_self ..).symm.trans hpair'
    simp_all
  | undone consumed pair peer =>
    cases (Table.get?_erase_self ..).symm.trans hpair'
  | commits consumed pair peer now hpair hslot hother =>
    cases (Table.get?_insert_self ..).symm.trans hpair'
    change ((pair.setSlot rc.role (some conn)).slot role).isSome = true
    rw [slot_setSlot]
    split_ifs with hrole
    · rfl
    · have : role = rc.role.other := by
        revert hrole
        cases role <;> cases rc.role <;> decide
      rw [this, hother]
      rfl

end

end Admission

/-! ## Release -/

namespace Release

section

variable (h : Release r conn rc r')

include h

theorem counts (hcounts : Counts r) : Counts r' := by
  cases h with
  | unseated => exact hcounts.same rfl rfl rfl rfl
  | dissolves pair role hpair hslot hactive =>
    exact hcounts.eraseActive hpair rfl hactive rfl rfl rfl
  | empties pair role hpair hslot hactive =>
    exact hcounts.erasePending hpair rfl hactive rfl rfl rfl
  | leaves pair role hpair =>
    refine hcounts.keep hpair rfl ?_ rfl rfl rfl
    rfl

theorem upgrades (hupgrades : Upgrades r) : Upgrades r' := by
  cases h <;> exact hupgrades.same rfl rfl rfl rfl rfl rfl rfl

theorem nextConn_eq : r'.nextConn = r.nextConn := by
  cases h <;> rfl

theorem maxUpgrades_eq : r'.maxUpgrades = r.maxUpgrades := by
  cases h <;> rfl

theorem seated (hrc : r.conns.get? conn = some rc) (hseated : Seated r) : Seated r' := by
  have hwithin := h.within hrc
  have hgrows := hwithin.grows
  -- Another endpoint of the same pair stays listed.
  have hstays : ∀ {pair role other}, r.pairs.get? rc.reservationId = some pair →
      pair.slot role = some other → other ≠ conn → other ∈ r.deviceRefs.erase conn :=
    fun hpair hslot hne => Finset.mem_erase.mpr ⟨hne, (hseated hpair hslot).listed⟩
  refine hseated.of_within hwithin ?_
  intro pair' role' other hpair' hslot'
  cases h with
  | unseated hfree =>
    refine (hseated hpair' hslot').grows hgrows (hstays hpair' hslot' ?_)
    rintro rfl
    exact hfree pair' role' hpair' hslot'
  | dissolves | empties => simp_all
  | leaves pair role hpair =>
    cases (Table.get?_insert_self ..).symm.trans hpair'
    rw [RelayDataPair.slot_without] at hslot'
    split_ifs at hslot' with heq
    refine (hseated hpair hslot').grows hgrows (hstays hpair hslot' ?_)
    rintro rfl
    exact heq hslot'

theorem filled (hrc : r.conns.get? conn = some rc) (hfilled : Filled r) : Filled r' := by
  refine hfilled.of_within (h.within hrc) ?_
  intro pair' hpair' hactive' role'
  cases h with
  | unseated => exact hfilled hpair' hactive' role'
  | dissolves | empties => simp_all
  | leaves pair role hpair hslot hactive =>
    cases (Table.get?_insert_self ..).symm.trans hpair'
    cases hactive.symm.trans hactive'

end

end Release

/-! ## The accounts -/

/-- **The accounts of the registry**; endpoints have numbers below the next one. -/
structure Accounts (r : RelayDataRegistry) : Prop where
  counts : Counts r
  upgrades : Upgrades r
  seated : Seated r
  filled : Filled r
  fresh : ∀ ⦃conn rc⦄, r.conns.get? conn = some rc → conn < r.nextConn

namespace Accounts

section

variable (h : Accounts r)

include h

/-- Neither pairs nor endpoints change. -/
theorem same (hupgrades : Upgrades r') (hpairs : r'.pairs = r.pairs)
    (hpending : r'.pendingPairs = r.pendingPairs) (hactive : r'.activePairs = r.activePairs)
    (hmax : r'.maxSessions = r.maxSessions) (hconns : r'.conns = r.conns)
    (hrefs : r'.deviceRefs = r.deviceRefs) (hnext : r'.nextConn = r.nextConn) : Accounts r' where
  counts := h.counts.same hpairs hpending hactive hmax
  upgrades := hupgrades
  seated := h.seated.same hpairs hconns hrefs
  filled := by
    unfold Filled
    rw [hpairs]
    exact h.filled
  fresh := by
    rw [hconns, hnext]
    exact h.fresh

theorem modify (conn : ℕ) {f : RelayDataConn → RelayDataConn}
    (hf : ∀ rc : RelayDataConn, rc.Later (f rc)) : Accounts (r.modify conn f) where
  counts := h.counts.same rfl rfl rfl rfl
  upgrades := h.upgrades.same rfl rfl rfl rfl rfl rfl rfl
  seated := h.seated.modify conn hf
  filled := h.filled
  fresh := by
    intro other rc hrc
    rw [RelayDataRegistry.get?_modify, Option.map_eq_some_iff] at hrc
    obtain ⟨rc', hrc', _⟩ := hrc
    exact h.fresh hrc'

theorem removeUpgradeLocked (conn : ℕ) :
    Accounts (r.removeUpgradeLocked conn) := by
  have hupgrades := h.upgrades.removeUpgradeLocked conn
  unfold RelayDataRegistry.removeUpgradeLocked at hupgrades ⊢
  split_ifs at hupgrades ⊢
  · exact h.same hupgrades rfl rfl rfl rfl rfl rfl rfl
  · exact h

theorem invalidateUpgradeLeaseLocked (lease : ℕ) :
    Accounts (r.invalidateUpgradeLeaseLocked lease) := by
  have hupgrades := h.upgrades.invalidateUpgradeLeaseLocked lease
  unfold RelayDataRegistry.invalidateUpgradeLeaseLocked at hupgrades ⊢
  split at hupgrades
  · exact h
  · exact h.same hupgrades rfl rfl rfl rfl rfl rfl rfl

/-- A staged endpoint has a number that no other has. -/
theorem grows_stageEndpoint (lease : ℕ) : Grows r (stageEndpoint r lease) := by
  unfold Server.stageEndpoint
  split
  · exact .of_conns rfl
  · split_ifs
    · exact .of_conns rfl
    · intro conn rc hrc
      refine ⟨rc, ?_, .refl rc⟩
      simp only [Table.get?_insert]
      rw [if_neg (h.fresh hrc).ne]
      exact hrc

theorem fresh_of_within {id : String} (hwithin : Within id r r')
    (hnext : r'.nextConn = r.nextConn)
    (hrc : r'.conns.get? conn = some rc) : conn < r'.nextConn := by
  rw [hnext]
  rcases hold : r.conns.get? conn with _ | rc'
  · rw [hwithin.absent hold] at hrc
    cases hrc
  · exact h.fresh hold

theorem admitEndpoint (conn now : ℕ) (room peerRoom : Bool) :
    Accounts (admitEndpoint r conn now room peerRoom).1 := by
  rcases hrc : r.conns.get? conn with _ | rc
  · unfold Server.admitEndpoint
    rw [hrc]
    exact h
  · have hadmission := admission_admitEndpoint hrc now room peerRoom
    replace h := h.removeUpgradeLocked conn
    rw [← r.conns_removeUpgradeLocked conn] at hrc
    exact
      { counts := hadmission.counts h.counts h.filled
        upgrades := hadmission.upgrades h.upgrades
        seated := hadmission.seated hrc h.seated
        filled := hadmission.filled hrc h.seated h.filled
        fresh := fun _ _ =>
          h.fresh_of_within (hadmission.within hrc h.seated) hadmission.nextConn_eq }

theorem releaseEndpointLocked (conn : ℕ) :
    Accounts (releaseEndpointLocked r conn) := by
  rcases hrc : r.conns.get? conn with _ | rc
  · unfold Server.releaseEndpointLocked
    rw [hrc]
    exact h
  · have hrelease := release_releaseEndpointLocked hrc
    replace h := h.removeUpgradeLocked conn
    rw [← r.conns_removeUpgradeLocked conn] at hrc
    exact
      { counts := hrelease.counts h.counts
        upgrades := hrelease.upgrades h.upgrades
        seated := hrelease.seated hrc h.seated
        filled := hrelease.filled hrc h.filled
        fresh := fun _ _ => h.fresh_of_within (hrelease.within hrc) hrelease.nextConn_eq }

theorem closeTargets (targets : Finset ℕ) (order : List ℕ) :
    Accounts (closeTargets r targets order) := by
  unfold Server.closeTargets
  generalize (if order.toFinset = targets then order else targets.sort) = list
  refine List.foldlRecOn list _ (List.foldlRecOn list _ h ?_) ?_
  · exact fun r h conn _ => h.modify conn RelayDataConn.later_markTerminal
  · exact fun r h conn _ => h.releaseEndpointLocked conn

theorem closeDeviceBeforeGeneration (deviceId : String) (cutoff : ℤ) (order : List ℕ) :
    Accounts (closeDeviceBeforeGeneration r deviceId cutoff order) :=
  closeTargets (List.foldlRecOn _ _ h fun _ h lease _ => h.invalidateUpgradeLeaseLocked lease) _
    order

theorem closeAll (order : List ℕ) : Accounts (closeAll r order) := by
  unfold Server.closeAll
  split_ifs
  · exact h
  · have hclosed : Accounts { r with closed := true } :=
      h.same (h.upgrades.same rfl rfl rfl rfl rfl rfl rfl) rfl rfl rfl rfl rfl rfl rfl
    exact closeTargets
      (List.foldlRecOn _ _ hclosed fun _ h lease _ => h.invalidateUpgradeLeaseLocked lease) _ order

theorem beginUpgrade (request : ℕ) : Accounts (beginUpgrade r request) := by
  have hupgrades := h.upgrades.beginUpgrade request
  unfold Server.beginUpgrade at hupgrades ⊢
  split at hupgrades
  · exact h
  · split_ifs at hupgrades ⊢
    · exact h
    · exact h
    · exact h.same hupgrades rfl rfl rfl rfl rfl rfl rfl

theorem stageEndpoint (lease : ℕ) : Accounts (stageEndpoint r lease) := by
  have hupgrades := h.upgrades.stageEndpoint lease
  have hgrows := h.grows_stageEndpoint lease
  unfold Server.stageEndpoint at hupgrades hgrows ⊢
  rcases hlease : r.upgradeLeases.get? lease with _ | upgrade
  · exact h
  · rw [hlease] at hupgrades hgrows
    split_ifs at hupgrades hgrows ⊢
    · exact h
    · refine ⟨h.counts.same rfl rfl rfl rfl, hupgrades, ?_, h.filled, ?_⟩
      · intro id pair role conn hpair hslot
        exact (h.seated hpair hslot).grows hgrows (h.seated hpair hslot).listed
      · intro conn rc hrc
        simp only [Table.get?_insert] at hrc
        split_ifs at hrc with heq
        · exact heq ▸ Nat.lt_succ_self _
        · exact Nat.lt_succ_of_lt (h.fresh hrc)

end

theorem start (maxSessions : ℤ) : Accounts (newRelayDataRegistry maxSessions) := by
  have hpos : 0 ≤ (newRelayDataRegistry maxSessions).maxSessions := by
    unfold newRelayDataRegistry
    split_ifs with h
    · decide
    · exact (not_le.mp h).le
  refine ⟨⟨rfl, rfl, hpos⟩, ⟨rfl, .inl rfl, ?_, ?_, ?_⟩, ?_, ?_, ?_⟩
  · exact fun conn h => absurd h (Finset.notMem_empty conn)
  · exact fun _ _ h => nomatch h
  · exact fun _ _ h => nomatch h
  · exact fun _ _ _ _ h => nomatch h
  · exact fun _ _ h => nomatch h
  · exact fun _ _ h => nomatch h

theorem step (h : Accounts r) (op : RegistryOp) : Accounts (registryStep r op).1 := by
  have hpump := fun (conn : ℕ) {f : RelayDataConn → RelayDataConn} => h.modify conn (f := f)
  cases op with
  | authorize deviceId generation reservationId stored queryToken header =>
    unfold registryStep
    dsimp only
    split
    · exact h
    · exact h.same (h.upgrades.request _) rfl rfl rfl rfl rfl rfl rfl
  | beginUpgrade request => exact h.beginUpgrade request
  | releaseLease lease => exact h.invalidateUpgradeLeaseLocked lease
  | stageEndpoint lease => exact h.stageEndpoint lease
  | activateEndpoint conn =>
    unfold registryStep Server.activateEndpoint
    dsimp only
    split_ifs
    · exact hpump conn fun _ => ⟨rfl, rfl, rfl, fun h => h⟩
    · exact h
  | connect conn reservationId localToken now room peerRoom =>
    have hconnected : Accounts (r.modify conn fun rc => { rc with connected := true }) :=
      hpump conn fun _ => ⟨rfl, rfl, rfl, fun h => h⟩
    unfold registryStep
    dsimp only
    split
    · exact h
    · split_ifs
      · exact h
      · exact hconnected
      · exact hconnected.admitEndpoint conn now room peerRoom
  | forward conn room =>
    grind [registryStep]
  | release conn =>
    refine ((hpump conn ?_).modify conn RelayDataConn.later_markTerminal).releaseEndpointLocked conn
    exact fun _ => ⟨rfl, rfl, rfl, fun h => h⟩
  | pumpsDone conn =>
    unfold registryStep
    dsimp only
    split_ifs
    · exact h.same (h.upgrades.same rfl rfl rfl rfl rfl rfl rfl) rfl rfl rfl rfl rfl rfl rfl
    · exact h
  | closeDevice deviceId cutoff order => exact h.closeDeviceBeforeGeneration deviceId cutoff order
  | closeAll order => exact h.closeAll order
  | markTerminal conn => exact hpump conn fun _ => ⟨rfl, rfl, rfl, fun _ => rfl⟩
  | clearFlags conn | closeDone conn | writePairReady conn =>
    refine hpump conn fun rc => ?_
    split_ifs
    exacts [⟨rfl, rfl, rfl, fun h => h⟩, .refl rc]

end Accounts

theorem accounts_run (maxSessions : ℤ) (ops : List RegistryOp) :
    Accounts ((registryMachine maxSessions).run ops) :=
  (registryMachine maxSessions).run_always (.start maxSessions) (fun _ op h => h.step op) ops

/-! ## The limit of upgrade slots -/

theorem maxUpgrades_releaseEndpointLocked (r : RelayDataRegistry) (conn : ℕ) :
    (releaseEndpointLocked r conn).maxUpgrades = r.maxUpgrades := by
  rcases hrc : r.conns.get? conn with _ | rc
  · unfold releaseEndpointLocked
    rw [hrc]
  · exact (release_releaseEndpointLocked hrc).maxUpgrades_eq.trans
      (idle_removeUpgradeLocked r conn).maxUpgrades

theorem maxUpgrades_closeTargets (r : RelayDataRegistry) (targets : Finset ℕ) (order : List ℕ) :
    (closeTargets r targets order).maxUpgrades = r.maxUpgrades := by
  unfold closeTargets
  generalize (if order.toFinset = targets then order else targets.sort) = list
  have hfold : ∀ {f : RelayDataRegistry → ℕ → RelayDataRegistry},
      (∀ r conn, (f r conn).maxUpgrades = r.maxUpgrades) → ∀ r : RelayDataRegistry,
        (list.foldl f r).maxUpgrades = r.maxUpgrades :=
    fun hf r => List.foldlRecOn (motive := fun r' => r'.maxUpgrades = r.maxUpgrades) list _ rfl
      fun r' h conn _ => (hf r' conn).trans h
  refine (hfold maxUpgrades_releaseEndpointLocked _).trans (hfold ?_ r)
  exact fun _ _ => rfl

/-- The limit is the one the registry was made with. -/
theorem maxUpgrades_registryStep (r : RelayDataRegistry) (op : RegistryOp) :
    (registryStep r op).1.maxUpgrades = r.maxUpgrades := by
  have hmove := move_registryStep r op
  generalize (registryStep r op).1 = r', (registryStep r op).2 = output at hmove ⊢
  cases hmove with
  | idle h => exact h.maxUpgrades
  | authorizes | pumps | rejects | forwards => rfl
  | stages lease =>
    unfold stageEndpoint
    split
    · rfl
    · split_ifs <;> rfl
  | admits conn _ _ _ _ _ _ _ _ _ h =>
    exact h.maxUpgrades_eq.trans (idle_removeUpgradeLocked _ conn).maxUpgrades
  | releases conn => exact maxUpgrades_releaseEndpointLocked _ conn
  | closes hbase targets order =>
    exact (maxUpgrades_closeTargets _ targets order).trans hbase.maxUpgrades

theorem maxUpgrades_run (maxSessions : ℤ) (ops : List RegistryOp) :
    ((registryMachine maxSessions).run ops).maxUpgrades =
      (newRelayDataRegistry maxSessions).maxUpgrades :=
  (registryMachine maxSessions).run_always
    (I := fun r => r.maxUpgrades = (newRelayDataRegistry maxSessions).maxUpgrades) rfl
    (fun r op h => (maxUpgrades_registryStep r op).trans h) ops

/-- The limit is below zero if twice the sessions do not fit into an `int`. -/
theorem maxUpgrades_nonneg_iff {maxSessions : ℤ} (hint : maxSessions < 2 ^ 63) :
    0 ≤ (newRelayDataRegistry maxSessions).maxUpgrades ↔ maxSessions < 2 ^ 62 := by
  simp only [newRelayDataRegistry, wrapInt, Int.bmod_def, defaultMaxTransferSessions]
  split_ifs <;> omega

/-- What the counters and maps of the registry are to say. -/
structure Audited (r : RelayDataRegistry) : Prop where
  pending : r.pendingPairs = r.inactiveCount
  active : r.activePairs = r.activeCount
  activeQuota : r.activePairs ≤ r.maxSessions
  upgrades : r.upgradeSlots = (r.upgradeLeases.size : ℤ) + r.upgradeRefs.card
  upgradeQuota : r.upgradeSlots ≤ r.maxUpgrades
  oneSlot : ∀ id pair role id' pair' role' conn, r.pairs.get? id = some pair →
    pair.slot role = some conn → r.pairs.get? id' = some pair' → pair'.slot role' = some conn →
      id = id' ∧ role = role'
  listed : ∀ id pair role conn, r.pairs.get? id = some pair → pair.slot role = some conn →
    ∃ rc, r.conns.get? conn = some rc ∧ conn ∈ r.deviceRefsOf rc.deviceId

theorem audited_of_accounts (h : Accounts r) (hlimit : 0 ≤ r.maxUpgrades) : Audited r := by
  refine ⟨h.counts.pending, h.counts.active, h.counts.quota, h.upgrades.slots,
    h.upgrades.quota.elim (fun hnone => hnone ▸ hlimit) id, ?_, ?_⟩
  · intro id pair role id' pair' role' conn hpair hslot hpair' hslot'
    exact (h.seated hpair hslot).unique (h.seated hpair' hslot')
  · intro id pair role conn hpair hslot
    have hseat := h.seated hpair hslot
    obtain ⟨rc, hrc, _⟩ := hseat.endpoint
    refine ⟨rc, hrc, Finset.mem_filter.mpr ⟨hseat.listed, ?_⟩⟩
    simp_all

/-- **Accounting.** In every state that any interleaving reaches, the counters of pending and
active pairs are the numbers of such pairs, active pairs stay within the sessions that are
allowed, the upgrade slots taken are the leases and the staged endpoints and stay within their
limit, and an endpoint is in at most one slot of one pair and then listed for its device. This
holds of every run exactly if twice the sessions that are allowed fit into an `int`. -/
theorem registry_accounts (maxSessions : ℤ) (hint : maxSessions < 2 ^ 63) :
    (∀ ops : List RegistryOp, Audited ((registryMachine maxSessions).run ops)) ↔
      maxSessions < 2 ^ 62 := by
  rw [← maxUpgrades_nonneg_iff hint]
  constructor
  · -- no slot is taken at the start
    exact fun haudited => (haudited []).upgradeQuota
  · intro hlimit ops
    refine audited_of_accounts (accounts_run maxSessions ops) ?_
    rwa [maxUpgrades_run]

theorem registry_accounts_default :
    (4096 : ℤ) < 2 ^ 62 ∧ ∀ ops : List RegistryOp, Audited ((registryMachine 4096).run ops) :=
  ⟨by decide, (registry_accounts 4096 (by decide)).mpr (by decide)⟩

/-- **The limit wraps around**: with 2^62 sessions it is below zero, and no slot at all is more
than it allows. -/
theorem upgrade_limit_wraps :
    (newRelayDataRegistry (2 ^ 62)).maxUpgrades = -2 ^ 63 ∧
      ¬ Audited ((registryMachine (2 ^ 62)).run []) := by
  have hwraps : (newRelayDataRegistry (2 ^ 62)).maxUpgrades = -2 ^ 63 := by decide
  refine ⟨hwraps, fun haudited => ?_⟩
  have hquota : (0 : ℤ) ≤ (newRelayDataRegistry (2 ^ 62)).maxUpgrades := haudited.upgradeQuota
  rw [hwraps] at hquota
  omega

end SshMobile.Server
