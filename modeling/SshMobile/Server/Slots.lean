import SshMobile.Server.Accounting

/-!
# The slots of pairs over a run

Who leaves the slot of a pair is terminal, and when an active pair goes, both of its endpoints
are. The critical sections are followed one by one, including the loops that close many endpoints
in the order of a Go map; the only step that puts an endpoint into a slot is its own admission.

## Main definitions

* `Holds`, `Paired`: an endpoint in its slot, two endpoints of an active pair
* `Shifts`: what a critical section may do to slots and pairs
* `newcomer`: the endpoint that a step has admitted

## Main results

* `Admission.shifts`, `Release.shifts`: the branches of admission and release
* `shifts_closeTargets`: all targets are terminal and in no slot
* `shifts_registryStep`: every step is a shift
-/

namespace SshMobile.Server

open Library

/-! ## Slots and pairs -/

/-- The endpoint is in the slot. -/
def Holds (r : RelayDataRegistry) (id : String) (role : RelayDataRole) (conn : ℕ) : Prop :=
  ∃ pair, r.pairs.get? id = some pair ∧ pair.slot role = some conn

/-- The endpoints are the two of an active pair. -/
def Paired (r : RelayDataRegistry) (conn other : ℕ) : Prop :=
  ∃ id pair role, r.pairs.get? id = some pair ∧ pair.active = true ∧ pair.slot role = some conn ∧
    pair.slot role.other = some other

/-- **What a critical section does to slots**: who is gone from a slot is terminal, an active pair
that is gone leaves two terminal endpoints, and at most one endpoint is new. -/
structure Shifts (new : Option ℕ) (r r' : RelayDataRegistry) : Prop where
  grows : Grows r r'
  holds : ∀ ⦃id role conn⦄, Holds r id role conn → Holds r' id role conn ∨ Terminal r' conn
  paired : ∀ ⦃conn other⦄, Paired r conn other →
    Paired r' conn other ∨ Terminal r' conn ∧ Terminal r' other
  entered : ∀ ⦃id role conn⦄, Holds r' id role conn → Holds r id role conn ∨ new = some conn

variable {r r' : RelayDataRegistry} {conn : ℕ}

namespace Shifts

variable {new : Option ℕ} {r'' : RelayDataRegistry}

/-- No slot changes. -/
theorem of_pairs (hgrows : Grows r r') (hpairs : r'.pairs = r.pairs) : Shifts new r r' := by
  refine ⟨hgrows, fun id role conn h => .inl ?_, fun conn other h => .inl ?_,
    fun id role conn h => .inl ?_⟩
  · rwa [Holds, hpairs]
  · rwa [Paired, hpairs]
  · rwa [Holds, ← hpairs]

theorem refl (r : RelayDataRegistry) : Shifts new r r := of_pairs (.of_conns rfl) rfl

theorem trans (h : Shifts none r r') (h' : Shifts new r' r'') : Shifts new r r'' := by
  refine ⟨h.grows.trans h'.grows, ?_, ?_, ?_⟩
  · intro id role conn hholds
    rcases h.holds hholds with hholds | hterminal
    · exact h'.holds hholds
    · exact .inr (hterminal.grows h'.grows)
  · intro conn other hpaired
    rcases h.paired hpaired with hpaired | ⟨hconn, hother⟩
    · exact h'.paired hpaired
    · exact .inr ⟨hconn.grows h'.grows, hother.grows h'.grows⟩
  · intro id role conn hholds
    rcases h'.entered hholds with hholds | hnew
    · rcases h.entered hholds with hholds | hnone
      · exact .inl hholds
      · cases hnone
    · exact .inr hnew

theorem modify (r : RelayDataRegistry) (conn : ℕ) {f : RelayDataConn → RelayDataConn}
    (hf : ∀ rc : RelayDataConn, rc.Later (f rc)) : Shifts new r (r.modify conn f) :=
  of_pairs (grows_modify r conn hf) rfl

/-- Within one reservation it is enough to look at the pair of that reservation. -/
theorem of_within {id : String} (hwithin : Within id r r')
    (hholds : ∀ ⦃pair role conn⦄, r.pairs.get? id = some pair → pair.slot role = some conn →
      Holds r' id role conn ∨ Terminal r' conn)
    (hpaired : ∀ ⦃pair role conn other⦄, r.pairs.get? id = some pair → pair.active = true →
      pair.slot role = some conn → pair.slot role.other = some other →
        Terminal r' conn ∧ Terminal r' other)
    (hentered : ∀ ⦃pair role conn⦄, r'.pairs.get? id = some pair → pair.slot role = some conn →
      Holds r id role conn ∨ new = some conn) : Shifts new r r' := by
  refine ⟨hwithin.grows, ?_, ?_, ?_⟩
  · rintro other role conn ⟨pair, hpair, hslot⟩
    by_cases heq : other = id
    · subst heq
      exact hholds hpair hslot
    · exact .inl ⟨pair, (hwithin.pairs heq).trans hpair, hslot⟩
  · rintro conn other ⟨id', pair, role, hpair, hactive, hslot, hother⟩
    by_cases heq : id' = id
    · subst heq
      exact .inr (hpaired hpair hactive hslot hother)
    · exact .inl ⟨id', pair, role, (hwithin.pairs heq).trans hpair, hactive, hslot, hother⟩
  · rintro other role conn ⟨pair, hpair, hslot⟩
    by_cases heq : other = id
    · subst heq
      exact hentered hpair hslot
    · exact .inl ⟨pair, (hwithin.pairs heq).symm.trans hpair, hslot⟩

/-- The same when the reservation has a pair. -/
theorem of_pair {id : String} {pair : RelayDataPair} (hwithin : Within id r r')
    (hpair : r.pairs.get? id = some pair)
    (hholds : ∀ ⦃role conn⦄, pair.slot role = some conn → Holds r' id role conn ∨ Terminal r' conn)
    (hpaired : pair.active = true → ∀ ⦃role conn other⦄, pair.slot role = some conn →
      pair.slot role.other = some other → Terminal r' conn ∧ Terminal r' other)
    (hentered : ∀ ⦃pair' role conn⦄, r'.pairs.get? id = some pair' → pair'.slot role = some conn →
      pair.slot role = some conn ∨ new = some conn) : Shifts new r r' := by
  refine of_within hwithin ?_ ?_ ?_
  · simp_all
  · intro pair₁ role conn other hpair₁ hactive
    cases hpair.symm.trans hpair₁
    exact fun hslot hother => hpaired hactive hslot hother
  · intro pair' role conn hpair' hslot'
    rcases hentered hpair' hslot' with hslot | hnew
    · exact .inl ⟨pair, hpair, hslot⟩
    · exact .inr hnew

end Shifts

theorem Idle.shifts {new : Option ℕ} (h : Idle r r') : Shifts new r r' :=
  .of_pairs (.of_conns h.conns) h.pairs

theorem RelayDataRole.eq_or_other (role role' : RelayDataRole) :
    role' = role ∨ role' = role.other := by
  cases role <;> cases role' <;> simp [RelayDataRole.other]

section Displaced

variable {id : String}

theorem terminal_displaceLocked (h : Belongs r id conn) :
    Terminal (r.displaceLocked conn) conn := by
  obtain ⟨rc, hrc, _⟩ := h
  exact terminal_modify (r := r.removeDeviceRefLocked conn) hrc rfl

theorem terminal_modifyPeer {rc : RelayDataConn} {f : RelayDataConn → RelayDataConn}
    (hrc : r.conns.get? conn = some rc) (hf : (f rc).terminal = true) :
    Terminal (r.modifyPeer (some conn) f) conn := by
  grind [RelayDataRegistry.get?_modifyPeer, Terminal]

theorem terminal_displacePeerLocked (h : Belongs r id conn) :
    Terminal (r.displacePeerLocked (some conn)) conn := by
  obtain ⟨rc, hrc, _⟩ := h
  exact terminal_modifyPeer (r := { r with deviceRefs := _ }) hrc rfl

end Displaced

/-! ## Admissions and releases -/

open RelayDataConn RelayDataPair

section Branches

variable {rc : RelayDataConn} {ok : Bool} {pair pair' : RelayDataPair} {role : RelayDataRole}
  {other : ℕ}

variable (conn) in
/-- The other slot of a pair that an endpoint has joined is as it was. -/
theorem holds_of_setSlot (hpair' : r'.pairs.get? rc.reservationId = some pair')
    (hslots : ∀ role, pair'.slot role = (pair.setSlot rc.role (some conn)).slot role)
    (hne : role ≠ rc.role) (hslot : pair.slot role = some other) :
    Holds r' rc.reservationId role other := by
  grind [slot_setSlot, Holds]

theorem slot_of_setSlot
    (hslots : ∀ role, pair'.slot role = (pair.setSlot rc.role (some conn)).slot role)
    (hslot : pair'.slot role = some other) :
    pair.slot role = some other ∨ some conn = some other := by
  grind [slot_setSlot]

/-- A pair with a free slot has no two endpoints. -/
theorem not_both_of_free {role' : RelayDataRole} {peer : ℕ} (hfree : pair.slot role' = none)
    (hslot : pair.slot role = some other) (hpeer : pair.slot role.other = some peer) : False := by
  rcases role.eq_or_other role' with rfl | rfl
  · cases hfree.symm.trans hslot
  · cases hfree.symm.trans hpeer

/-- A retry against an active role makes both old endpoints terminal. -/
theorem terminal_replaceActive (hseated : Seated r)
    (hpair : r.pairs.get? rc.reservationId = some pair) (hslot : pair.slot role = some other)
    (consumed : Table String ℕ) :
    Terminal (replaceActive { r with consumed } conn rc pair) other := by
  have hbelongs := (hseated hpair hslot).belongs
  have hfirst : Grows r ({ r with consumed }.displacePeerLocked pair.initiator) :=
    grows_modifyPeer _ pair.initiator later_displaced
  cases role with
  | initiator =>
    have hterminal : Terminal ({ r with consumed }.displacePeerLocked pair.initiator) other := by
      rw [show pair.initiator = some other from hslot]
      exact terminal_displacePeerLocked (r := { r with consumed }) hbelongs
    exact hterminal.grows (grows_modifyPeer _ pair.responder later_displaced)
  | responder =>
    have hterminal : Terminal (({ r with consumed }.displacePeerLocked
        pair.initiator).displacePeerLocked pair.responder) other := by
      rw [show pair.responder = some other from hslot]
      exact terminal_displacePeerLocked (hbelongs.grows hfirst)
    exact hterminal

theorem Admission.shifts (h : Admission r conn rc r' ok) (hrc : r.conns.get? conn = some rc)
    (hseated : Seated r) : Shifts (if ok then some conn else none) r r' := by
  have hwithin := h.within hrc hseated
  cases h with
  | refused consumed => exact .of_pairs (.of_conns rfl) rfl
  | opens consumed hnone =>
    refine .of_within hwithin ?_ ?_ ?_
    · simp_all
    · simp_all
    · intro pair' role other hpair' hslot'
      cases (Table.get?_insert_self ..).symm.trans hpair'
      simp_all
  | waits consumed pair hpair hslot hother =>
    refine .of_pair hwithin hpair ?_ ?_ ?_
    · intro role other hslot₁
      rcases rc.role.eq_or_other role with rfl | rfl
      · cases hslot.symm.trans hslot₁
      · cases hother.symm.trans hslot₁
    · grind [not_both_of_free]
    · intro pair' role other hpair' hslot'
      cases (Table.get?_insert_self ..).symm.trans hpair'
      exact slot_of_setSlot (fun _ => rfl) hslot'
  | replacesPending consumed pair replaced hpair hslot hactive =>
    refine .of_pair hwithin hpair ?_ ?_ ?_
    · intro role other hslot₁
      by_cases hrole : role = rc.role
      · subst hrole
        cases hslot.symm.trans hslot₁
        have hreplaced : Belongs { r with consumed } rc.reservationId replaced :=
          (hseated hpair hslot).belongs
        exact .inr ((terminal_displaceLocked hreplaced).grows (.of_conns rfl))
      · exact .inl (holds_of_setSlot conn (Table.get?_insert_self ..) (slot_congr rfl rfl) hrole
          hslot₁)
    · simp_all
    · intro pair' role other hpair' hslot'
      cases (Table.get?_insert_self ..).symm.trans hpair'
      exact slot_of_setSlot (slot_congr rfl rfl) hslot'
  | replacesActive consumed pair replaced hpair =>
    refine .of_pair hwithin hpair ?_ ?_ ?_
    · grind [terminal_replaceActive]
    · grind [terminal_replaceActive]
    · intro pair' role other hpair' hslot'
      cases (Table.get?_insert_self ..).symm.trans hpair'
      rcases slot_of_setSlot (fun _ => rfl) hslot' with hslot | hnew
      · cases role <;> cases hslot
      · exact .inr hnew
  | undone consumed pair peer hpair hslot hother =>
    have hpeer := (hseated hpair hother).belongs
    refine .of_pair hwithin hpair ?_ ?_ ?_
    · intro role other hslot₁
      rcases rc.role.eq_or_other role with rfl | rfl
      · cases hslot.symm.trans hslot₁
      · cases hother.symm.trans hslot₁
        refine .inr (terminal_displaceLocked (hpeer.grows ?_))
        exact (Grows.of_conns rfl).trans (grows_modify _ conn later_displaced)
    · grind [not_both_of_free]
    · intro pair' role other hpair'
      cases (Table.get?_erase_self ..).symm.trans hpair'
  | commits consumed pair peer now hpair hslot hother =>
    refine .of_pair hwithin hpair ?_ ?_ ?_
    · intro role other hslot₁
      refine .inl (holds_of_setSlot conn (Table.get?_insert_self ..) (slot_congr rfl rfl) ?_ hslot₁)
      grind
    · exact fun _ role other peer hslot₁ hpeer => (not_both_of_free hslot hslot₁ hpeer).elim
    · intro pair' role other hpair' hslot'
      cases (Table.get?_insert_self ..).symm.trans hpair'
      exact slot_of_setSlot (slot_congr rfl rfl) hslot'

/-- An endpoint that is admitted is in the slot of its role. -/
theorem Admission.takes (h : Admission r conn rc r' true) :
    Holds r' rc.reservationId rc.role conn := by
  have htakes : ∀ pair : RelayDataPair,
      (pair.setSlot rc.role (some conn)).slot rc.role = some conn :=
    fun pair => by rw [slot_setSlot, if_pos rfl]
  cases h with
  | opens consumed | replacesActive consumed pair => exact ⟨_, Table.get?_insert_self .., htakes _⟩
  | waits consumed pair => exact ⟨_, Table.get?_insert_self .., htakes pair⟩
  | replacesPending consumed pair | commits consumed pair peer now =>
    exact ⟨_, Table.get?_insert_self .., (slot_congr rfl rfl _).trans (htakes pair)⟩

/-- The counterpart that a release leaves behind. -/
theorem or_without (hslot : pair.slot role = some conn) {role' : RelayDataRole}
    (hother : pair.slot role' = some other) (hne : other ≠ conn) :
    (pair.without conn).initiator.or (pair.without conn).responder = some other := by
  have hleft : (pair.without conn).slot role = none := by
    rw [slot_without, if_pos hslot]
  have hstays : (pair.without conn).slot role' = some other := by
    grind [slot_without]
  cases role <;> cases role' <;> simp_all [slot]

/-- An endpoint that is released is terminal already. -/
theorem Release.shifts (h : Release r conn rc r') (hrc : r.conns.get? conn = some rc)
    (hseated : Seated r) (hterminal : Terminal r conn) : Shifts none r r' := by
  have hwithin := h.within hrc
  have hconn := hterminal.grows hwithin.grows
  cases h with
  | unseated => exact .of_pairs (.of_conns rfl) rfl
  | dissolves pair role hpair hslot hactive =>
    have hgone : ∀ role' other, pair.slot role' = some other → Terminal
        (r.detachLocked conn ((pair.without conn).initiator.or (pair.without conn).responder))
          other := by
      intro role' other hother
      by_cases heq : other = conn
      · subst heq
        exact hconn
      · rw [or_without hslot hother heq]
        obtain ⟨rc', hrc', _⟩ := (hseated hpair hother).belongs
        have hmarked : Terminal ((r.removeDeviceRefLocked conn).modifyPeer (some other)
            fun rc => rc.markTerminal.clearPeer) other := terminal_modifyPeer hrc' rfl
        exact hmarked.grows (grows_modify _ conn later_clearPeer)
    refine .of_pair hwithin hpair ?_ ?_ ?_
    · grind [Terminal]
    · grind [Terminal]
    · simp
  | empties pair role hpair hslot hactive hempty =>
    refine .of_pair hwithin hpair ?_ ?_ ?_
    · intro role' other hother
      have hfree := hempty role'
      grind [slot_without]
    · simp_all
    · simp
  | leaves pair role hpair hslot hactive =>
    refine .of_pair hwithin hpair ?_ ?_ ?_
    · grind [slot_without, Holds]
    · simp_all
    · grind [slot_without]

theorem Release.unlisted (h : Release r conn rc r') : conn ∉ r'.deviceRefs := by
  cases h <;> exact Finset.notMem_erase conn r.deviceRefs

end Branches

/-! ## Closing many endpoints -/

/-- The endpoint is terminal, if there is one of this number. -/
def Quiet (r : RelayDataRegistry) (conn : ℕ) : Prop :=
  ∀ ⦃rc⦄, r.conns.get? conn = some rc → rc.terminal = true

section Closing

theorem Quiet.within {id : String} (h : Quiet r conn) (hwithin : Within id r r') :
    Quiet r' conn := by
  intro rc' hrc'
  rcases hrc : r.conns.get? conn with _ | rc
  · cases (hwithin.absent hrc).symm.trans hrc'
  · obtain ⟨rc'', hrc'', hlater⟩ := hwithin.grows hrc
    cases hrc''.symm.trans hrc'
    exact hlater.terminal (h hrc)

theorem within_releaseEndpointLocked (r : RelayDataRegistry) (conn : ℕ) :
    ∃ id, Within id r (releaseEndpointLocked r conn) := by
  rcases hrc : r.conns.get? conn with _ | rc
  · refine ⟨"", ?_⟩
    unfold releaseEndpointLocked
    rw [hrc]
    exact .refl r
  · refine ⟨rc.reservationId, (Within.refl r).removeUpgradeLocked.trans
      ((release_releaseEndpointLocked hrc).within ?_)⟩
    simp_all

theorem seated_releaseEndpointLocked (h : Seated r) (conn : ℕ) :
    Seated (releaseEndpointLocked r conn) := by
  rcases hrc : r.conns.get? conn with _ | rc
  · unfold releaseEndpointLocked
    rw [hrc]
    exact h
  · have hidle := idle_removeUpgradeLocked r conn
    refine (release_releaseEndpointLocked hrc).seated ?_ (hidle.seated h)
    rw [hidle.conns]
    exact hrc

theorem shifts_releaseEndpointLocked (h : Seated r) (hquiet : Quiet r conn) :
    Shifts none r (releaseEndpointLocked r conn) := by
  rcases hrc : r.conns.get? conn with _ | rc
  · unfold releaseEndpointLocked
    rw [hrc]
    exact .refl r
  · have hidle := idle_removeUpgradeLocked r conn
    have hterminal : Terminal (r.removeUpgradeLocked conn) conn :=
      Terminal.grows ⟨rc, hrc, hquiet hrc⟩ (.of_conns hidle.conns)
    refine hidle.shifts.trans
      ((release_releaseEndpointLocked hrc).shifts ?_ (hidle.seated h) hterminal)
    rw [hidle.conns]
    exact hrc

/-- An endpoint that is released is in no slot. -/
theorem not_holds_releaseEndpointLocked {rc : RelayDataConn} (h : Seated r)
    (hrc : r.conns.get? conn = some rc) (id : String) (role : RelayDataRole) :
    ¬ Holds (releaseEndpointLocked r conn) id role conn := by
  rintro ⟨pair, hpair, hslot⟩
  exact (release_releaseEndpointLocked hrc).unlisted
    (seated_releaseEndpointLocked h conn hpair hslot).listed

/-- **Releases, one after the other**: what the first has taken out of its slot stays out. -/
theorem shifts_foldl_release (h : Seated r) {list : List ℕ} (hquiet : ∀ conn ∈ list, Quiet r conn) :
    Shifts none r (list.foldl releaseEndpointLocked r) ∧ ∀ conn ∈ list, ∀ id role,
      (r.conns.get? conn).isSome → ¬ Holds (list.foldl releaseEndpointLocked r) id role conn := by
  induction list generalizing r with
  | nil => exact ⟨.refl r, fun conn hconn => absurd hconn List.not_mem_nil⟩
  | cons first rest ih =>
    have hfirst := shifts_releaseEndpointLocked h (hquiet first List.mem_cons_self)
    obtain ⟨id₁, hwithin⟩ := within_releaseEndpointLocked r first
    obtain ⟨hrest, hgone⟩ := ih (seated_releaseEndpointLocked h first)
      fun conn hconn => (hquiet conn (List.mem_cons_of_mem _ hconn)).within hwithin
    refine ⟨hfirst.trans hrest, ?_⟩
    intro conn hconn id role hknown hholds
    obtain ⟨rc, hrc⟩ := Option.isSome_iff_exists.mp hknown
    rcases List.mem_cons.mp hconn with rfl | hconn
    · rcases hrest.entered hholds with hholds | hnone
      · exact not_holds_releaseEndpointLocked h hrc id role hholds
      · cases hnone
    · obtain ⟨rc', hrc', _⟩ := hwithin.grows hrc
      simp_all

/-- Marking endpoints terminal, one after the other. -/
theorem within_foldl_markTerminal (id : String) (r : RelayDataRegistry) (list : List ℕ) :
    Within id r (list.foldl (fun r conn => r.modify conn markTerminal) r) :=
  List.foldlRecOn list _ (.refl r) fun _ h _ _ => h.modify later_markTerminal

theorem quiet_foldl_markTerminal {list : List ℕ} (hconn : conn ∈ list) :
    Quiet (list.foldl (fun r conn => r.modify conn markTerminal) r) conn := by
  induction list generalizing r with
  | nil => exact absurd hconn List.not_mem_nil
  | cons first rest ih =>
    rcases List.mem_cons.mp hconn with rfl | hconn
    · have hquiet : Quiet (r.modify conn markTerminal) conn := by
        intro rc hrc
        rw [RelayDataRegistry.get?_modify, Option.map_eq_some_iff] at hrc
        obtain ⟨rc', _, rfl⟩ := hrc
        rw [if_pos rfl]
        rfl
      exact hquiet.within (within_foldl_markTerminal "" _ rest)
    · exact ih hconn

theorem shifts_foldl_markTerminal (r : RelayDataRegistry) (list : List ℕ) :
    Shifts none r (list.foldl (fun r conn => r.modify conn markTerminal) r) :=
  List.foldlRecOn list _ (.refl r)
    fun _ h conn _ => h.trans (.modify _ conn later_markTerminal)

theorem seated_foldl_markTerminal (h : Seated r) (list : List ℕ) :
    Seated (list.foldl (fun r conn => r.modify conn markTerminal) r) :=
  List.foldlRecOn list _ h fun _ h conn _ => h.modify conn later_markTerminal

/-- **All targets are terminal and in no slot**, whatever the order they come in. -/
theorem shifts_closeTargets (h : Seated r) (targets : Finset ℕ) (order : List ℕ) :
    Shifts none r (closeTargets r targets order) ∧ ∀ conn ∈ targets, (r.conns.get? conn).isSome →
      Terminal (closeTargets r targets order) conn ∧
        ∀ id role, ¬ Holds (closeTargets r targets order) id role conn := by
  unfold closeTargets
  have hmem : ∀ conn, conn ∈ targets →
      conn ∈ if order.toFinset = targets then order else targets.sort := by
    grind [List.mem_toFinset, Finset.mem_sort]
  generalize (if order.toFinset = targets then order else targets.sort) = list at hmem ⊢
  have hmarked := shifts_foldl_markTerminal r list
  obtain ⟨hshifts, hgone⟩ := shifts_foldl_release (seated_foldl_markTerminal h list)
    fun conn hconn => quiet_foldl_markTerminal hconn
  refine ⟨hmarked.trans hshifts, ?_⟩
  intro conn hconn hknown
  obtain ⟨rc, hrc⟩ := Option.isSome_iff_exists.mp hknown
  obtain ⟨rc', hrc', _⟩ := hmarked.grows hrc
  refine ⟨?_, fun id role => hgone conn (hmem conn hconn) id role
    (Option.isSome_iff_exists.mpr ⟨rc', hrc'⟩)⟩
  exact Terminal.grows ⟨rc', hrc', quiet_foldl_markTerminal (hmem conn hconn) hrc'⟩ hshifts.grows

end Closing

/-! ## Every step -/

/-- The endpoint that a step of the transcript has admitted. -/
def newcomer : RegistryOp × RegistryOutput → Option ℕ
  | (.connect conn _ _ _ _ _, .admitted true) => some conn
  | _ => none

/-- **Every step is a shift**, with the endpoint that it admits. -/
theorem shifts_registryStep (h : Accounts r) (op : RegistryOp) :
    Shifts (newcomer (op, (registryStep r op).2)) r (registryStep r op).1 := by
  have hmove := move_registryStep r op
  generalize (registryStep r op).1 = r', (registryStep r op).2 = output at hmove ⊢
  have hold : Shifts none r r' → Shifts (newcomer (op, output)) r r' :=
    fun hshifts => hshifts.trans (.refl r')
  cases hmove with
  | idle hidle => exact hidle.shifts
  | authorizes => exact hold (.of_pairs (.of_conns rfl) rfl)
  | stages lease =>
    refine hold (.of_pairs (h.grows_stageEndpoint lease) ?_)
    grind [stageEndpoint]
  | pumps conn f hf => exact hold (.modify r conn hf)
  | rejects conn => exact hold (.modify r conn fun _ => ⟨rfl, rfl, rfl, fun h => h⟩)
  | @admits conn reservationId localToken now room peerRoom rc _ ok hrc _ _ _ hadmission =>
    have hconnect : ∀ rc : RelayDataConn, rc.Later rc.connect :=
      fun _ => ⟨rfl, rfl, rfl, fun h => h⟩
    have hidle := idle_removeUpgradeLocked (r.modify conn connect) conn
    have hbefore : Shifts none r ((r.modify conn connect).removeUpgradeLocked conn) :=
      (Shifts.modify r conn hconnect).trans hidle.shifts
    have hrc' : ((r.modify conn connect).removeUpgradeLocked conn).conns.get? conn =
        some rc.connect := by
      rw [hidle.conns, RelayDataRegistry.get?_modify, hrc]
      exact congrArg some (if_pos rfl)
    have hshifts := hbefore.trans
      (hadmission.shifts hrc' (hidle.seated (h.seated.modify conn hconnect)))
    cases ok <;> exact hshifts
  | forwards => exact hold (.refl r)
  | releases conn f hf =>
    have hbefore : Shifts none r ((r.modify conn f).modify conn markTerminal) :=
      (Shifts.modify r conn hf).trans (.modify _ conn later_markTerminal)
    refine hold (hbefore.trans (shifts_releaseEndpointLocked
      ((h.seated.modify conn hf).modify conn later_markTerminal) ?_))
    exact quiet_foldl_markTerminal (List.mem_singleton_self conn)
  | closes hbase targets order =>
    exact hold (hbase.shifts.trans (shifts_closeTargets (hbase.seated h.seated) targets order).1)

end SshMobile.Server
