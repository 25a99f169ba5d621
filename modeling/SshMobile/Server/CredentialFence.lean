import SshMobile.Server.Enrollment

/-!
# Credentials of a removed enrollment

A credential that was issued before its enrollment was revoked is rejected for good. While the
tombstone stands, a later enrollment of the device gets a generation above its floor; once the
tombstone is gone, the credential has expired.

A credential may also be issued after the revocation, by an enroll request that had stored its
enrollment before. Such a credential outlives the tombstone. The generation of an enrollment is the
reading of the clock its request began with, and the request may have waited for the device's lock
since: it can be the removed generation, and then the late credential is accepted
(`late_credential_accepted`). If no revocation meets a request that has yet to issue its credential,
the generations of a device rise above every one that can still be presented.

## Main definitions

* `Moves`: what one operation does to the enrollment and the tombstone of a device
* `Fenced`: no credential of the generation is accepted, now or later
* `Standing`: the generation is enrolled, or a later one is, or it is fenced
* `RevokesIssued`: a revocation meets no request that has yet to issue its credential

## Main results

* `moves_step`: the three ways an operation moves a device
* `fenced_of_moves`: what is fenced stays fenced
* `credential_fence`: rejection and rising generations, of every such run
-/

namespace SshMobile.Server

open Library

variable {config : EnrollmentConfig}

/-! ## Generations -/

/-- A generation is after the one it follows. -/
theorem unixMicro_lt_next (candidate current : ℕ) :
    unixMicro current < unixMicro (nextEnrollmentTime candidate (some current)) := by
  grind [nextEnrollmentTime, unixMicro, truncateMicro, microsecond]

namespace DeviceStore

variable {store : DeviceStore} {device : EnrolledDevice} {deviceId : String}

theorem generation_stamped_of_enrolled {existing : EnrolledDevice}
    (h : store.enrolledDevices.get? device.deviceId = some existing) :
    existing.generation < (store.stamped device).generation := by
  grind [generationBase, EnrolledDevice.generation, stamped, unixMicro_lt_next]

theorem generation_stamped_of_revoked {entry : RevokedDevice} {floor : ℕ}
    (h : store.enrolledDevices.get? device.deviceId = none)
    (hentry : store.revokedDevices.get? device.deviceId = some entry)
    (hfloor : entry.generationFloor = some floor) :
    unixMicro floor < (store.stamped device).generation := by
  grind [generationBase, EnrolledDevice.generation, stamped, unixMicro_lt_next]

/-- `putEnrollment` refuses and changes nothing, or writes. -/
theorem putEnrollment_cases (store : DeviceStore) (device : EnrolledDevice) :
    (∃ result, result ≠ .ok ∧ store.putEnrollment device = (store, result, 0)) ∨
      store.putEnrollment device =
        (store.write device, .ok, (store.stamped device).generation) := by
  grind [putEnrollment]

theorem get?_write_self : (store.write device).enrolledDevices.get? device.deviceId =
    some (store.stamped device) := Table.get?_insert_self ..

/-- `isRevoked` touches no enrollment, and drops an expired tombstone of its device at most. -/
theorem isRevoked_cases (store : DeviceStore) (deviceId : String) (now : ℕ) :
    (store.isRevoked deviceId now).1 = store ∨
      ∃ entry, store.revokedDevices.get? deviceId = some entry ∧ entry.expiresAt ≤ now ∧
        (store.isRevoked deviceId now).1 =
          { store with revokedDevices := store.revokedDevices.erase deviceId } := by
  grind [isRevoked]

end DeviceStore

/-! ## What an operation does to one device -/

/-- **What one operation does to the enrollment and the tombstone of a device.** Either the
enrollment stays, and the tombstone too unless it has expired; or a new enrollment is written,
whose generation is after what it follows; or a revocation replaces the enrollment by a
tombstone. -/
inductive Moves (credentialTtl : ℕ) (deviceId : String) (op : EnrollmentOp)
    (s s' : EnrollmentState) : Prop
  | keeps (hclock : s.clock ≤ s'.clock)
      (henrolled : s'.store.enrolledDevices.get? deviceId = s.store.enrolledDevices.get? deviceId)
      (hrevoked : s'.store.revokedDevices.get? deviceId = s.store.revokedDevices.get? deviceId ∨
        ∃ entry, s.store.revokedDevices.get? deviceId = some entry ∧ entry.expiresAt ≤ s'.clock)
  | writes (hclock : s'.clock = s.clock) (device : EnrolledDevice)
      (henrolled : s'.store.enrolledDevices.get? deviceId = some device)
      (hafter : ∀ existing, s.store.enrolledDevices.get? deviceId = some existing →
        existing.generation < device.generation)
      (hfloor : s.store.enrolledDevices.get? deviceId = none →
        ∀ entry floor, s.store.revokedDevices.get? deviceId = some entry →
          entry.generationFloor = some floor → unixMicro floor < device.generation)
  | removes (toPrune toFloor : ℕ) (hop : op = .revoke deviceId toPrune toFloor)
      (hclock : s.clock ≤ s'.clock) (existing : EnrolledDevice) (entry : RevokedDevice)
      (floor : ℕ) (hexisting : s.store.enrolledDevices.get? deviceId = some existing)
      (henrolled : s'.store.enrolledDevices.get? deviceId = none)
      (hentry : s'.store.revokedDevices.get? deviceId = some entry)
      (hfloor : entry.generationFloor = some floor)
      (hafter : existing.generation < unixMicro floor)
      (hexpires : s.clock + credentialTtl ≤ entry.expiresAt)

variable {s : EnrollmentState} {deviceId : String} {op : EnrollmentOp}

open DeviceStore

theorem moves_write (credentialTtl : ℕ) (deviceId : String) (device : EnrolledDevice)
    (pending : List PendingIssue) :
    Moves credentialTtl deviceId op s { s with store := s.store.write device, pending } := by
  rcases eq_or_ne deviceId device.deviceId with rfl | hne
  · refine .writes rfl (s.store.stamped device) get?_write_self ?_ ?_
    · exact fun existing hexisting => generation_stamped_of_enrolled hexisting
    · exact fun hnone entry floor hentry hfloor =>
        generation_stamped_of_revoked hnone hentry hfloor
  · exact .keeps le_rfl (Table.get?_insert_of_ne hne _ _) (.inl (Table.get?_erase_of_ne hne _))

theorem moves_isRevoked (credentialTtl : ℕ) (deviceId other : String) {now clock : ℕ}
    (hclock : s.clock ≤ clock) (hnow : now ≤ clock) :
    Moves credentialTtl deviceId op s
      { s with store := (s.store.isRevoked other now).1, clock } := by
  rcases s.store.isRevoked_cases other now with heq | ⟨entry, hentry, hexpired, heq⟩
  · rw [heq]
    exact .keeps hclock rfl (.inl rfl)
  · rw [heq]
    refine .keeps hclock rfl ?_
    grind

/-- Cleaning up keeps the tombstones in force. -/
theorem get?_pruneExpiredRevocations (store : DeviceStore) (deviceId : String) (now : ℕ) :
    (store.pruneExpiredRevocations now).revokedDevices.get? deviceId =
        store.revokedDevices.get? deviceId ∨
      ∃ entry, store.revokedDevices.get? deviceId = some entry ∧ entry.expiresAt ≤ now := by
  simp only [pruneExpiredRevocations, Table.get?_retain]
  rcases hentry : store.revokedDevices.get? deviceId with _ | entry
  · exact .inl rfl
  · grind

/-- **What `writeRevocationLocked` does**: other devices keep their tombstones unless these have
expired; on success the device has a tombstone that stands at least until `validUntil`. -/
theorem writeRevocationLocked_spec (store : DeviceStore) (deviceId : String)
    (validUntil now : ℕ) {store' : DeviceStore} {written : Bool}
    (h : store.writeRevocationLocked deviceId validUntil now = (store', written)) :
    store'.enrolledDevices = store.enrolledDevices ∧
    (∀ other, other ≠ deviceId ∨ written = false →
      store'.revokedDevices.get? other = store.revokedDevices.get? other ∨
        ∃ entry, store.revokedDevices.get? other = some entry ∧ entry.expiresAt ≤ now) ∧
    (written = true → ∃ entry, store'.revokedDevices.get? deviceId = some entry ∧
      validUntil ≤ entry.expiresAt) := by
  unfold writeRevocationLocked at h
  dsimp only at h
  split at h
  · cases h
    refine ⟨rfl, fun other hother => ?_, fun _ => ⟨_, Table.get?_insert_self .., le_max_right _ _⟩⟩
    grind [get?_pruneExpiredRevocations]
  · split at h
    · cases h
      exact ⟨rfl, fun other _ => get?_pruneExpiredRevocations store other now, nofun⟩
    · cases h
      refine ⟨rfl, fun other hother => ?_, fun _ => ⟨_, Table.get?_insert_self .., le_rfl⟩⟩
      grind [get?_pruneExpiredRevocations]

theorem moves_revoke (credentialTtl : ℕ) (deviceId other : String) {toPrune toFloor : ℕ}
    {store : DeviceStore} {result : RevokeResult} {generation : ℕ}
    (h : s.store.revokeEnrollment other credentialTtl s.clock (s.clock + toPrune)
      (s.clock + toPrune + toFloor) = (store, result, generation)) :
    Moves credentialTtl deviceId (.revoke other toPrune toFloor) s
      { s with store, clock := s.clock + toPrune + toFloor } := by
  unfold revokeEnrollment at h
  split at h
  · cases h
    exact .keeps (by simp only; omega) rfl (.inl rfl)
  · rename_i enrolled henrolled
    split at h
    · rename_i store' hwrite
      cases h
      obtain ⟨hsame, hothers, -⟩ := writeRevocationLocked_spec _ _ _ _ hwrite
      refine .keeps (by simp only; omega) (by rw [hsame]) ?_
      grind
    · rename_i store' hwrite
      cases h
      obtain ⟨hsame, hothers, hwritten⟩ := writeRevocationLocked_spec _ _ _ _ hwrite
      obtain ⟨entry, hentry, hexpires⟩ := hwritten rfl
      simp only [entomb, hentry]
      rcases eq_or_ne deviceId other with rfl | hne
      · exact .removes toPrune toFloor rfl (by simp only; omega) enrolled _ _ henrolled
          (Table.get?_erase_self ..) (Table.get?_insert_self ..) rfl (unixMicro_lt_next _ _)
          hexpires
      · refine .keeps (by simp only; omega)
          (by grind) ?_
        grind

theorem enrollmentClaimsCurrent_store (config : EnrollmentConfig) (store : DeviceStore)
    (claims : CredentialClaims) (publicKey : String) (now revokedAt : ℕ) :
    (enrollmentClaimsCurrent config store claims publicKey now revokedAt).1 = store ∨
      (enrollmentClaimsCurrent config store claims publicKey now revokedAt).1 =
        (store.isRevoked claims.deviceId revokedAt).1 := by
  grind [enrollmentClaimsCurrent]

theorem refreshCredential_store (config : EnrollmentConfig) (s : EnrollmentState)
    (deviceId publicKey : String) (readAt : ℕ) (proof replayed : Bool) :
    (refreshCredential config s deviceId publicKey readAt proof replayed).1 = s ∨
      (refreshCredential config s deviceId publicKey readAt proof replayed).1 =
        { s with store := (s.store.isRevoked deviceId readAt).1 } := by
  grind [refreshCredential]

/-- **One operation moves every device** in one of the three ways. -/
theorem moves_step (config : EnrollmentConfig) (deviceId : String) (s : EnrollmentState)
    (op : EnrollmentOp) :
    Moves config.credentialTtl deviceId op s (enrollmentStep config s op).1 := by
  cases op with
  | tick elapsed => exact .keeps (Nat.le_add_right _ _) rfl (.inl rfl)
  | enroll other publicKey platform protocolVersion readAt =>
    dsimp only [enrollmentStep]
    generalize EnrolledDevice.mk other publicKey platform protocolVersion (min readAt s.clock) =
      device
    unfold replaceEnrollment
    rcases s.store.putEnrollment_cases device with ⟨result, hrefused, heq⟩ | heq
    · rw [heq]
      cases result with
      | ok => exact absurd rfl hrefused
      | _ => exact .keeps le_rfl rfl (.inl rfl)
    · grind [moves_write]
  | issue place =>
    dsimp only [enrollmentStep]
    split
    · exact .keeps le_rfl rfl (.inl rfl)
    · split <;> exact .keeps le_rfl rfl (.inl rfl)
  | refresh other publicKey readAt proof replayed =>
    dsimp only [enrollmentStep]
    rcases refreshCredential_store config s other publicKey (min readAt s.clock) proof replayed
      with heq | heq
    · rw [heq]
      exact .keeps le_rfl rfl (.inl rfl)
    · grind [moves_isRevoked]
  | revoke other toPrune toFloor =>
    grind [enrollmentStep, moves_revoke]
  | isRevoked other readAt =>
    grind [enrollmentStep, moves_isRevoked]
  | check claims publicKey elapsed =>
    dsimp only [enrollmentStep]
    rcases enrollmentClaimsCurrent_store config s.store claims publicKey s.clock
      (s.clock + elapsed) with heq | heq
    · rw [heq]
      exact .keeps (Nat.le_add_right _ _) rfl (.inl rfl)
    · grind [moves_isRevoked]

theorem Moves.clock_le {credentialTtl : ℕ} {s' : EnrollmentState}
    (h : Moves credentialTtl deviceId op s s') : s.clock ≤ s'.clock := by
  cases h with
  | keeps hclock | removes _ _ _ hclock => exact hclock
  | writes hclock => exact hclock.ge

/-! ## The fence -/

/-- **No credential of the generation with this expiry is accepted, now or later**: it has
expired, a later generation is enrolled, or none is enrolled and every later one will be above. -/
inductive Fenced (s : EnrollmentState) (deviceId : String) (generation expiresAt : ℕ) : Prop
  | expired (hexpired : expiresAt ≤ unixSeconds s.clock)
  | surpassed (device : EnrolledDevice)
      (henrolled : s.store.enrolledDevices.get? deviceId = some device)
      (hlt : generation < device.generation)
  | entombed (henrolled : s.store.enrolledDevices.get? deviceId = none) (entry : RevokedDevice)
      (floor : ℕ) (hentry : s.store.revokedDevices.get? deviceId = some entry)
      (hfloor : entry.generationFloor = some floor) (hlt : generation < unixMicro floor)
      (hlong : expiresAt * second ≤ entry.expiresAt)

/-- The generation, or a later one, is enrolled. -/
def Enrolled (s : EnrollmentState) (deviceId : String) (generation : ℕ) : Prop :=
  ∃ device, s.store.enrolledDevices.get? deviceId = some device ∧ generation ≤ device.generation

/-- **The generation is enrolled, or a later one, or it is fenced.** -/
def Standing (s : EnrollmentState) (deviceId : String) (generation expiresAt : ℕ) : Prop :=
  Enrolled s deviceId generation ∨ Fenced s deviceId generation expiresAt

section Fence

variable {s' : EnrollmentState} {credentialTtl generation expiresAt : ℕ}

theorem le_unixSeconds {time : ℕ} (h : expiresAt * second ≤ time) :
    expiresAt ≤ unixSeconds time := (Nat.le_div_iff_mul_le (by decide)).mpr h

section

variable (hmoves : Moves credentialTtl deviceId op s s')

include hmoves

/-- What is enrolled is fenced by a removal, if a tombstone written now outlives the credential. -/
theorem standing_of_enrolled (h : Enrolled s deviceId generation)
    (hlong : expiresAt * second ≤ s.clock + credentialTtl) :
    Standing s' deviceId generation expiresAt := by
  obtain ⟨device, henrolled, hle⟩ := h
  cases hmoves with
  | keeps _ hsame => exact .inl ⟨device, hsame.trans henrolled, hle⟩
  | writes _ device' henrolled' hafter =>
    exact .inl ⟨device', henrolled', hle.trans (hafter device henrolled).le⟩
  | removes _ _ _ _ existing entry floor hexisting hnone hentry hfloor hafter hexpires =>
    obtain rfl := Option.some.inj (henrolled.symm.trans hexisting)
    exact .inr (.entombed hnone entry floor hentry hfloor (hle.trans_lt hafter)
      (hlong.trans hexpires))

/-- **What is fenced stays fenced.** -/
theorem fenced_of_moves (hlong : expiresAt * second ≤ s.clock + credentialTtl)
    (h : Fenced s deviceId generation expiresAt) : Fenced s' deviceId generation expiresAt := by
  cases h with
  | expired hexpired => exact .expired (hexpired.trans (unixSeconds_mono hmoves.clock_le))
  | surpassed device henrolled hlt =>
    cases hmoves with
    | keeps _ hsame => exact .surpassed device (hsame.trans henrolled) hlt
    | writes _ device' henrolled' hafter =>
      exact .surpassed device' henrolled' (hlt.trans (hafter device henrolled))
    | removes _ _ _ _ existing entry floor hexisting hnone hentry hfloor hafter hexpires =>
      obtain rfl := Option.some.inj (henrolled.symm.trans hexisting)
      exact .entombed hnone entry floor hentry hfloor (hlt.trans hafter) (hlong.trans hexpires)
  | entombed henrolled entry floor hentry hfloor hlt houtlives =>
    cases hmoves with
    | keeps hclock hsame hrevoked =>
      rcases hrevoked with heq | ⟨entry', hentry', hgone⟩
      · exact .entombed (hsame.trans henrolled) entry floor (heq.trans hentry) hfloor hlt houtlives
      · -- The tombstone may be gone: the credential has expired.
        obtain rfl := Option.some.inj (hentry.symm.trans hentry')
        exact .expired (le_unixSeconds (houtlives.trans hgone))
    | writes _ device' henrolled' _ habove =>
      exact .surpassed device' henrolled' (hlt.trans (habove henrolled entry floor hentry hfloor))
    | removes _ _ _ _ existing _ _ hexisting => cases henrolled.symm.trans hexisting

theorem standing_of_moves (hlong : expiresAt * second ≤ s.clock + credentialTtl)
    (h : Standing s deviceId generation expiresAt) : Standing s' deviceId generation expiresAt :=
  h.elim (fun h => standing_of_enrolled hmoves h hlong)
    fun h => .inr (fenced_of_moves hmoves hlong h)

end

/-- **A fenced credential is rejected.** -/
theorem Fenced.rejected {claims : CredentialClaims}
    (h : Fenced s claims.deviceId claims.enrollmentGeneration claims.expiresAt)
    (config : EnrollmentConfig) (publicKey : String) (revokedAt : ℕ) :
    (enrollmentClaimsCurrent config s.store claims publicKey s.clock revokedAt).2 ≠ .current := by
  have hsame : (s.store.isRevoked claims.deviceId revokedAt).1.enrolledDevices =
      s.store.enrolledDevices := by
    rcases s.store.isRevoked_cases claims.deviceId revokedAt with heq | ⟨_, _, _, heq⟩ <;> rw [heq]
  unfold enrollmentClaimsCurrent
  split
  · exact nofun
  rename_i hlive
  dsimp only
  rw [hsame]
  cases h with
  | expired hexpired => exact absurd hexpired hlive
  | surpassed device henrolled hlt =>
    grind [EnrolledDevice.matchesClaims]
  | entombed henrolled =>
    rw [henrolled]
    exact nofun

/-- **An enrollment is above every generation that stands** and whose credential has not
expired. -/
theorem Standing.lt_stamped (h : Standing s deviceId generation expiresAt)
    (hlive : unixSeconds s.clock < expiresAt) {device : EnrolledDevice}
    (hdevice : device.deviceId = deviceId) :
    generation < (s.store.stamped device).generation := by
  subst hdevice
  rcases h with ⟨existing, hexisting, hle⟩ | hfenced
  · exact hle.trans_lt (generation_stamped_of_enrolled hexisting)
  · cases hfenced with
    | expired hexpired => exact absurd hexpired hlive.not_ge
    | surpassed existing hexisting hlt =>
      exact hlt.trans (generation_stamped_of_enrolled hexisting)
    | entombed hnone entry floor hentry hfloor hlt =>
      exact hlt.trans (generation_stamped_of_revoked hnone hentry hfloor)

end Fence

/-! ## What a step returns -/

section Outcomes

variable {generation : ℕ} {claims : CredentialClaims}

theorem of_issueCredential {publicKey : String} {now : ℕ}
    (h : issueCredential config deviceId publicKey generation now = some claims) :
    claims.deviceId = deviceId ∧ claims.enrollmentGeneration = generation ∧
      claims.expiresAt * second ≤ now + config.credentialTtl := by
  unfold issueCredential at h
  split at h
  · cases h
  · cases h
    exact ⟨rfl, rfl, Nat.div_mul_le_self _ _⟩

/-- The generation of the claims is enrolled, or a request waits to issue a credential of it. -/
def Presentable (s : EnrollmentState) (claims : CredentialClaims) : Prop :=
  (∃ device, s.store.enrolledDevices.get? claims.deviceId = some device ∧
      device.generation = claims.enrollmentGeneration) ∨
    ∃ request ∈ s.pending, request.deviceId = claims.deviceId ∧
      request.generation = claims.enrollmentGeneration

/-- **What a step returns**, as far as credentials, removals and enrollments are concerned. -/
inductive Outcome (config : EnrollmentConfig) (s : EnrollmentState) :
    EnrollmentState × EnrollmentOutput → Prop
  | issues {s' : EnrollmentState} (claims : CredentialClaims) (hclaims : Presentable s claims)
      (hexpires : claims.expiresAt * second ≤ s.clock + config.credentialTtl)
      (hpending : s'.pending ⊆ s.pending) : Outcome config s (s', .issued claims)
  | revokes {s' : EnrollmentState} (deviceId : String) (existing : EnrolledDevice)
      (hexisting : s.store.enrolledDevices.get? deviceId = some existing)
      (hnone : s'.store.enrolledDevices.get? deviceId = none) (hpending : s'.pending ⊆ s.pending) :
      Outcome config s (s', .revoked .ok deviceId existing.generation)
  | enrolls {s' : EnrollmentState} (device : EnrolledDevice)
      (hstore : s'.store = s.store.write device)
      (hpending : s'.pending = s.pending ++
        [⟨device.deviceId, device.publicKey, (s.store.stamped device).generation⟩]) :
      Outcome config s (s', .enrolled .ok device.deviceId (s.store.stamped device).generation)
  | other {s' : EnrollmentState} {output : EnrollmentOutput}
      (hissued : ∀ claims, output ≠ .issued claims)
      (hrevoked : ∀ deviceId generation, output ≠ .revoked .ok deviceId generation)
      (henrolled : ∀ deviceId generation, output ≠ .enrolled .ok deviceId generation)
      (hpending : s'.pending ⊆ s.pending) : Outcome config s (s', output)

theorem outcome_replaceEnrollment (config : EnrollmentConfig) (s : EnrollmentState)
    (device : EnrolledDevice) : Outcome config s (replaceEnrollment s device) := by
  unfold replaceEnrollment
  rcases s.store.putEnrollment_cases device with ⟨result, hrefused, heq⟩ | heq
  · rw [heq]
    cases result with
    | ok => exact absurd rfl hrefused
    | _ => exact .other nofun nofun nofun (List.Subset.refl _)
  · rw [heq]
    dsimp only
    split
    · exact .other nofun nofun nofun (List.Subset.refl _)
    · exact .enrolls device rfl rfl

theorem outcome_refreshCredential (config : EnrollmentConfig) (s : EnrollmentState)
    (deviceId publicKey : String) (readAt : ℕ) (proof replayed : Bool) :
    Outcome config s (refreshCredential config s deviceId publicKey readAt proof replayed) := by
  unfold refreshCredential
  split
  · exact .other nofun nofun nofun (List.Subset.refl _)
  · rename_i device hdevice
    split
    · exact .other nofun nofun nofun (List.Subset.refl _)
    · dsimp only
      split
      · exact .other nofun nofun nofun (List.Subset.refl _)
      · split
        · rename_i claims hissued
          obtain ⟨rfl, hgeneration, hexpires⟩ := of_issueCredential hissued
          exact .issues claims (.inl ⟨device, hdevice, hgeneration.symm⟩) hexpires
            (List.Subset.refl _)
        · exact .other nofun nofun nofun (List.Subset.refl _)

theorem outcome_revoke (config : EnrollmentConfig) (s : EnrollmentState) (deviceId : String)
    (toPrune toFloor : ℕ) :
    Outcome config s (enrollmentStep config s (.revoke deviceId toPrune toFloor)) := by
  dsimp only [enrollmentStep]
  rcases hrevoke : s.store.revokeEnrollment deviceId config.credentialTtl s.clock
    (s.clock + toPrune) (s.clock + toPrune + toFloor) with ⟨store, result, removed⟩
  unfold revokeEnrollment at hrevoke
  split at hrevoke
  · cases hrevoke
    exact .other nofun nofun nofun (List.Subset.refl _)
  · rename_i existing hexisting
    split at hrevoke
    · cases hrevoke
      exact .other nofun nofun nofun (List.Subset.refl _)
    · rename_i store' hwrite
      cases hrevoke
      refine .revokes deviceId existing hexisting ?_ (List.Subset.refl _)
      grind [entomb]

theorem outcome_step (config : EnrollmentConfig) (s : EnrollmentState) (op : EnrollmentOp) :
    Outcome config s (enrollmentStep config s op) := by
  cases op with
  | tick | isRevoked | check => exact .other nofun nofun nofun (List.Subset.refl _)
  | enroll => exact outcome_replaceEnrollment config s _
  | issue place =>
    dsimp only [enrollmentStep]
    split
    · exact .other nofun nofun nofun (List.Subset.refl _)
    · rename_i request hrequest
      split
      · rename_i claims hissued
        obtain ⟨hdevice, hgeneration, hexpires⟩ := of_issueCredential hissued
        exact .issues claims
          (.inr ⟨request, List.mem_of_getElem? hrequest, hdevice.symm, hgeneration.symm⟩) hexpires
          (List.eraseIdx_subset ..)
      · exact .other nofun nofun nofun (List.eraseIdx_subset ..)
  | refresh => exact outcome_refreshCredential ..
  | revoke => exact outcome_revoke ..

/-- A credential expires at most a lifetime after the step that issued it. -/
theorem of_issued (h : (enrollmentStep config s op).2 = .issued claims) :
    Presentable s claims ∧ claims.expiresAt * second ≤ s.clock + config.credentialTtl := by
  have houtcome := outcome_step config s op
  generalize enrollmentStep config s op = outcome at houtcome h
  cases houtcome with
  | issues claims hclaims hexpires =>
    cases h
    exact ⟨hclaims, hexpires⟩
  | revokes | enrolls => cases h
  | other hissued => exact absurd h (hissued claims)

/-- A successful revocation removes the enrollment of the generation it returns. -/
theorem removed_of_revoked (h : (enrollmentStep config s op).2 = .revoked .ok deviceId generation) :
    (∃ existing, s.store.enrolledDevices.get? deviceId = some existing ∧
      existing.generation = generation) ∧
    (enrollmentStep config s op).1.store.enrolledDevices.get? deviceId = none := by
  have houtcome := outcome_step config s op
  generalize enrollmentStep config s op = outcome at houtcome h ⊢
  cases houtcome with
  | revokes _ existing hexisting hnone | other _ hrevoked =>
    simp_all
  | issues | enrolls => cases h

/-- A successful enrollment is the stamped request. -/
theorem stamped_of_enrolled
    (h : (enrollmentStep config s op).2 = .enrolled .ok deviceId generation) :
    ∃ device : EnrolledDevice, device.deviceId = deviceId ∧
      (s.store.stamped device).generation = generation := by
  have houtcome := outcome_step config s op
  generalize enrollmentStep config s op = outcome at houtcome h
  cases houtcome with
  | enrolls device => grind
  | issues | revokes => cases h
  | other _ _ henrolled => simp_all

end Outcomes

/-! ## Runs -/

/-- **A revocation meets no enroll request** of the device that has stored its enrollment and not
yet issued its credential. -/
def RevokesIssued (s : EnrollmentState) : EnrollmentOp → Prop
  | .revoke deviceId _ _ => ∀ request ∈ s.pending, request.deviceId ≠ deviceId
  | _ => True

/-- The request of a waiting credential, or a later one of its device, is enrolled. -/
def WaitingEnrolled (s : EnrollmentState) : Prop :=
  ∀ request ∈ s.pending, Enrolled s request.deviceId request.generation

section Runs

variable {clock generation expiresAt : ℕ} {claims : CredentialClaims} {xs : List EnrollmentOp}

theorem clock_le_step (config : EnrollmentConfig) (s : EnrollmentState) (op : EnrollmentOp) :
    s.clock ≤ (enrollmentStep config s op).1.clock := (moves_step config "" s op).clock_le

theorem clock_le_runFrom (s : EnrollmentState) (xs : List EnrollmentOp) :
    s.clock ≤ ((enrollmentMachine config clock).runFrom s xs).clock :=
  Machine.runFrom_always _ (I := fun s' => s.clock ≤ s'.clock) le_rfl
    (fun s' op h => h.trans (clock_le_step config s' op)) xs

/-- **A fence stands for the rest of the run.** -/
theorem fenced_runFrom (hlong : expiresAt * second ≤ s.clock + config.credentialTtl)
    (h : Fenced s deviceId generation expiresAt) (xs : List EnrollmentOp) :
    Fenced ((enrollmentMachine config clock).runFrom s xs) deviceId generation expiresAt := by
  refine (Machine.runFrom_always _ (I := fun s => expiresAt * second ≤ s.clock +
    config.credentialTtl ∧ Fenced s deviceId generation expiresAt) ⟨hlong, h⟩ ?_ xs).2
  rintro s op ⟨hlong, h⟩
  exact ⟨hlong.trans (Nat.add_le_add_right (clock_le_step config s op) _),
    fenced_of_moves (moves_step config deviceId s op) hlong h⟩

theorem standing_runFrom (hlong : expiresAt * second ≤ s.clock + config.credentialTtl)
    (h : Standing s deviceId generation expiresAt) (xs : List EnrollmentOp) :
    Standing ((enrollmentMachine config clock).runFrom s xs) deviceId generation expiresAt := by
  refine (Machine.runFrom_always _ (I := fun s => expiresAt * second ≤ s.clock +
    config.credentialTtl ∧ Standing s deviceId generation expiresAt) ⟨hlong, h⟩ ?_ xs).2
  rintro s op ⟨hlong, h⟩
  exact ⟨hlong.trans (Nat.add_le_add_right (clock_le_step config s op) _),
    standing_of_moves (moves_step config deviceId s op) hlong h⟩

/-- What is enrolled stays so, unless it is revoked. -/
theorem enrolled_step (h : Enrolled s deviceId generation)
    (hkept : ∀ toPrune toFloor, op ≠ .revoke deviceId toPrune toFloor) :
    Enrolled (enrollmentStep config s op).1 deviceId generation := by
  obtain ⟨device, henrolled, hle⟩ := h
  cases moves_step config deviceId s op with
  | keeps _ hsame => exact ⟨device, hsame.trans henrolled, hle⟩
  | writes _ device' henrolled' hafter =>
    exact ⟨device', henrolled', hle.trans (hafter device henrolled).le⟩
  | removes toPrune toFloor hop => exact absurd hop (hkept toPrune toFloor)

/-- A waiting request stays enrolled as long as no revocation meets it. -/
theorem waitingEnrolled_step (h : WaitingEnrolled s) (hop : RevokesIssued s op) :
    WaitingEnrolled (enrollmentStep config s op).1 := by
  have hold : ∀ request ∈ s.pending,
      Enrolled (enrollmentStep config s op).1 request.deviceId request.generation := by
    intro request hrequest
    refine enrolled_step (h request hrequest) ?_
    rintro toPrune toFloor rfl
    exact hop request hrequest rfl
  have houtcome := outcome_step config s op
  intro request hrequest
  generalize enrollmentStep config s op = outcome at houtcome hold hrequest ⊢
  cases houtcome with
  | issues _ _ _ hpending | revokes _ _ _ _ hpending | other _ _ _ hpending =>
    exact hold request (hpending hrequest)
  | enrolls device hstore hpending =>
    rw [hpending] at hrequest
    rcases List.mem_append.mp hrequest with hrequest | hrequest
    · exact hold request hrequest
    · -- the request has just been stored
      cases List.mem_singleton.mp hrequest
      exact ⟨_, by rw [hstore]; exact get?_write_self, le_rfl⟩

theorem waitingEnrolled_run (h : (enrollmentMachine config clock).Along RevokesIssued xs) :
    WaitingEnrolled ((enrollmentMachine config clock).run xs) :=
  (enrollmentMachine config clock).runFrom_invariant (fun _ h => absurd h List.not_mem_nil)
    (fun _ _ => waitingEnrolled_step) h

theorem run_append_cons (first : List EnrollmentOp) (op : EnrollmentOp) (rest : List EnrollmentOp) :
    (enrollmentMachine config clock).run (first ++ op :: rest) =
      (enrollmentMachine config clock).runFrom
        (enrollmentStep config ((enrollmentMachine config clock).run first) op).1 rest :=
  Machine.run_append _ first (op :: rest)

/-- The claims were issued in the run of `xs`. -/
def IssuedIn (config : EnrollmentConfig) (clock : ℕ) (xs : List EnrollmentOp)
    (claims : CredentialClaims) : Prop :=
  ∃ first op rest, xs = first ++ op :: rest ∧
    (enrollmentStep config ((enrollmentMachine config clock).run first) op).2 = .issued claims

/-- **Every credential that was issued stands**, and a tombstone written now outlives it. -/
theorem standing_of_issuedIn (h : (enrollmentMachine config clock).Along RevokesIssued xs)
    (hissued : IssuedIn config clock xs claims) :
    claims.expiresAt * second ≤
        ((enrollmentMachine config clock).run xs).clock + config.credentialTtl ∧
      Standing ((enrollmentMachine config clock).run xs) claims.deviceId
        claims.enrollmentGeneration claims.expiresAt := by
  obtain ⟨first, op, rest, rfl, hstep⟩ := hissued
  obtain ⟨hpresentable, hexpires⟩ := of_issued hstep
  have hwaiting := waitingEnrolled_run
    (((enrollmentMachine config clock).alongFrom_append _ first (op :: rest)).mp h).1
  have henrolled : Enrolled ((enrollmentMachine config clock).run first) claims.deviceId
      claims.enrollmentGeneration := by
    rcases hpresentable with ⟨device, hdevice, hgeneration⟩ |
      ⟨request, hrequest, hdevice, hgeneration⟩
    · exact ⟨device, hdevice, hgeneration.ge⟩
    · exact hdevice ▸ hgeneration ▸ hwaiting request hrequest
  rw [Machine.run_append]
  exact ⟨hexpires.trans (Nat.add_le_add_right (clock_le_runFrom _ _) _),
    standing_runFrom hexpires (.inl henrolled) (op :: rest)⟩

/-- **A revocation fences what stands.** -/
theorem fenced_of_revoked (hlong : expiresAt * second ≤ s.clock + config.credentialTtl)
    (h : Standing s deviceId generation expiresAt) {removed : ℕ}
    (hrevoked : (enrollmentStep config s op).2 = .revoked .ok deviceId removed) :
    Fenced (enrollmentStep config s op).1 deviceId generation expiresAt := by
  rcases standing_of_moves (moves_step config deviceId s op) hlong h with ⟨device, hdevice, -⟩ | h
  · cases hdevice.symm.trans (removed_of_revoked hrevoked).2
  · exact h

/-- **The fence of credentials**, of every run in which no revocation meets an enroll request that
has yet to issue its credential. The credentials that were issued when a revocation succeeds, which
are all that its removed enrollment and the ones before it have, are rejected at every later time.
The generation of an enrollment is above that of every credential of the device that was issued and
has not expired, and above that of every enrollment whose credential is yet to be issued. -/
theorem credential_fence (config : EnrollmentConfig) (clock : ℕ) (before after : List EnrollmentOp)
    (op : EnrollmentOp) (deviceId : String) (generation : ℕ)
    (hrun : (enrollmentMachine config clock).Along RevokesIssued (before ++ op :: after)) :
    ((enrollmentStep config ((enrollmentMachine config clock).run before) op).2 =
        .revoked .ok deviceId generation →
      ∀ claims : CredentialClaims, claims.deviceId = deviceId →
        IssuedIn config clock before claims → ∀ publicKey revokedAt,
          (enrollmentClaimsCurrent config
            ((enrollmentMachine config clock).run (before ++ op :: after)).store claims publicKey
            ((enrollmentMachine config clock).run (before ++ op :: after)).clock revokedAt).2 ≠
          .current) ∧
    ((enrollmentStep config ((enrollmentMachine config clock).run before) op).2 =
        .enrolled .ok deviceId generation →
      (∀ claims : CredentialClaims, claims.deviceId = deviceId →
        IssuedIn config clock before claims →
        unixSeconds ((enrollmentMachine config clock).run before).clock < claims.expiresAt →
        claims.enrollmentGeneration < generation) ∧
      ∀ request ∈ ((enrollmentMachine config clock).run before).pending,
        request.deviceId = deviceId → request.generation < generation) := by
  have hbefore := (((enrollmentMachine config clock).alongFrom_append _ before _).mp hrun).1
  refine ⟨?_, fun henrolled => ?_⟩
  · rintro hrevoked claims rfl hissued publicKey revokedAt
    obtain ⟨hlong, hstanding⟩ := standing_of_issuedIn hbefore hissued
    have hfenced := fenced_of_revoked hlong hstanding hrevoked
    rw [run_append_cons]
    exact (fenced_runFrom (hlong.trans (Nat.add_le_add_right (clock_le_step ..) _)) hfenced
      after).rejected config publicKey revokedAt
  · obtain ⟨device, hdevice, rfl⟩ := stamped_of_enrolled henrolled
    constructor
    · rintro claims rfl hissued hlive
      exact (standing_of_issuedIn hbefore hissued).2.lt_stamped hlive hdevice
    · rintro request hrequest rfl
      obtain ⟨existing, hexisting, hle⟩ := waitingEnrolled_run hbefore request hrequest
      rw [← hdevice] at hexisting
      exact hle.trans_lt (generation_stamped_of_enrolled hexisting)

end Runs

/-! ## A credential issued late -/

/-- Credentials of a day. -/
def dailyConfig : EnrollmentConfig := ⟨86400 * second, 2, 100, 100, by decide⟩

theorem credential_fence_daily :
    (enrollmentClaimsCurrent dailyConfig
      ((enrollmentMachine dailyConfig (1700000000 * second)).run
        ([.enroll "device" "key" "ios" 2 (1700000000 * second), .issue 0] ++
          .revoke "device" 0 0 :: [.enroll "device" "key" "ios" 2 0])).store
      ⟨"device", "key", 1700000000000000, 1700086400⟩ "key"
      ((enrollmentMachine dailyConfig (1700000000 * second)).run
        ([.enroll "device" "key" "ios" 2 (1700000000 * second), .issue 0] ++
          .revoke "device" 0 0 :: [.enroll "device" "key" "ios" 2 0])).clock 0).2 ≠ .current := by
  refine (credential_fence dailyConfig (1700000000 * second)
    [.enroll "device" "key" "ios" 2 (1700000000 * second), .issue 0]
    [.enroll "device" "key" "ios" 2 0] (.revoke "device" 0 0) "device" 1700000000000000 ?_).1
    (by decide +kernel) _ rfl ⟨[.enroll "device" "key" "ios" 2 (1700000000 * second)], .issue 0, [],
      rfl, by decide +kernel⟩ "key" 0
  have hnone : ((enrollmentMachine dailyConfig (1700000000 * second)).run
      [.enroll "device" "key" "ios" 2 (1700000000 * second), .issue 0]).pending = [] := by
    decide +kernel
  refine ⟨trivial, trivial, fun request hrequest => ?_, trivial, trivial⟩
  exact absurd (hnone ▸ hrequest) List.not_mem_nil

/-- Credentials of a second. -/
def shortLivedConfig : EnrollmentConfig := ⟨second, 2, 100, 100, by decide⟩

/-- Two enroll requests read the clock in one microsecond. The first is stored, the device is
revoked, and then the first issues its credential; the second has waited for the lock until the
tombstone has expired. -/
def lateIssue : List EnrollmentOp :=
  [.enroll "device" "key" "ios" 2 (1000 * second), .revoke "device" 0 0, .tick (second / 2),
    .issue 0, .tick (second / 2), .isRevoked "device" (1001 * second + second / 2),
    .enroll "device" "key" "ios" 2 (1000 * second)]

/-- **A credential of a removed enrollment is accepted again**: the enrollment after the
revocation has the removed generation, and the credential of the removed enrollment, issued late,
has not expired. -/
theorem late_credential_accepted :
    ((enrollmentMachine shortLivedConfig (1000 * second + second / 2)).transcript
        lateIssue).map Prod.snd =
      [.enrolled .ok "device" 1000000000, .revoked .ok "device" 1000000000, .none,
        .issued ⟨"device", "key", 1000000000, 1002⟩, .none, .none,
        .enrolled .ok "device" 1000000000] ∧
    (enrollmentClaimsCurrent shortLivedConfig
      ((enrollmentMachine shortLivedConfig (1000 * second + second / 2)).run lateIssue).store
      ⟨"device", "key", 1000000000, 1002⟩ "key"
      ((enrollmentMachine shortLivedConfig (1000 * second + second / 2)).run lateIssue).clock
      ((enrollmentMachine shortLivedConfig (1000 * second + second / 2)).run lateIssue).clock).2 =
      .current := by
  decide +kernel

end SshMobile.Server
