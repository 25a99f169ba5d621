import SshMobile.Connect.CandidateCache

/-!
# Epochs the cache has left

A remote peer that restarts runs a new epoch, and a snapshot of its old epoch that arrives late
must not come back into the cache. The cache remembers the epochs it has left, at most eight of
them: a ninth pushes one out, and a snapshot of that one is taken again.

As long as the snapshots and hints carry at most eight epochs nothing is pushed out. Every call
then only adds to the retired epochs, and it leaves the cached epoch only after retiring it; so an
epoch that was left stays out, and within one epoch the revision only rises. The fingerprint of a
stored revision stays as it is until a hint for another epoch empties it with the candidates.

## Main definitions

* `Leaves`: the call moves the cache away from its epoch
* `Unhinted`: no hint among the calls takes effect
* `StaysAway`: what the memory of retired epochs is for, over a whole run
* `Steps`: what one call does to the cache when nothing is pushed out

## Main results

* `staysAway_iff`: an epoch that was left stays away in every run with at most `n` epochs iff `n`
  is at most eight
-/

namespace SshMobile.Connect

open Library

/-! ## Leaving an epoch -/

/-- The epoch of a snapshot or of a hint. -/
def CacheCall.epoch : CacheCall → RuntimeEpoch
  | .apply _ snapshot _ => snapshot.runtimeEpoch
  | .invalidate _ remoteEpoch _ => remoteEpoch

/-- The epochs that a cache made from `first` meets in a run. -/
def epochsOf (first : ResolvedCandidateSnapshot) (calls : List CacheCall) : Finset RuntimeEpoch :=
  insert first.runtimeEpoch (calls.map CacheCall.epoch).toFinset

/-- **The call moves the cache away from its epoch**: another epoch's snapshot replaces the cached
one, or a hint for another epoch invalidates it. -/
def Leaves (encodedLen : List CandidatePayloadV2 → Option ℕ) (cache : ResolvedCandidateCache)
    (call : CacheCall) : Prop :=
  (cacheStep encodedLen cache call).1.runtimeEpoch ≠ cache.runtimeEpoch ∨
    (cacheStep encodedLen cache call).2 = .inr true

/-- What is cached of the remote peer. -/
def ResolvedCandidateCache.content (cache : ResolvedCandidateCache) :
    RuntimeEpoch × ℕ × List CandidatePayloadV2 × CandidateFingerprint :=
  (cache.runtimeEpoch, cache.revision, cache.candidates, cache.fingerprint)

theorem ResolvedCandidateCache.runtimeEpoch_of_content {cache other : ResolvedCandidateCache}
    (h : cache.content = other.content) : cache.runtimeEpoch = other.runtimeEpoch :=
  congrArg Prod.fst h

/-- No hint among the calls takes effect, from a given cache on. -/
def Unhinted (encodedLen : List CandidatePayloadV2 → Option ℕ)
    (created cache : ResolvedCandidateCache) (calls : List CacheCall) : Prop :=
  (cacheMachine encodedLen created).AlongFrom
    (fun cache call => (cacheStep encodedLen cache call).2 ≠ .inr true) cache calls

/-- **Superseded epochs stay away.** No `apply` of an epoch that the cache has left changes what
is cached. Within one epoch the revision does not decrease, and a revision keeps its fingerprint
unless a hint takes effect, which empties it. -/
structure StaysAway (encodedLen : List CandidatePayloadV2 → Option ℕ)
    (created : ResolvedCandidateCache) (calls : List CacheCall) : Prop where
  away : ∀ before call between order snapshot learnedAt rest,
    calls = before ++ call :: between ++ .apply order snapshot learnedAt :: rest →
    Leaves encodedLen ((cacheMachine encodedLen created).run before) call →
    snapshot.runtimeEpoch = ((cacheMachine encodedLen created).run before).runtimeEpoch →
    ((cacheMachine encodedLen created).run
        (before ++ call :: between ++ [.apply order snapshot learnedAt])).content =
      ((cacheMachine encodedLen created).run (before ++ call :: between)).content
  within : ∀ before between rest, calls = before ++ between ++ rest →
    ((cacheMachine encodedLen created).run (before ++ between)).runtimeEpoch =
      ((cacheMachine encodedLen created).run before).runtimeEpoch →
    ((cacheMachine encodedLen created).run before).revision ≤
        ((cacheMachine encodedLen created).run (before ++ between)).revision ∧
      (((cacheMachine encodedLen created).run before).revision =
          ((cacheMachine encodedLen created).run (before ++ between)).revision →
        ((cacheMachine encodedLen created).run (before ++ between)).fingerprint =
            ((cacheMachine encodedLen created).run before).fingerprint ∨
          ((cacheMachine encodedLen created).run (before ++ between)).fingerprint = [] ∧
            ¬ Unhinted encodedLen created ((cacheMachine encodedLen created).run before) between)

/-! ## Nothing is pushed out -/

/-- The epochs the cache knows of are among these. -/
structure Within (epochs : Finset RuntimeEpoch) (cache : ResolvedCandidateCache) : Prop where
  cached : cache.runtimeEpoch ∈ epochs
  expected : ∀ epoch, cache.expectedEpoch = some epoch → epoch ∈ epochs
  retired : ∀ epoch, cache.retiredEpochs.contains epoch = true → epoch ∈ epochs

/-- **What one call does** when nothing is pushed out: it only adds to the retired epochs, and it
keeps the epoch with a revision and fingerprint that may go on, or it goes to an epoch that was
not retired and retires the one it leaves. A call that is `quiet` empties no fingerprint. -/
structure Steps (quiet : Prop) (cache after : ResolvedCandidateCache) : Prop where
  retires : ∀ epoch, cache.retiredEpochs.contains epoch = true →
    after.retiredEpochs.contains epoch = true
  moves : after.runtimeEpoch = cache.runtimeEpoch ∧ cache.revision ≤ after.revision ∧
      (cache.revision = after.revision →
        after.fingerprint = cache.fingerprint ∨ after.fingerprint = [] ∧ ¬ quiet) ∨
    after.runtimeEpoch ≠ cache.runtimeEpoch ∧
      cache.retiredEpochs.contains after.runtimeEpoch = false ∧
        after.retiredEpochs.contains cache.runtimeEpoch = true

open ResolvedCandidateCache

section Calls

variable {encodedLen : List CandidatePayloadV2 → Option ℕ} {epochs : Finset RuntimeEpoch}
  {cache after : ResolvedCandidateCache} {order : RuntimeEpoch → ℕ} {epoch : RuntimeEpoch}

variable {snapshot : ResolvedCandidateSnapshot} {call : CacheCall}

theorem runtimeEpoch_checkSnapshot {checked : ResolvedCandidateSnapshot}
    {fingerprint : CandidateFingerprint}
    (h : checkSnapshot encodedLen snapshot = .ok (checked, fingerprint)) :
    checked.runtimeEpoch = snapshot.runtimeEpoch := by
  grind [checkSnapshot, ResolvedCandidateSnapshot.normalized]

theorem Steps.refl (quiet : Prop) (cache : ResolvedCandidateCache) : Steps quiet cache cache :=
  ⟨fun _ h => h, .inl ⟨rfl, le_rfl, fun _ => .inl rfl⟩⟩

theorem Steps.trans {quiet quiet' : Prop} {last : ResolvedCandidateCache}
    (h : Steps quiet cache after) (h' : Steps quiet' after last) :
    Steps (quiet ∧ quiet') cache last := by
  refine ⟨fun epoch hepoch => h'.retires epoch (h.retires epoch hepoch), ?_⟩
  -- What was not retired later was not retired before.
  have hbefore (hnew : after.retiredEpochs.contains last.runtimeEpoch = false) :
      cache.retiredEpochs.contains last.runtimeEpoch = false :=
    Bool.eq_false_iff.mpr fun hold => Bool.eq_false_iff.mp hnew (h.retires _ hold)
  rcases h.moves with ⟨hsame, hle, hprint⟩ | ⟨hne, hnew, hleft⟩
  · rcases h'.moves with ⟨hsame', hle', hprint'⟩ | ⟨hne', hnew', hleft'⟩
    · refine .inl ⟨hsame'.trans hsame, hle.trans hle', fun heq => ?_⟩
      rcases hprint' (le_antisymm hle' (heq ▸ hle)) with hkept | ⟨hempty, hhint⟩
      · rcases hprint (le_antisymm hle (heq ▸ hle')) with hkept' | ⟨hempty, hhint⟩
        · exact .inl (hkept.trans hkept')
        · exact .inr ⟨hkept.trans hempty, fun hquiet => hhint hquiet.1⟩
      · exact .inr ⟨hempty, fun hquiet => hhint hquiet.2⟩
    · exact .inr ⟨hsame ▸ hne', hbefore hnew', hsame ▸ hleft'⟩
  · have hgone := h'.retires _ hleft
    rcases h'.moves with ⟨hsame', -⟩ | ⟨-, hnew', -⟩
    · exact .inr ⟨hsame' ▸ hne, hsame' ▸ hnew, hgone⟩
    · refine .inr ⟨fun heq => ?_, hbefore hnew', hgone⟩
      rw [heq, hleft] at hnew'
      cases hnew'

theorem Steps.mono {quiet quiet' : Prop} (h : Steps quiet cache after) (himp : quiet' → quiet) :
    Steps quiet' cache after := by
  refine ⟨h.retires, h.moves.imp_left fun ⟨hsame, hle, hprint⟩ => ⟨hsame, hle, fun heq => ?_⟩⟩
  exact (hprint heq).imp_right fun ⟨hempty, hhint⟩ => ⟨hempty, fun hquiet => hhint (himp hquiet)⟩

section Room

variable (hcard : epochs.card ≤ maxRetiredEpochs) (h : Within epochs cache)

include hcard h

/-- A set that has room, or has the epoch already, pushes nothing out. -/
theorem retireEpoch_eq (hepoch : epoch ∈ epochs) : cache.retireEpoch order epoch =
      { cache with retiredEpochs := cache.retiredEpochs.insert epoch () } := by
  unfold retireEpoch
  rw [if_neg]
  rintro ⟨hfull, hnew⟩
  have hless : cache.retiredEpochs.size ≤ (epochs.erase epoch).card :=
    Table.size_le_card fun other hother =>
      Finset.mem_erase.mpr ⟨fun heq => hnew (heq ▸ hother), h.retired other hother⟩
  rw [Finset.card_erase_of_mem hepoch] at hless
  have hpos := Finset.card_pos.mpr ⟨epoch, hepoch⟩
  omega

theorem Within.retireEpoch (order : RuntimeEpoch → ℕ) (hepoch : epoch ∈ epochs) :
    Within epochs (cache.retireEpoch order epoch) := by
  rw [retireEpoch_eq hcard h hepoch]
  refine ⟨h.cached, h.expected, fun other hother => ?_⟩
  have hold := h.retired other
  grind

theorem contains_retireEpoch_of_contains (hepoch : epoch ∈ epochs) {other : RuntimeEpoch}
    (hother : cache.retiredEpochs.contains other = true) :
    (cache.retireEpoch order epoch).retiredEpochs.contains other = true := by
  rw [retireEpoch_eq hcard h hepoch]
  grind

/-- Settling an expectation retires at most the expected epoch. -/
theorem settleExpected_steps (order : RuntimeEpoch → ℕ) (epoch : RuntimeEpoch) :
    Within epochs (cache.settleExpected order epoch) ∧
      ∀ other, cache.retiredEpochs.contains other = true →
        (cache.settleExpected order epoch).retiredEpochs.contains other = true := by
  unfold settleExpected
  split
  · exact ⟨h, fun _ hother => hother⟩
  · rename_i expected hexpected
    have hmem := h.expected expected hexpected
    have hafter : Within epochs (cache.retireEpoch order expected) := h.retireEpoch hcard order hmem
    split
    · exact ⟨⟨h.cached, nofun, h.retired⟩, fun _ hother => hother⟩
    · exact ⟨⟨hafter.cached, nofun, hafter.retired⟩,
        fun _ hother => contains_retireEpoch_of_contains hcard h hmem hother⟩

theorem apply_steps (hepoch : snapshot.runtimeEpoch ∈ epochs) (learnedAt : ℕ) :
    Within epochs (cache.apply encodedLen order snapshot learnedAt).1 ∧
      Steps True cache (cache.apply encodedLen order snapshot learnedAt).1 := by
  unfold apply
  split
  · exact ⟨h, .refl True cache⟩
  rename_i checked fingerprint hcheck
  rw [← runtimeEpoch_checkSnapshot hcheck] at hepoch
  split
  · exact ⟨h, .refl True cache⟩
  rename_i hretired
  obtain ⟨hsettled, hkeeps⟩ := settleExpected_steps hcard h order checked.runtimeEpoch
  have hmerge := merged_merge (cache.settleExpected order checked.runtimeEpoch) checked fingerprint
    order learnedAt
  generalize merge _ _ _ _ _ = outcome at hmerge ⊢
  have hsame : Steps True cache (cache.settleExpected order checked.runtimeEpoch) :=
    ⟨hkeeps, .inl ⟨by simp, by simp, fun _ => .inl (by simp)⟩⟩
  cases hmerge with
  | stale | refused => exact ⟨hsettled, hsame⟩
  | refreshed => exact ⟨⟨hsettled.cached, hsettled.expected, hsettled.retired⟩, hsame.1, hsame.2⟩
  | replaced hlater =>
    have hafter := hsettled.retireEpoch hcard order hsettled.cached
    refine ⟨⟨hepoch, hafter.expected, hafter.retired⟩, fun other hother => ?_, ?_⟩
    · exact contains_retireEpoch_of_contains hcard hsettled hsettled.cached (hkeeps other hother)
    · have hleft := contains_replace order checked fingerprint learnedAt
        (cache.settleExpected order checked.runtimeEpoch)
      simp only [settleExpected_runtimeEpoch, settleExpected_revision] at hlater hleft
      by_cases hsameEpoch : checked.runtimeEpoch = cache.runtimeEpoch
      · have hlt := hlater hsameEpoch
        exact .inl ⟨hsameEpoch, hlt.le, fun heq => absurd heq hlt.ne⟩
      · exact .inr ⟨hsameEpoch, Bool.eq_false_iff.mpr hretired, hleft⟩

theorem invalidate_steps {remoteEpoch : RuntimeEpoch} (hepoch : remoteEpoch ∈ epochs) (now : ℕ) :
    Within epochs (cache.invalidateForRemoteEpoch order remoteEpoch now).1 ∧
      Steps ((cache.invalidateForRemoteEpoch order remoteEpoch now).2 = false) cache
        (cache.invalidateForRemoteEpoch order remoteEpoch now).1 := by
  have hafter : Within epochs (cache.retireEpoch order cache.runtimeEpoch) :=
    h.retireEpoch hcard order h.cached
  unfold invalidateForRemoteEpoch
  split
  · exact ⟨h, .refl _ cache⟩
  · refine ⟨⟨h.cached, fun epoch heq => Option.some.inj heq ▸ hepoch, hafter.retired⟩, ?_,
      .inl ⟨rfl, le_rfl, fun _ => .inr ⟨rfl, Bool.true_eq_false.mp⟩⟩⟩
    exact fun _ hother => contains_retireEpoch_of_contains hcard h h.cached hother

theorem cacheStep_steps (encodedLen : List CandidatePayloadV2 → Option ℕ)
    (hepoch : call.epoch ∈ epochs) :
    Within epochs (cacheStep encodedLen cache call).1 ∧
      Steps ((cacheStep encodedLen cache call).2 ≠ .inr true) cache
        (cacheStep encodedLen cache call).1 := by
  cases call with
  | apply order snapshot learnedAt =>
    obtain ⟨hwithin, hsteps⟩ := apply_steps hcard h hepoch learnedAt
    exact ⟨hwithin, hsteps.mono fun _ => trivial⟩
  | invalidate order remoteEpoch now =>
    obtain ⟨hwithin, hsteps⟩ := invalidate_steps hcard h hepoch now
    exact ⟨hwithin, hsteps.mono fun hne => Bool.eq_false_iff.mpr fun htrue => hne (htrue ▸ rfl)⟩

/-- The epoch that a call leaves is retired. -/
theorem contains_of_leaves (hepoch : call.epoch ∈ epochs)
    (hleaves : Leaves encodedLen cache call) :
    (cacheStep encodedLen cache call).1.retiredEpochs.contains cache.runtimeEpoch = true := by
  rcases hleaves with hne | hhint
  · rcases (cacheStep_steps hcard h encodedLen hepoch).2.moves with ⟨hsame, -⟩ | ⟨-, hleft⟩
    · exact absurd hsame hne
    · exact hleft.2
  · cases call with
    | apply => cases hhint
    | invalidate order remoteEpoch now =>
      have hleft := contains_retireEpoch order cache.runtimeEpoch cache
      grind [cacheStep, invalidateForRemoteEpoch]

theorem runFrom_steps (encodedLen : List CandidatePayloadV2 → Option ℕ)
    (created : ResolvedCandidateCache) (calls : List CacheCall)
    (hcalls : ∀ call ∈ calls, call.epoch ∈ epochs) :
    Within epochs ((cacheMachine encodedLen created).runFrom cache calls) ∧
      Steps (Unhinted encodedLen created cache calls) cache
        ((cacheMachine encodedLen created).runFrom cache calls) := by
  induction calls generalizing cache with
  | nil => exact ⟨h, .refl _ cache⟩
  | cons call calls ih =>
    obtain ⟨hwithin, hstep⟩ := cacheStep_steps hcard h encodedLen (hcalls call List.mem_cons_self)
    obtain ⟨hafter, hsteps⟩ := ih hwithin fun other hother =>
      hcalls other (List.mem_cons_of_mem call hother)
    exact ⟨hafter, hstep.trans hsteps⟩

end Room

/-- An `apply` of a retired epoch changes nothing. -/
theorem apply_of_contains {learnedAt : ℕ}
    (h : cache.retiredEpochs.contains snapshot.runtimeEpoch = true) :
    (cache.apply encodedLen order snapshot learnedAt).1 = cache := by
  rw [apply]
  split
  · rfl
  · rename_i hcheck
    rw [runtimeEpoch_checkSnapshot hcheck, if_pos h]

theorem staysAway_of_card {first : ResolvedCandidateSnapshot} {madeAt : ℕ}
    {created : ResolvedCandidateCache} {calls : List CacheCall}
    (hcreated : fromSnapshot encodedLen first madeAt = .ok created)
    (hcard : (epochsOf first calls).card ≤ maxRetiredEpochs) :
    StaysAway encodedLen created calls := by
  have hmem : ∀ call ∈ calls, call.epoch ∈ epochsOf first calls := fun call hcall => by
    simp only [epochsOf, Finset.mem_insert, List.mem_toFinset]
    exact .inr (List.mem_map_of_mem hcall)
  have hstart : Within (epochsOf first calls) created := by
    unfold fromSnapshot at hcreated
    split at hcreated
    · cases hcreated
    · rename_i hcheck
      cases hcreated
      refine ⟨?_, nofun, nofun⟩
      simp [epochsOf, runtimeEpoch_checkSnapshot hcheck]
  have hwithin (before : List CacheCall) (hbefore : ∀ call ∈ before, call ∈ calls) :
      Within (epochsOf first calls) ((cacheMachine encodedLen created).run before) :=
    (runFrom_steps hcard hstart encodedLen created before
      fun call hcall => hmem call (hbefore call hcall)).1
  refine ⟨?_, ?_⟩
  · intro before call between order snapshot learnedAt rest hcalls hleaves hepoch
    have hbefore := hwithin before (by grind)
    have hcall := hmem call (by simp [hcalls])
    have hleft := contains_of_leaves hcard hbefore hcall hleaves
    have hlater := (runFrom_steps hcard
      (cacheStep_steps hcard hbefore encodedLen hcall).1 encodedLen created between
      fun other hother => hmem other (by grind)).2.retires _ hleft
    rw [← hepoch] at hlater
    rw [Machine.run_snoc, Machine.run_append]
    exact congrArg content (apply_of_contains hlater)
  · intro before between rest hcalls hsame
    rw [Machine.run_append] at hsame ⊢
    have hsteps := (runFrom_steps hcard (hwithin before (by grind)) encodedLen created between
      fun other hother => hmem other (by grind)).2
    rcases hsteps.moves with ⟨-, hmoves⟩ | ⟨hne, -⟩
    · exact hmoves
    · exact absurd hsame hne

end Calls

/-! ## A ninth epoch -/

/-- The snapshot of a peer in its epoch number `epoch`. -/
def epochSnapshot (epoch revision : ℕ) : ResolvedCandidateSnapshot :=
  ⟨⟨epoch, epoch⟩, revision, [lanCandidate 4001], none⟩

/-- The set of retired epochs is walked from the lowest one on. -/
def applyEpoch (epoch revision : ℕ) : CacheCall :=
  .apply (fun epoch => epoch.low) (epochSnapshot epoch revision) 0

/-- The peer restarts eight times, and a late hint of its first epoch retires the ninth one while
the cache is in it. -/
def eightRestarts : List CacheCall :=
  [applyEpoch 3 1, applyEpoch 4 1, applyEpoch 5 1, applyEpoch 6 1, applyEpoch 7 1,
    applyEpoch 8 1, applyEpoch 9 1, .invalidate (fun epoch => epoch.low) ⟨1, 1⟩ 0]

/-- The epochs of the cache made from the first epoch: after the first restart, after all of them,
and after a late snapshot of the first epoch. -/
theorem eightRestarts_run : ∃ created,
    fromSnapshot someEncodedLen (epochSnapshot 1 1) 0 = .ok created ∧
    created.runtimeEpoch = ⟨1, 1⟩ ∧
    (cacheStep someEncodedLen created (applyEpoch 2 1)).1.runtimeEpoch = ⟨2, 2⟩ ∧
    ((cacheMachine someEncodedLen created).run
      ([] ++ applyEpoch 2 1 :: eightRestarts)).runtimeEpoch = ⟨9, 9⟩ ∧
    ((cacheMachine someEncodedLen created).run
      ([] ++ applyEpoch 2 1 :: eightRestarts ++ [applyEpoch 1 1])).runtimeEpoch = ⟨1, 1⟩ :=
  ⟨_, rfl, rfl, by decide +kernel, by decide +kernel, by decide +kernel⟩

theorem exists_comeback : ∃ created,
    fromSnapshot someEncodedLen (epochSnapshot 1 1) 0 = .ok created ∧
    ¬ StaysAway someEncodedLen created (applyEpoch 2 1 :: eightRestarts ++ [applyEpoch 1 1]) := by
  obtain ⟨created, hcreated, hfirst, hsecond, hninth, hback⟩ := eightRestarts_run
  refine ⟨created, hcreated, fun h => ?_⟩
  have hleaves : Leaves someEncodedLen created (applyEpoch 2 1) :=
    .inl (by simp [hfirst, hsecond])
  have hsame := h.away [] (applyEpoch 2 1) eightRestarts _ (epochSnapshot 1 1) 0 [] rfl hleaves
    hfirst.symm
  have hepoch := runtimeEpoch_of_content hsame
  rw [hninth] at hepoch
  exact absurd (hback.symm.trans hepoch) (by decide)

/-- **Superseded epochs stay away** in all runs that meet at most `n` epochs, iff `n` is at most
the number of epochs the cache remembers. -/
theorem staysAway_iff (n : ℕ) :
    (∀ (encodedLen : List CandidatePayloadV2 → Option ℕ) (first : ResolvedCandidateSnapshot)
        (madeAt : ℕ) (created : ResolvedCandidateCache) (calls : List CacheCall),
      ResolvedCandidateCache.fromSnapshot encodedLen first madeAt = .ok created →
      (epochsOf first calls).card ≤ n → StaysAway encodedLen created calls) ↔
    n ≤ maxRetiredEpochs := by
  constructor
  · intro h
    by_contra hgt
    obtain ⟨created, hcreated, hback⟩ := exists_comeback
    refine hback (h someEncodedLen (epochSnapshot 1 1) 0 created _ hcreated ?_)
    have hcard : (epochsOf (epochSnapshot 1 1)
        (applyEpoch 2 1 :: eightRestarts ++ [applyEpoch 1 1])).card = 9 := by decide +kernel
    rw [hcard]
    exact not_le.mp hgt
  · intro hle encodedLen first madeAt created calls hcreated hcard
    exact staysAway_of_card hcreated (hcard.trans hle)

/-- **The first epoch comes back**: the peer has restarted eight times, and after a late hint of its
first epoch a late snapshot of it replaces the cached one. -/
theorem first_epoch_comes_back :
    (ResolvedCandidateCache.fromSnapshot someEncodedLen (epochSnapshot 1 1) 0).toOption.map
        (fun created => ((cacheMachine someEncodedLen created).transcript
          (applyEpoch 2 1 :: eightRestarts ++ [applyEpoch 1 1])).map Prod.snd) =
      some (List.replicate 8 (.inl (.ok .replaced)) ++ [.inr true, .inl (.ok .replaced)]) ∧
    ∃ created,
      ResolvedCandidateCache.fromSnapshot someEncodedLen (epochSnapshot 1 1) 0 = .ok created ∧
      ¬ StaysAway someEncodedLen created
        (applyEpoch 2 1 :: eightRestarts ++ [applyEpoch 1 1]) :=
  ⟨by decide +kernel, exists_comeback⟩

end SshMobile.Connect
