import SshMobile.Connect.CandidatePayload
import SshMobile.Library.Machine

/-!
# The cache of a remote peer's candidates

A node keeps the last candidate snapshot it learned of each remote peer. A snapshot of another
runtime epoch replaces the cached one and retires its epoch; a hint that the remote runs a new
epoch empties the cache and retires the cached epoch. A snapshot of a retired epoch is ignored.

`apply` retires the cached epoch whenever it replaces the snapshot, also when the new snapshot is
a later revision of that same epoch. From then on the cache ignores every snapshot of the epoch
it holds.

At most eight epochs stay retired. Which one gives way to a ninth is up to the iteration order of
a hash set: every call carries an order.

## Main definitions

* `ResolvedCandidateCache`, `ResolvedCandidateCache.apply`,
  `ResolvedCandidateCache.invalidateForRemoteEpoch`
* `History`: the snapshots one remote peer publishes
* `CacheCall`, `cacheMachine`: a sequence of calls on a cache made from one snapshot
* `History.Converges`: every sequence of calls that ends with the newest snapshot leaves it in
  the cache, and no later revision of the cached epoch is ignored

## Main results

* `apply_newest_iff`: the newest snapshot is in the cache after its `apply` iff its epoch was not
  retired or it was in the cache before
* `converges_iff`: the same after every run of a history, and that the cache converges after all of
  them iff the history has one epoch and at most two revisions
-/

namespace SshMobile.Connect

open Library ResolvedCandidateSnapshot

inductive CacheUpdate
  | replaced
  | refreshed
  | ignoredStale
deriving DecidableEq

inductive CandidateCacheError
  | invalidSnapshot (error : CandidatePayloadError)
  | sameRevisionDifferentFingerprint
deriving DecidableEq

def maxRetiredEpochs : ℕ := 8

/-- The cached candidates of one remote peer. Instants and durations are in nanoseconds. -/
structure ResolvedCandidateCache where
  runtimeEpoch : RuntimeEpoch
  revision : ℕ
  candidates : List CandidatePayloadV2
  fingerprint : CandidateFingerprint
  learnedAt : ℕ
  ttl : ℕ
  retiredEpochs : Table RuntimeEpoch Unit
  expectedEpoch : Option RuntimeEpoch

/-- A snapshot that passed its checks, with its fingerprint. -/
def checkSnapshot (encodedLen : List CandidatePayloadV2 → Option ℕ)
    (snapshot : ResolvedCandidateSnapshot) :
    Except CandidateCacheError (ResolvedCandidateSnapshot × CandidateFingerprint) :=
  match snapshot.normalized encodedLen with
  | .error error => .error (.invalidSnapshot error)
  | .ok snapshot =>
    match CandidateFingerprint.fromCandidates snapshot.candidates with
    | .error error => .error (.invalidSnapshot error)
    | .ok fingerprint => .ok (snapshot, fingerprint)

namespace ResolvedCandidateCache

def fromSnapshot (encodedLen : List CandidatePayloadV2 → Option ℕ)
    (snapshot : ResolvedCandidateSnapshot) (learnedAt : ℕ) :
    Except CandidateCacheError ResolvedCandidateCache :=
  match checkSnapshot encodedLen snapshot with
  | .error error => .error error
  | .ok (snapshot, fingerprint) =>
    .ok
      { runtimeEpoch := snapshot.runtimeEpoch
        revision := snapshot.revision
        candidates := snapshot.candidates
        fingerprint
        learnedAt
        ttl := snapshot.ttl
        retiredEpochs := ∅
        expectedEpoch := none }

/-- `retire_epoch`. A full set first drops the epoch its iteration meets first. -/
def retireEpoch (order : RuntimeEpoch → ℕ) (epoch : RuntimeEpoch)
    (cache : ResolvedCandidateCache) : ResolvedCandidateCache :=
  let retired :=
    if maxRetiredEpochs ≤ cache.retiredEpochs.size ∧ ¬ cache.retiredEpochs.contains epoch then
      match (cache.retiredEpochs.iter order).head? with
      | some (evicted, _) => cache.retiredEpochs.erase evicted
      | none => cache.retiredEpochs
    else cache.retiredEpochs
  { cache with retiredEpochs := retired.insert epoch () }

/-- The expectation of a hint ends with the next snapshot; a snapshot of another epoch retires
the expected one. -/
def settleExpected (order : RuntimeEpoch → ℕ) (epoch : RuntimeEpoch)
    (cache : ResolvedCandidateCache) : ResolvedCandidateCache :=
  match cache.expectedEpoch with
  | none => cache
  | some expected =>
    if epoch = expected then { cache with expectedEpoch := none }
    else { cache.retireEpoch order expected with expectedEpoch := none }

/-- The snapshot takes the place of the cached one, whose epoch is retired. -/
def replace (order : RuntimeEpoch → ℕ) (snapshot : ResolvedCandidateSnapshot)
    (fingerprint : CandidateFingerprint) (learnedAt : ℕ) (cache : ResolvedCandidateCache) :
    ResolvedCandidateCache :=
  { cache.retireEpoch order cache.runtimeEpoch with
    runtimeEpoch := snapshot.runtimeEpoch
    revision := snapshot.revision
    candidates := snapshot.candidates
    fingerprint
    learnedAt := max cache.learnedAt learnedAt
    ttl := snapshot.ttl }

/-- The part of `apply` that compares a checked snapshot with the cached one. -/
def merge (order : RuntimeEpoch → ℕ) (snapshot : ResolvedCandidateSnapshot)
    (fingerprint : CandidateFingerprint) (learnedAt : ℕ) (cache : ResolvedCandidateCache) :
    ResolvedCandidateCache × Except CandidateCacheError CacheUpdate :=
  if snapshot.runtimeEpoch = cache.runtimeEpoch ∧ snapshot.revision < cache.revision then
    (cache, .ok .ignoredStale)
  else if snapshot.runtimeEpoch = cache.runtimeEpoch ∧ snapshot.revision = cache.revision then
    if fingerprint ≠ cache.fingerprint then (cache, .error .sameRevisionDifferentFingerprint)
    else
      ({ cache with ttl := snapshot.ttl, learnedAt := max cache.learnedAt learnedAt },
        .ok .refreshed)
  else (cache.replace order snapshot fingerprint learnedAt, .ok .replaced)

/-- **An authoritative snapshot or a matching live answer.** -/
def apply (encodedLen : List CandidatePayloadV2 → Option ℕ) (order : RuntimeEpoch → ℕ)
    (snapshot : ResolvedCandidateSnapshot) (learnedAt : ℕ) (cache : ResolvedCandidateCache) :
    ResolvedCandidateCache × Except CandidateCacheError CacheUpdate :=
  match checkSnapshot encodedLen snapshot with
  | .error error => (cache, .error error)
  | .ok (snapshot, fingerprint) =>
    if cache.retiredEpochs.contains snapshot.runtimeEpoch then (cache, .ok .ignoredStale)
    else
      (cache.settleExpected order snapshot.runtimeEpoch).merge order snapshot fingerprint learnedAt

/-- **A hint that the remote peer runs another epoch.** The metadata stays, the candidates go,
and the snapshot counts as just expired. -/
def invalidateForRemoteEpoch (order : RuntimeEpoch → ℕ) (remoteEpoch : RuntimeEpoch) (now : ℕ)
    (cache : ResolvedCandidateCache) : ResolvedCandidateCache × Bool :=
  if remoteEpoch = cache.runtimeEpoch then (cache, false)
  else
    ({ cache.retireEpoch order cache.runtimeEpoch with
        expectedEpoch := some remoteEpoch
        candidates := []
        fingerprint := []
        learnedAt := if cache.ttl + 1 ≤ now then now - (cache.ttl + 1) else now },
      true)

end ResolvedCandidateCache

/-! ## The caches of all peers -/

/-- `update_remote_candidate_cache`, from a discovery snapshot with an epoch on. -/
def updateRemoteCandidateCache (encodedLen : List CandidatePayloadV2 → Option ℕ)
    (order : RuntimeEpoch → ℕ) (peerId : String) (snapshot : ResolvedCandidateSnapshot)
    (learnedAt : ℕ) (caches : Table String ResolvedCandidateCache) :
    Table String ResolvedCandidateCache :=
  match caches.get? peerId with
  | some existing =>
    caches.insert peerId (existing.apply encodedLen order snapshot learnedAt).1
  | none =>
    match ResolvedCandidateCache.fromSnapshot encodedLen snapshot learnedAt with
    | .ok cache => caches.insert peerId cache
    | .error _ => caches

/-- `invalidate_remote_candidate_cache_for_epoch`. The zero epoch is no epoch. -/
def invalidateRemoteCandidateCacheForEpoch (order : RuntimeEpoch → ℕ) (peerId : String)
    (epoch : RuntimeEpoch) (now : ℕ) (caches : Table String ResolvedCandidateCache) :
    Table String ResolvedCandidateCache :=
  if epoch.high = 0 ∧ epoch.low = 0 then caches
  else match caches.get? peerId with
    | none => caches
    | some entry => caches.insert peerId (entry.invalidateForRemoteEpoch order epoch now).1

/-! ## Histories and calls -/

/-- A candidate set that passes the checks of a snapshot. -/
def ValidCandidates (encodedLen : List CandidatePayloadV2 → Option ℕ)
    (candidates : List CandidatePayloadV2) : Prop :=
  ∃ normals, normalizeCandidates encodedLen candidates = .ok normals

/-- **The snapshots one remote peer publishes**: its epochs in the order it ran them, no epoch
twice; in each epoch revisions that only rise, each with its one valid candidate set. -/
structure History (encodedLen : List CandidatePayloadV2 → Option ℕ) where
  epochs : List (RuntimeEpoch × List (ℕ × List CandidatePayloadV2))
  nonempty : epochs ≠ []
  distinct : (epochs.map Prod.fst).Nodup
  published : ∀ epoch ∈ epochs, epoch.2 ≠ []
  rising : ∀ epoch ∈ epochs, (epoch.2.map Prod.fst).Pairwise (· < ·)
  valid : ∀ epoch ∈ epochs, ∀ revision ∈ epoch.2, ValidCandidates encodedLen revision.2

variable {encodedLen : List CandidatePayloadV2 → Option ℕ}

namespace History

variable (history : History encodedLen)

/-- The peer published this revision with these candidates in this epoch. -/
def Publishes (epoch : RuntimeEpoch) (revision : ℕ) (candidates : List CandidatePayloadV2) :
    Prop :=
  ∃ revisions, (epoch, revisions) ∈ history.epochs ∧ (revision, candidates) ∈ revisions

/-- The snapshot carries what the peer published; its lifetime is the server's. -/
def Carries (snapshot : ResolvedCandidateSnapshot) : Prop :=
  history.Publishes snapshot.runtimeEpoch snapshot.revision snapshot.candidates

def newestEpoch : RuntimeEpoch × List (ℕ × List CandidatePayloadV2) :=
  history.epochs.getLast history.nonempty

theorem newestEpoch_mem : history.newestEpoch ∈ history.epochs := List.getLast_mem _

def newestRevision : ℕ × List CandidatePayloadV2 :=
  history.newestEpoch.2.getLast (history.published _ history.newestEpoch_mem)

/-- **The newest snapshot**: the highest revision of the latest epoch. -/
def newest (serverPresenceTtl : Option ℕ) : ResolvedCandidateSnapshot where
  runtimeEpoch := history.newestEpoch.1
  revision := history.newestRevision.1
  candidates := history.newestRevision.2
  serverPresenceTtl

end History

inductive CacheCall
  | apply (order : RuntimeEpoch → ℕ) (snapshot : ResolvedCandidateSnapshot) (learnedAt : ℕ)
  | invalidate (order : RuntimeEpoch → ℕ) (remoteEpoch : RuntimeEpoch) (now : ℕ)

/-- What a call returns: the outcome of `apply`, or whether the hint changed the cache. -/
abbrev CacheReply := Except CandidateCacheError CacheUpdate ⊕ Bool

def cacheStep (encodedLen : List CandidatePayloadV2 → Option ℕ) (cache : ResolvedCandidateCache) :
    CacheCall → ResolvedCandidateCache × CacheReply
  | .apply order snapshot learnedAt =>
    ((cache.apply encodedLen order snapshot learnedAt).1,
      .inl (cache.apply encodedLen order snapshot learnedAt).2)
  | .invalidate order remoteEpoch now =>
    ((cache.invalidateForRemoteEpoch order remoteEpoch now).1,
      .inr (cache.invalidateForRemoteEpoch order remoteEpoch now).2)

/-- **Calls on one cache**, from the cache as it was made. -/
def cacheMachine (encodedLen : List CandidatePayloadV2 → Option ℕ)
    (created : ResolvedCandidateCache) : Machine ResolvedCandidateCache CacheCall CacheReply where
  start := created
  step := cacheStep encodedLen

variable {caches : Table String ResolvedCandidateCache}

variable {order : RuntimeEpoch → ℕ} {cache : ResolvedCandidateCache}

section

variable {peerId : String} (h : caches.get? peerId = some cache)

include h

/-- A snapshot learned of a cached peer is an `apply` on its cache. -/
theorem get?_updateRemoteCandidateCache {snapshot : ResolvedCandidateSnapshot} {learnedAt : ℕ} :
    (updateRemoteCandidateCache encodedLen order peerId snapshot learnedAt caches).get? peerId =
      some (cacheStep encodedLen cache (.apply order snapshot learnedAt)).1 := by
  grind [updateRemoteCandidateCache, cacheStep]

/-- A hint of a non-zero epoch of a cached peer is an invalidation of its cache. -/
theorem get?_invalidateRemoteCandidateCacheForEpoch {epoch : RuntimeEpoch} {now : ℕ}
    (hepoch : ¬ (epoch.high = 0 ∧ epoch.low = 0)) :
    (invalidateRemoteCandidateCacheForEpoch order peerId epoch now caches).get? peerId =
      some (cacheStep encodedLen cache (.invalidate order epoch now)).1 := by
  grind [invalidateRemoteCandidateCacheForEpoch, cacheStep]

end

/-- The call carries a snapshot or an epoch of the history. -/
def History.Allows {encodedLen : List CandidatePayloadV2 → Option ℕ}
    (history : History encodedLen) : CacheCall → Prop
  | .apply _ snapshot _ => history.Carries snapshot
  | .invalidate _ remoteEpoch _ => remoteEpoch ∈ history.epochs.map Prod.fst

/-- The cache holds exactly this epoch, revision and candidate set. -/
def ResolvedCandidateCache.HoldsExactly (encodedLen : List CandidatePayloadV2 → Option ℕ)
    (cache : ResolvedCandidateCache) (snapshot : ResolvedCandidateSnapshot) : Prop :=
  cache.runtimeEpoch = snapshot.runtimeEpoch ∧ cache.revision = snapshot.revision ∧
    normalizeCandidates encodedLen snapshot.candidates = .ok cache.candidates

/-- **The cache of the history converges**: on a cache made from one of its snapshots, after any
calls that carry its snapshots and epochs, `apply` of the newest snapshot leaves exactly that
snapshot, and `apply` of a later revision of the epoch the cache holds replaces the cached one. -/
def History.Converges {encodedLen : List CandidatePayloadV2 → Option ℕ}
    (history : History encodedLen) : Prop :=
  ∀ (first : ResolvedCandidateSnapshot) (madeAt : ℕ) (created : ResolvedCandidateCache)
    (calls : List CacheCall), history.Carries first →
    ResolvedCandidateCache.fromSnapshot encodedLen first madeAt = .ok created →
    (∀ call ∈ calls, history.Allows call) →
    (∀ order serverPresenceTtl learnedAt,
      ((cacheMachine encodedLen created).run
        (calls ++ [.apply order (history.newest serverPresenceTtl) learnedAt])).HoldsExactly
          encodedLen (history.newest serverPresenceTtl)) ∧
    ∀ order snapshot learnedAt, history.Carries snapshot →
      snapshot.runtimeEpoch = ((cacheMachine encodedLen created).run calls).runtimeEpoch →
      ((cacheMachine encodedLen created).run calls).revision < snapshot.revision →
      (((cacheMachine encodedLen created).run calls).apply encodedLen order snapshot
        learnedAt).2 = .ok .replaced

/-- The history has one epoch, with at most two revisions. -/
def History.AtMostTwoRevisions {encodedLen : List CandidatePayloadV2 → Option ℕ}
    (history : History encodedLen) : Prop :=
  history.epochs.length = 1 ∧ history.newestEpoch.2.length ≤ 2

/-! ## What a history publishes -/

variable {candidates : List CandidatePayloadV2}

namespace History

variable {history : History encodedLen} {epoch : RuntimeEpoch} {revision : ℕ}

theorem revisions_unique {revisions revisions' : List (ℕ × List CandidatePayloadV2)}
    (h : (epoch, revisions) ∈ history.epochs) (h' : (epoch, revisions') ∈ history.epochs) :
    revisions = revisions' :=
  congrArg Prod.snd (List.inj_on_of_nodup_map history.distinct h h' rfl)

theorem publishes_newest :
    history.Publishes history.newestEpoch.1 history.newestRevision.1 history.newestRevision.2 :=
  ⟨_, history.newestEpoch_mem, List.getLast_mem _⟩

theorem Publishes.mem_newestEpoch
    (h : history.Publishes history.newestEpoch.1 revision candidates) :
    (revision, candidates) ∈ history.newestEpoch.2 := by
  grind [revisions_unique, newestEpoch_mem, Publishes]

theorem Publishes.unique {candidates' : List CandidatePayloadV2}
    (h : history.Publishes epoch revision candidates)
    (h' : history.Publishes epoch revision candidates') : candidates = candidates' := by
  obtain ⟨revisions, hepoch, hrevision⟩ := h
  obtain ⟨revisions', hepoch', hrevision'⟩ := h'
  obtain rfl := revisions_unique hepoch hepoch'
  have hnodup : (revisions.map Prod.fst).Nodup :=
    (history.rising _ hepoch).imp fun hlt => hlt.ne
  grind [List.inj_on_of_nodup_map]

theorem Publishes.valid (h : history.Publishes epoch revision candidates) :
    ValidCandidates encodedLen candidates := by
  obtain ⟨revisions, hepoch, hrevision⟩ := h
  exact history.valid _ hepoch _ hrevision

/-- No revision of the latest epoch is above the newest one. -/
theorem Publishes.le_newest (h : history.Publishes history.newestEpoch.1 revision candidates) :
    revision ≤ history.newestRevision.1 := by
  have hmem := h.mem_newestEpoch
  have hrising := history.rising _ history.newestEpoch_mem
  have hsplit := List.dropLast_append_getLast (history.published _ history.newestEpoch_mem)
  rw [← hsplit, List.map_append, List.pairwise_append] at hrising
  rw [← hsplit, List.mem_append, List.mem_singleton] at hmem
  rcases hmem with hmem | hmem
  · exact (hrising.2.2 revision (List.mem_map_of_mem hmem) _ (List.mem_singleton_self _)).le
  · exact (congrArg Prod.fst hmem).le

/-- A history of one epoch publishes in that epoch only. -/
theorem epoch_of_single (hone : history.epochs.length = 1)
    (h : epoch ∈ history.epochs.map Prod.fst) : epoch = history.newestEpoch.1 := by
  grind [List.length_eq_one_iff, newestEpoch]

theorem Publishes.epoch_mem (h : history.Publishes epoch revision candidates) :
    epoch ∈ history.epochs.map Prod.fst := by
  grind [Publishes]

theorem Carries.inNewestEpoch {snapshot : ResolvedCandidateSnapshot}
    (hone : history.epochs.length = 1) (h : history.Carries snapshot) :
    history.Publishes history.newestEpoch.1 snapshot.revision snapshot.candidates := by
  have hepoch := epoch_of_single hone (Publishes.epoch_mem h)
  rw [Carries, hepoch] at h
  exact h

/-- Of two revisions of an epoch with at most two, the later one is the newest. -/
theorem AtMostTwoRevisions.eq_newest (h : history.AtMostTwoRevisions) {earlier : ℕ}
    {others : List CandidatePayloadV2}
    (hearlier : history.Publishes history.newestEpoch.1 earlier others)
    (hlater : history.Publishes history.newestEpoch.1 revision candidates)
    (hlt : earlier < revision) : revision = history.newestRevision.1 := by
  have hmem := hearlier.mem_newestEpoch
  have hmem' := hlater.mem_newestEpoch
  have hnewest : history.newestRevision ∈ history.newestEpoch.2 := List.getLast_mem _
  refine le_antisymm hlater.le_newest ?_
  -- Three different revisions do not fit in a list of two.
  by_contra hgt
  have hsub : [(earlier, others), (revision, candidates), history.newestRevision] ⊆
      history.newestEpoch.2 := by simp [hmem, hmem', hnewest]
  have hnodup : [(earlier, others), (revision, candidates), history.newestRevision].Nodup := by
    grind
  have hlength : 3 ≤ history.newestEpoch.2.length :=
    (List.subperm_of_subset hnodup hsub).length_le
  exact absurd (hlength.trans h.2) (by decide)

end History

/-! ## One call -/

open ResolvedCandidateCache

variable {snapshot : ResolvedCandidateSnapshot} {fingerprint : CandidateFingerprint} {learnedAt : ℕ}

section Calls

theorem checkSnapshot_eq_ok
    (h : normalizeCandidates encodedLen snapshot.candidates = .ok candidates) :
    ∃ fingerprint, CandidateFingerprint.fromCandidates candidates = .ok fingerprint ∧
      checkSnapshot encodedLen snapshot = .ok ({ snapshot with candidates }, fingerprint) := by
  grind [fromCandidates_of_normalized, checkSnapshot, normalized_eq_ok]

theorem contains_retireEpoch (order : RuntimeEpoch → ℕ) (epoch : RuntimeEpoch)
    (cache : ResolvedCandidateCache) :
    (cache.retireEpoch order epoch).retiredEpochs.contains epoch = true := by
  simp [retireEpoch, Table.contains]

/-- Replacing the cached snapshot retires its epoch. -/
theorem contains_replace (order : RuntimeEpoch → ℕ) (snapshot : ResolvedCandidateSnapshot)
    (fingerprint : CandidateFingerprint) (learnedAt : ℕ) (cache : ResolvedCandidateCache) :
    (cache.replace order snapshot fingerprint learnedAt).retiredEpochs.contains
      cache.runtimeEpoch = true :=
  contains_retireEpoch order cache.runtimeEpoch cache

namespace ResolvedCandidateCache

@[simp] theorem settleExpected_runtimeEpoch (epoch : RuntimeEpoch) :
    (cache.settleExpected order epoch).runtimeEpoch = cache.runtimeEpoch := by
  unfold settleExpected
  split
  · rfl
  · split <;> rfl

@[simp] theorem settleExpected_revision (epoch : RuntimeEpoch) :
    (cache.settleExpected order epoch).revision = cache.revision := by
  unfold settleExpected
  split
  · rfl
  · split <;> rfl

@[simp] theorem settleExpected_fingerprint (epoch : RuntimeEpoch) :
    (cache.settleExpected order epoch).fingerprint = cache.fingerprint := by
  unfold settleExpected
  split
  · rfl
  · split <;> rfl

@[simp] theorem settleExpected_expectedEpoch (epoch : RuntimeEpoch) :
    (cache.settleExpected order epoch).expectedEpoch = none := by
  grind [settleExpected]

end ResolvedCandidateCache

/-- **What one `merge` does**: it ignores or refuses a snapshot that is not later than the cached
one, or it replaces the cached one. -/
inductive Merged (cache : ResolvedCandidateCache) (snapshot : ResolvedCandidateSnapshot)
    (fingerprint : CandidateFingerprint) (order : RuntimeEpoch → ℕ) (learnedAt : ℕ) :
    ResolvedCandidateCache × Except CandidateCacheError CacheUpdate → Prop
  | stale (hepoch : snapshot.runtimeEpoch = cache.runtimeEpoch)
      (hlt : snapshot.revision < cache.revision) :
      Merged cache snapshot fingerprint order learnedAt (cache, .ok .ignoredStale)
  | refused (hepoch : snapshot.runtimeEpoch = cache.runtimeEpoch)
      (heq : snapshot.revision = cache.revision) (hne : fingerprint ≠ cache.fingerprint) :
      Merged cache snapshot fingerprint order learnedAt
        (cache, .error .sameRevisionDifferentFingerprint)
  | refreshed (hepoch : snapshot.runtimeEpoch = cache.runtimeEpoch)
      (heq : snapshot.revision = cache.revision) (hsame : fingerprint = cache.fingerprint) :
      Merged cache snapshot fingerprint order learnedAt
        ({ cache with ttl := snapshot.ttl, learnedAt := max cache.learnedAt learnedAt },
          .ok .refreshed)
  | replaced (hlater : snapshot.runtimeEpoch = cache.runtimeEpoch →
        cache.revision < snapshot.revision) :
      Merged cache snapshot fingerprint order learnedAt
        (cache.replace order snapshot fingerprint learnedAt, .ok .replaced)

theorem merged_merge (cache : ResolvedCandidateCache) (snapshot : ResolvedCandidateSnapshot)
    (fingerprint : CandidateFingerprint) (order : RuntimeEpoch → ℕ) (learnedAt : ℕ) :
    Merged cache snapshot fingerprint order learnedAt
      (cache.merge order snapshot fingerprint learnedAt) := by
  unfold merge
  split_ifs with hlt heq hne
  · exact .stale hlt.1 hlt.2
  · exact .refused heq.1 heq.2 hne
  · exact .refreshed heq.1 heq.2 (not_not.mp hne)
  · refine .replaced fun hepoch => ?_
    grind

end Calls

/-! ## What the cache keeps of a history -/

/-- **The cache keeps to the history**: its epoch and revision are published ones. Its candidates
and fingerprint are those of that revision, unless its epoch is retired; and its epoch is retired
while it expects another one. -/
structure KeepsTo {encodedLen : List CandidatePayloadV2 → Option ℕ} (history : History encodedLen)
    (cache : ResolvedCandidateCache) : Prop where
  published : ∃ candidates, history.Publishes cache.runtimeEpoch cache.revision candidates ∧
    (cache.retiredEpochs.contains cache.runtimeEpoch = false →
      normalizeCandidates encodedLen candidates = .ok cache.candidates ∧
      CandidateFingerprint.fromCandidates cache.candidates = .ok cache.fingerprint)
  expects : cache.expectedEpoch ≠ none →
    cache.retiredEpochs.contains cache.runtimeEpoch = true

section Keeps

variable {history : History encodedLen}

theorem keepsTo_fromSnapshot (hcarries : history.Carries snapshot)
    (h : fromSnapshot encodedLen snapshot learnedAt = .ok cache) :
    KeepsTo history cache ∧ cache.HoldsExactly encodedLen snapshot ∧
      cache.retiredEpochs = ∅ ∧ cache.expectedEpoch = none := by
  obtain ⟨candidates, hnormal⟩ := hcarries.valid
  obtain ⟨fingerprint, hfingerprint, hcheck⟩ := checkSnapshot_eq_ok hnormal
  rw [fromSnapshot, hcheck] at h
  cases h
  exact ⟨⟨⟨_, hcarries, fun _ => ⟨hnormal, hfingerprint⟩⟩, fun hne => absurd rfl hne⟩,
    ⟨rfl, rfl, hnormal⟩, rfl, rfl⟩

/-- Without an expectation there is nothing to settle. -/
theorem settleExpected_of_none (h : cache.expectedEpoch = none) (epoch : RuntimeEpoch) :
    cache.settleExpected order epoch = cache := by
  unfold settleExpected
  rw [h]

/-- **What `apply` of a published snapshot does**: it leaves the cache if the epoch is retired;
otherwise it merges the checked snapshot. -/
theorem apply_carried (cache : ResolvedCandidateCache) (order : RuntimeEpoch → ℕ)
    (learnedAt : ℕ) (hcarries : history.Carries snapshot) :
    ∃ candidates fingerprint,
      normalizeCandidates encodedLen snapshot.candidates = .ok candidates ∧
      CandidateFingerprint.fromCandidates candidates = .ok fingerprint ∧
      (cache.retiredEpochs.contains snapshot.runtimeEpoch = true →
        cache.apply encodedLen order snapshot learnedAt = (cache, .ok .ignoredStale)) ∧
      (cache.retiredEpochs.contains snapshot.runtimeEpoch = false →
        cache.apply encodedLen order snapshot learnedAt =
          (cache.settleExpected order snapshot.runtimeEpoch).merge order
            { snapshot with candidates } fingerprint learnedAt) := by
  obtain ⟨candidates, hnormal⟩ := hcarries.valid
  obtain ⟨fingerprint, hfingerprint, hcheck⟩ := checkSnapshot_eq_ok hnormal
  refine ⟨candidates, fingerprint, hnormal, hfingerprint, fun hretired => ?_, fun hretired => ?_⟩
  · rw [apply, hcheck]
    exact if_pos hretired
  · rw [apply, hcheck]
    exact if_neg (Bool.not_eq_true _ ▸ hretired)

section

variable (hcarries : history.Carries snapshot)
  (hnormal : normalizeCandidates encodedLen snapshot.candidates = .ok candidates)
  (hfingerprint : CandidateFingerprint.fromCandidates candidates = .ok fingerprint)

include hcarries hnormal hfingerprint

/-- A snapshot of the cached epoch, not retired, that is not a later revision is the cached one
or an older one; the cached one is refreshed, not refused. -/
theorem KeepsTo.fingerprint_eq (h : KeepsTo history cache)
    (hepoch : snapshot.runtimeEpoch = cache.runtimeEpoch)
    (hrevision : snapshot.revision = cache.revision)
    (hretired : cache.retiredEpochs.contains cache.runtimeEpoch = false) :
    candidates = cache.candidates ∧ fingerprint = cache.fingerprint := by
  obtain ⟨cached, hcached, hholds⟩ := h.published
  obtain ⟨hcandidates, hcachedFingerprint⟩ := hholds hretired
  rw [History.Carries, hepoch, hrevision] at hcarries
  rw [hcarries.unique hcached, hcandidates] at hnormal
  simp_all

theorem keepsTo_replace (hexpected : cache.expectedEpoch = none) :
    KeepsTo history
      (cache.replace order { snapshot with candidates } fingerprint learnedAt) :=
  ⟨⟨_, hcarries, fun _ => ⟨hnormal, hfingerprint⟩⟩, fun hne => absurd hexpected hne⟩

end

/-- While the cache expects another epoch, its own epoch is retired: a snapshot that is not
retired and of the cached epoch meets no expectation. -/
theorem KeepsTo.settleExpected_eq (h : KeepsTo history cache)
    (hretired : cache.retiredEpochs.contains snapshot.runtimeEpoch = false)
    (hepoch : snapshot.runtimeEpoch = cache.runtimeEpoch) :
    cache.settleExpected order snapshot.runtimeEpoch = cache := by
  refine settleExpected_of_none (by_contra fun hexpects => ?_) _
  rw [hepoch, h.expects hexpects] at hretired
  cases hretired

/-- **What `apply` of a published snapshot can do to a cache that keeps to the history**: the
epoch is retired and nothing changes; the snapshot is older than the cached one and nothing
changes; it is the cached one, which is refreshed; or it replaces the cached one. -/
inductive Applied (history : History encodedLen) (cache : ResolvedCandidateCache)
    (snapshot : ResolvedCandidateSnapshot) :
    ResolvedCandidateCache × Except CandidateCacheError CacheUpdate → Prop
  | retired (hretired : cache.retiredEpochs.contains snapshot.runtimeEpoch = true) :
      Applied history cache snapshot (cache, .ok .ignoredStale)
  | stale (hretired : cache.retiredEpochs.contains snapshot.runtimeEpoch = false)
      (hepoch : snapshot.runtimeEpoch = cache.runtimeEpoch)
      (hlt : snapshot.revision < cache.revision) :
      Applied history cache snapshot (cache, .ok .ignoredStale)
  | refreshed {ttl learnedAt : ℕ}
      (hretired : cache.retiredEpochs.contains snapshot.runtimeEpoch = false)
      (hepoch : snapshot.runtimeEpoch = cache.runtimeEpoch)
      (heq : snapshot.revision = cache.revision)
      (hnormal : normalizeCandidates encodedLen snapshot.candidates = .ok cache.candidates) :
      Applied history cache snapshot ({ cache with ttl, learnedAt }, .ok .refreshed)
  | replaced {after : ResolvedCandidateCache}
      (hretired : cache.retiredEpochs.contains snapshot.runtimeEpoch = false)
      (hlater : snapshot.runtimeEpoch = cache.runtimeEpoch → cache.revision < snapshot.revision)
      (hkeeps : KeepsTo history after) (hexpected : after.expectedEpoch = none)
      (hholds : after.HoldsExactly encodedLen snapshot)
      (hleft : after.retiredEpochs.contains cache.runtimeEpoch = true) :
      Applied history cache snapshot (after, .ok .replaced)

section

variable (order learnedAt) (h : KeepsTo history cache) (hcarries : history.Carries snapshot)

include h hcarries

theorem applied_apply :
    Applied history cache snapshot (cache.apply encodedLen order snapshot learnedAt) := by
  obtain ⟨candidates, fingerprint, hnormal, hfingerprint, hignored, hmerged⟩ :=
    apply_carried cache order learnedAt hcarries
  rcases hretired : cache.retiredEpochs.contains snapshot.runtimeEpoch with _ | _
  swap
  · rw [hignored hretired]
    exact .retired hretired
  rw [hmerged hretired]
  have hsettled := @KeepsTo.settleExpected_eq _ order _ _ _ h hretired
  have hmerge := merged_merge (cache.settleExpected order snapshot.runtimeEpoch)
    { snapshot with candidates } fingerprint order learnedAt
  generalize merge _ _ _ _ _ = outcome at hmerge ⊢
  cases hmerge with
  | stale hepoch hlt =>
    rw [settleExpected_runtimeEpoch] at hepoch
    rw [hsettled hepoch] at hlt ⊢
    exact .stale hretired hepoch hlt
  | refused hepoch heq hne =>
    -- A revision has one candidate set, so the fingerprints agree.
    rw [settleExpected_runtimeEpoch] at hepoch
    rw [hsettled hepoch] at heq hne
    exact absurd (h.fingerprint_eq hcarries hnormal hfingerprint hepoch heq
      (hepoch ▸ hretired)).2 hne
  | refreshed hepoch heq hsame =>
    rw [settleExpected_runtimeEpoch] at hepoch
    rw [hsettled hepoch] at heq ⊢
    obtain ⟨rfl, -⟩ := h.fingerprint_eq hcarries hnormal hfingerprint hepoch heq
      (hepoch ▸ hretired)
    exact .refreshed hretired hepoch heq hnormal
  | replaced hlater =>
    simp only [settleExpected_runtimeEpoch, settleExpected_revision] at hlater
    refine .replaced hretired hlater (keepsTo_replace hcarries hnormal hfingerprint (by simp))
      (settleExpected_expectedEpoch _) ⟨rfl, rfl, hnormal⟩ ?_
    have hcontains := contains_replace order { snapshot with candidates } fingerprint learnedAt
      (cache.settleExpected order snapshot.runtimeEpoch)
    simp_all

theorem keepsTo_apply :
    KeepsTo history (cache.apply encodedLen order snapshot learnedAt).1 := by
  have happlied := applied_apply order learnedAt h hcarries
  generalize cache.apply encodedLen order snapshot learnedAt = outcome at happlied ⊢
  cases happlied with
  | retired | stale => exact h
  | refreshed => exact ⟨h.published, h.expects⟩
  | replaced _ _ hkeeps => exact hkeeps

end

theorem keepsTo_invalidate (h : KeepsTo history cache) (remoteEpoch : RuntimeEpoch) (now : ℕ) :
    KeepsTo history (cache.invalidateForRemoteEpoch order remoteEpoch now).1 := by
  unfold invalidateForRemoteEpoch
  split
  · exact h
  · obtain ⟨candidates, hpublished, -⟩ := h.published
    have hretired := contains_retireEpoch order cache.runtimeEpoch cache
    exact ⟨⟨candidates, hpublished, fun hfresh => absurd (hretired.symm.trans hfresh) nofun⟩,
      fun _ => hretired⟩

theorem keepsTo_step (h : KeepsTo history cache) {call : CacheCall}
    (hallowed : history.Allows call) : KeepsTo history (cacheStep encodedLen cache call).1 := by
  cases call with
  | apply order snapshot learnedAt => exact keepsTo_apply order learnedAt h hallowed
  | invalidate order remoteEpoch now => exact keepsTo_invalidate h remoteEpoch now

/-- **The newest snapshot gets in** iff its epoch is not retired, or it is in the cache already. -/
theorem apply_newest_iff (h : KeepsTo history cache) (serverPresenceTtl : Option ℕ) :
    (cache.apply encodedLen order (history.newest serverPresenceTtl) learnedAt).1.HoldsExactly
        encodedLen (history.newest serverPresenceTtl) ↔
      cache.retiredEpochs.contains history.newestEpoch.1 = false ∨
        cache.HoldsExactly encodedLen (history.newest serverPresenceTtl) := by
  have hnewest : history.Carries (history.newest serverPresenceTtl) := History.publishes_newest
  have happlied := applied_apply order learnedAt h hnewest
  generalize cache.apply encodedLen order _ learnedAt = outcome at happlied ⊢
  cases happlied with
  | retired hretired =>
    refine ⟨.inr, ?_⟩
    rintro (hfresh | hholds)
    · exact absurd (hretired.symm.trans hfresh) nofun
    · exact hholds
  | stale _ hepoch hlt =>
    -- The cached revision is published in the latest epoch, so it is not above the newest.
    obtain ⟨candidates, hpublished, -⟩ := h.published
    rw [← hepoch] at hpublished
    exact absurd hlt hpublished.le_newest.not_gt
  | refreshed hretired hepoch heq hnormal =>
    exact iff_of_true ⟨hepoch.symm, heq.symm, hnormal⟩ (.inl hretired)
  | replaced hretired _ _ _ hholds => exact iff_of_true hholds (.inl hretired)

/-- **A later revision** replaces the cached one iff its epoch is not retired. -/
theorem apply_later_iff (h : KeepsTo history cache) (hcarries : history.Carries snapshot)
    (hlater : cache.revision < snapshot.revision) :
    (cache.apply encodedLen order snapshot learnedAt).2 = .ok .replaced ↔
      cache.retiredEpochs.contains snapshot.runtimeEpoch = false := by
  have happlied := applied_apply order learnedAt h hcarries
  generalize cache.apply encodedLen order snapshot learnedAt = outcome at happlied ⊢
  cases happlied with
  | retired hretired => simp [hretired]
  | stale _ _ hlt => exact absurd hlater hlt.not_gt
  | refreshed _ _ heq => exact absurd heq hlater.ne'
  | replaced hretired => exact iff_of_true rfl hretired

theorem keepsTo_run {first : ResolvedCandidateSnapshot} {created : ResolvedCandidateCache}
    {madeAt : ℕ} {calls : List CacheCall} (hcarries : history.Carries first)
    (hcreated : fromSnapshot encodedLen first madeAt = .ok created)
    (hallowed : ∀ call ∈ calls, history.Allows call) :
    KeepsTo history ((cacheMachine encodedLen created).run calls) :=
  Machine.run_invariant _ (keepsTo_fromSnapshot hcarries hcreated).1
    (fun _ _ h hcall => keepsTo_step h hcall) (Machine.alongFrom_of_forall _ _ hallowed)

/-! ## Histories that converge -/

/-- In a history of one epoch with at most two revisions, the cached epoch is retired only once
the cache holds the newest revision. -/
structure OpenToNewest (history : History encodedLen) (cache : ResolvedCandidateCache) : Prop where
  keeps : KeepsTo history cache
  notExpecting : cache.expectedEpoch = none
  candidates : ∃ candidates, history.Publishes cache.runtimeEpoch cache.revision candidates ∧
    normalizeCandidates encodedLen candidates = .ok cache.candidates
  notRetired : cache.retiredEpochs.contains history.newestEpoch.1 = false ∨
    cache.revision = history.newestRevision.1

section

variable (htwo : history.AtMostTwoRevisions) (h : OpenToNewest history cache)

include htwo h

theorem OpenToNewest.epoch_eq : cache.runtimeEpoch = history.newestEpoch.1 := by
  obtain ⟨candidates, hpublished, -⟩ := h.candidates
  exact History.epoch_of_single htwo.1 hpublished.epoch_mem

/-- A cache with the newest revision of the only epoch holds the newest snapshot. -/
theorem OpenToNewest.holdsExactly (hrevision : cache.revision = history.newestRevision.1)
    (serverPresenceTtl : Option ℕ) :
    cache.HoldsExactly encodedLen (history.newest serverPresenceTtl) := by
  obtain ⟨candidates, hpublished, hnormal⟩ := h.candidates
  rw [h.epoch_eq htwo, hrevision] at hpublished
  obtain rfl := hpublished.unique History.publishes_newest
  exact ⟨h.epoch_eq htwo, hrevision, hnormal⟩

theorem openToNewest_apply (hcarries : history.Carries snapshot) (order : RuntimeEpoch → ℕ)
    (learnedAt : ℕ) : OpenToNewest history (cache.apply encodedLen order snapshot learnedAt).1 := by
  have hkeeps := keepsTo_apply order learnedAt h.keeps hcarries
  have happlied := applied_apply order learnedAt h.keeps hcarries
  generalize cache.apply encodedLen order snapshot learnedAt = outcome at happlied hkeeps ⊢
  have hepoch := History.epoch_of_single htwo.1 hcarries.epoch_mem
  cases happlied with
  | retired | stale => exact h
  | refreshed => exact ⟨hkeeps, h.notExpecting, h.candidates, h.notRetired⟩
  | replaced _ hlater hafter hexpected hholds =>
    obtain ⟨hholdsEpoch, hholdsRevision, hholdsCandidates⟩ := hholds
    -- A later revision than the cached one is the newest: there are at most two.
    obtain ⟨candidates, hpublished, -⟩ := h.candidates
    have hlt := hlater (hepoch.trans (h.epoch_eq htwo).symm)
    rw [h.epoch_eq htwo] at hpublished
    have hnewest := htwo.eq_newest hpublished (hcarries.inNewestEpoch htwo.1) hlt
    refine ⟨hafter, hexpected, ⟨snapshot.candidates, ?_, hholdsCandidates⟩, .inr ?_⟩
    · grind [History.Carries]
    · exact hholdsRevision.trans hnewest

theorem openToNewest_step {call : CacheCall} (hallowed : history.Allows call) :
    OpenToNewest history (cacheStep encodedLen cache call).1 := by
  cases call with
  | apply order snapshot learnedAt => exact openToNewest_apply htwo h hallowed order learnedAt
  | invalidate order remoteEpoch now =>
    -- The only epoch there is to hint at is the cached one, and that hint changes nothing.
    have hsame : remoteEpoch = cache.runtimeEpoch :=
      (History.epoch_of_single htwo.1 hallowed).trans (h.epoch_eq htwo).symm
    grind [cacheStep, ResolvedCandidateCache.invalidateForRemoteEpoch]

end

theorem openToNewest_run {first : ResolvedCandidateSnapshot} {created : ResolvedCandidateCache}
    {madeAt : ℕ} {calls : List CacheCall} (htwo : history.AtMostTwoRevisions)
    (hcarries : history.Carries first)
    (hcreated : fromSnapshot encodedLen first madeAt = .ok created)
    (hallowed : ∀ call ∈ calls, history.Allows call) :
    OpenToNewest history ((cacheMachine encodedLen created).run calls) := by
  refine Machine.run_invariant _ ?_ (fun _ _ h hcall => openToNewest_step htwo h hcall)
    (Machine.alongFrom_of_forall _ _ hallowed)
  obtain ⟨hkeeps, ⟨hepoch, hrevision, hnormal⟩, hretired, hexpected⟩ :=
    keepsTo_fromSnapshot hcarries hcreated
  refine ⟨hkeeps, hexpected, ⟨first.candidates, ?_, hnormal⟩, .inl ?_⟩
  · exact hepoch ▸ hrevision ▸ hcarries
  · exact hretired ▸ rfl

theorem converges_of_atMostTwoRevisions (htwo : history.AtMostTwoRevisions) :
    history.Converges := by
  intro first madeAt created calls hcarries hcreated hallowed
  have h := openToNewest_run htwo hcarries hcreated hallowed
  refine ⟨fun order serverPresenceTtl learnedAt => ?_, ?_⟩
  · rw [Machine.run_snoc]
    refine (apply_newest_iff h.keeps serverPresenceTtl).mpr ?_
    exact h.notRetired.imp_right fun hnewest => h.holdsExactly htwo hnewest serverPresenceTtl
  · intro order snapshot learnedAt hsnapshot hepoch hlt
    rw [apply_later_iff h.keeps hsnapshot hlt]
    have hle := (hsnapshot.inNewestEpoch htwo.1).le_newest
    rcases h.notRetired with hfresh | hnewest
    · rw [hepoch, h.epoch_eq htwo, hfresh]
    · exact absurd (hnewest ▸ hlt) hle.not_gt

theorem exists_fromSnapshot (hcarries : history.Carries snapshot) (madeAt : ℕ) :
    ∃ created, fromSnapshot encodedLen snapshot madeAt = .ok created := by
  obtain ⟨candidates, hnormal⟩ := History.Publishes.valid hcarries
  obtain ⟨fingerprint, -, hcheck⟩ := checkSnapshot_eq_ok hnormal
  rw [fromSnapshot, hcheck]
  exact ⟨_, rfl⟩

/-- **The newest snapshot is locked out**: a cache made from a snapshot of the latest epoch that
then takes another snapshot, not the newest, has retired the latest epoch. -/
theorem not_converges_of_replaced (first second : ResolvedCandidateSnapshot)
    (hfirst : history.Carries first) (hsecond : history.Carries second)
    (hlatest : first.runtimeEpoch = history.newestEpoch.1)
    (hlater : second.runtimeEpoch = first.runtimeEpoch → first.revision < second.revision)
    (hother : ¬ (second.runtimeEpoch = history.newestEpoch.1 ∧
      second.revision = history.newestRevision.1)) : ¬ history.Converges := by
  intro hconverges
  obtain ⟨created, hcreated⟩ := exists_fromSnapshot hfirst 0
  obtain ⟨hkeeps, ⟨hepoch, hrevision, -⟩, hretired, -⟩ := keepsTo_fromSnapshot hfirst hcreated
  have hnewest := (hconverges first 0 created [.apply (fun _ => 0) second 0] hfirst hcreated
    fun call hcall => List.mem_singleton.mp hcall ▸ hsecond).1 (fun _ => 0) none 0
  rw [Machine.run_snoc] at hnewest
  change ((created.apply encodedLen (fun _ => 0) second 0).1.apply encodedLen (fun _ => 0)
    (history.newest none) 0).1.HoldsExactly encodedLen (history.newest none) at hnewest
  rw [apply_newest_iff (keepsTo_apply _ _ hkeeps hsecond)] at hnewest
  have happlied := applied_apply (fun _ => 0) 0 hkeeps hsecond
  generalize created.apply encodedLen (fun _ => 0) second 0 = outcome at happlied hnewest
  cases happlied with
  | retired h | refreshed _ h heq => simp_all
  | stale _ h hlt => grind
  | replaced _ _ _ _ hholds hleft =>
    rcases hnewest with hfresh | hheld
    · simp_all
    · exact hother ⟨hholds.1.symm.trans hheld.1, hholds.2.1.symm.trans hheld.2.1⟩

theorem single_of_converges (h : history.Converges) : history.epochs.length = 1 := by
  have hall : ∀ epoch ∈ history.epochs, epoch.1 = history.newestEpoch.1 := by
    intro epoch hepoch
    by_contra hne
    obtain ⟨revision, hrevision⟩ := List.exists_mem_of_ne_nil _ (history.published epoch hepoch)
    refine not_converges_of_replaced (history.newest none)
      ⟨epoch.1, revision.1, revision.2, none⟩ History.publishes_newest
      ⟨epoch.2, hepoch, hrevision⟩ rfl (fun heq => absurd heq hne) (fun heq => hne heq.1) h
  have hsub : history.epochs.map Prod.fst ⊆ [history.newestEpoch.1] := by
    grind
  have hle := (List.subperm_of_subset history.distinct hsub).length_le
  grind [List.length_pos_iff, History.nonempty]

theorem atMostTwo_of_converges (h : history.Converges) : history.newestEpoch.2.length ≤ 2 := by
  by_contra hgt
  have hrising := history.rising _ history.newestEpoch_mem
  rcases hrevisions : history.newestEpoch.2 with _ | ⟨first, _ | ⟨second, later⟩⟩
  · simp [hrevisions] at hgt
  · simp [hrevisions] at hgt
  -- The first two revisions of three or more; the newest is after both.
  have hne : later ≠ [] := by
    rintro rfl
    simp [hrevisions] at hgt
  have hnewest : history.newestRevision = later.getLast hne := by
    grind [History.newestRevision]
  have hmem : later.getLast hne ∈ later := List.getLast_mem hne
  rw [hrevisions] at hrising
  simp only [List.map_cons, List.pairwise_cons] at hrising
  obtain ⟨hfirst, hsecond, -⟩ := hrising
  have hfirstMem : history.Publishes history.newestEpoch.1 first.1 first.2 :=
    ⟨_, history.newestEpoch_mem, hrevisions ▸ List.mem_cons_self⟩
  have hsecondMem : history.Publishes history.newestEpoch.1 second.1 second.2 :=
    ⟨_, history.newestEpoch_mem, hrevisions ▸ List.mem_cons_of_mem _ List.mem_cons_self⟩
  refine not_converges_of_replaced ⟨history.newestEpoch.1, first.1, first.2, none⟩
    ⟨history.newestEpoch.1, second.1, second.2, none⟩ hfirstMem hsecondMem rfl
    (fun _ => hfirst _ List.mem_cons_self) (fun heq => ?_) h
  grind [List.mem_map_of_mem]

/-- **The cache converges to the newest snapshot** after a run iff the latest epoch is not retired
or the newest snapshot is there already, and takes a later revision of its own epoch iff that epoch
is not retired. All runs of a history converge iff it has one epoch and at most two revisions. -/
theorem converges_iff (history : History encodedLen) :
    (∀ {first madeAt created calls}, history.Carries first →
      fromSnapshot encodedLen first madeAt = .ok created →
      (∀ call ∈ calls, history.Allows call) →
      let cache := (cacheMachine encodedLen created).run calls
      (∀ order serverPresenceTtl learnedAt,
        ((cacheMachine encodedLen created).run
            (calls ++ [.apply order (history.newest serverPresenceTtl) learnedAt])).HoldsExactly
              encodedLen (history.newest serverPresenceTtl) ↔
          cache.retiredEpochs.contains history.newestEpoch.1 = false ∨
            cache.HoldsExactly encodedLen (history.newest serverPresenceTtl)) ∧
      ∀ order snapshot learnedAt, history.Carries snapshot →
        snapshot.runtimeEpoch = cache.runtimeEpoch → cache.revision < snapshot.revision →
        ((cache.apply encodedLen order snapshot learnedAt).2 = .ok .replaced ↔
          cache.retiredEpochs.contains snapshot.runtimeEpoch = false)) ∧
    (history.Converges ↔ history.AtMostTwoRevisions) := by
  refine ⟨fun hcarries hcreated hallowed => ⟨fun order serverPresenceTtl learnedAt => ?_, ?_⟩,
    fun h => ⟨single_of_converges h, atMostTwo_of_converges h⟩, converges_of_atMostTwoRevisions⟩
  · rw [Machine.run_snoc]
    exact apply_newest_iff (keepsTo_run hcarries hcreated hallowed) serverPresenceTtl
  · intro order snapshot learnedAt hsnapshot _ hlater
    exact apply_later_iff (keepsTo_run hcarries hcreated hallowed) hsnapshot hlater

end Keeps

/-! ## Three revisions of one epoch -/

/-- A LAN candidate at port `port`. -/
def lanCandidate (port : ℕ) : CandidatePayloadV2 where
  version := 2
  candidateId := "lan-0"
  endpoint := .v4 0xc0a80102 port
  kind := .lan
  transportCapabilities := [.quic, .tcp]
  priority := 100
  interface := "wlan0"
  generation := 1

/-- An encoding of 256 bytes for each candidate. -/
def someEncodedLen (candidates : List CandidatePayloadV2) : Option ℕ :=
  some (256 * candidates.length + 2)

/-- A peer that moves to another port twice without a restart. -/
def threeRevisions : History someEncodedLen where
  epochs := [(⟨7, 7⟩,
    [(1, [lanCandidate 4001]), (2, [lanCandidate 4002]), (3, [lanCandidate 4003])])]
  nonempty := nofun
  distinct := by decide
  published := by decide
  rising := by decide
  valid := by
    intro epoch hepoch revision hrevision
    rw [List.mem_singleton.mp hepoch] at hrevision
    have hvalid : ∀ port ∈ [4001, 4002, 4003],
        normalizeCandidates someEncodedLen [lanCandidate port] = .ok [lanCandidate port] := by
      decide +kernel
    simp only [List.mem_cons, List.not_mem_nil, or_false] at hrevision
    rcases hrevision with rfl | rfl | rfl
    · exact ⟨_, hvalid 4001 (by decide)⟩
    · exact ⟨_, hvalid 4002 (by decide)⟩
    · exact ⟨_, hvalid 4003 (by decide)⟩

/-- The snapshot of revision `revision`. -/
def revisionSnapshot (revision : ℕ) : ResolvedCandidateSnapshot :=
  ⟨⟨7, 7⟩, revision, [lanCandidate (4000 + revision)], none⟩

/-- **The third revision is ignored**: the cache made from the first revision takes the second,
which retires the epoch, and stays with the second for good. -/
theorem third_revision_ignored :
    threeRevisions.newest none = revisionSnapshot 3 ∧
    (ResolvedCandidateCache.fromSnapshot someEncodedLen (revisionSnapshot 1) 0).toOption.map
        (fun created =>
          (((cacheMachine someEncodedLen created).transcript
              [.apply (fun _ => 0) (revisionSnapshot 2) 1,
                .apply (fun _ => 0) (revisionSnapshot 3) 2]).map Prod.snd,
            ((cacheMachine someEncodedLen created).run
              [.apply (fun _ => 0) (revisionSnapshot 2) 1,
                .apply (fun _ => 0) (revisionSnapshot 3) 2]).revision)) =
      some ([.inl (.ok .replaced), .inl (.ok .ignoredStale)], 2) ∧
    ¬ threeRevisions.Converges := by
  refine ⟨rfl, by decide +kernel, fun hconverges => ?_⟩
  exact absurd (atMostTwo_of_converges hconverges) (by decide)

end SshMobile.Connect
