import SshMobile.Library.Table

/-!
# Candidate payloads

A peer publishes the addresses it can be reached at as candidate payloads. A payload is checked
and brought into a canonical form before it is used; a snapshot of payloads is checked as a
whole, ordered, and identified by a fingerprint.

Serialization to JSON is third-party: only the length of the encoding is read, so it is a
parameter (`none` when serialization fails).

## Main definitions

* `CandidatePayloadV2`, `CandidatePayloadV2.validate`, `CandidatePayloadV2.normalized`
* `CandidateFingerprint`: the canonical identity of a candidate set
* `ResolvedCandidateSnapshot`, `ResolvedCandidateSnapshot.normalized`

## Main results

* `CandidatePayloadV2.normalized_of_normalized`: a canonical payload is its own canonical form
* `fromCandidates_of_normalized`: a checked snapshot has a fingerprint
-/

namespace SshMobile.Connect

structure RuntimeEpoch where
  high : ℕ
  low : ℕ
deriving DecidableEq

inductive CandidateKind
  | lan
  | publicIpv6
  | serverReflexive
  | portMapped
  | relay
deriving DecidableEq

def candidateKindOrder : CandidateKind → ℕ
  | .lan => 0
  | .publicIpv6 => 1
  | .serverReflexive => 2
  | .portMapped => 3
  | .relay => 4

inductive CandidateTransport
  | quic
  | tcp
  | websocket
  | udpDatagram
  | relay
deriving DecidableEq

def CandidateTransport.order : CandidateTransport → ℕ
  | .quic => 0
  | .tcp => 1
  | .websocket => 2
  | .udpDatagram => 3
  | .relay => 4

/-- A socket address; an address is the number its octets write. -/
inductive SocketAddr
  | v4 (ip port : ℕ)
  | v6 (ip port flowinfo scopeId : ℕ)
deriving DecidableEq

namespace SocketAddr

def ip : SocketAddr → ℕ
  | v4 ip _ => ip
  | v6 ip .. => ip

def port : SocketAddr → ℕ
  | v4 _ port => port
  | v6 _ port .. => port

/-- The derived order: version 4 before version 6, then field by field. -/
def cmp : SocketAddr → SocketAddr → Ordering
  | v4 ip port, v4 ip' port' => (compare ip ip').then (compare port port')
  | v4 .., v6 .. => .lt
  | v6 .., v4 .. => .gt
  | v6 ip port flow scope, v6 ip' port' flow' scope' =>
    (compare ip ip').then <| (compare port port').then <|
      (compare flow flow').then (compare scope scope')

end SocketAddr

def candidatePayloadVersion : ℕ := 2
def maxCandidatePayloadEntries : ℕ := 32
def maxCandidatePayloadBytes : ℕ := 32 * 1024
def maxCandidateIdBytes : ℕ := 128
def maxInterfaceBytes : ℕ := 128

/-- The default lifetime of a cached snapshot, in nanoseconds. -/
def defaultRemoteCandidateCacheTtl : ℕ := 60 * 1000000000

structure CandidatePayloadV2 where
  version : ℕ
  candidateId : String
  endpoint : SocketAddr
  kind : CandidateKind
  transportCapabilities : List CandidateTransport
  priority : ℕ
  interface : String
  generation : ℕ
deriving DecidableEq

inductive CandidatePayloadError
  | unsupportedVersion (version : ℕ)
  | invalidIdentity
  | invalidEndpoint
  | missingTransportCapability
  | duplicateTransport
  | duplicateCandidateId
  | invalidGeneration
  | srflxTransportMismatch
  | relayTransportMismatch
  | candidateSetTooLarge
  | candidatePayloadTooLarge
deriving DecidableEq

/-- Every byte is printable ASCII and no blank. A character outside ASCII is encoded by bytes
from `0x80` on, so it is enough to look at the characters. -/
def isAsciiGraphic (s : String) : Bool :=
  s.toList.all fun c => decide (0x21 ≤ c.toNat) && decide (c.toNat ≤ 0x7e)

/-- A non-empty printable name of at most `limit` bytes. -/
def validIdentity (limit : ℕ) (s : String) : Bool :=
  !s.isEmpty && decide (s.utf8ByteSize ≤ limit) && isAsciiGraphic s

namespace CandidatePayloadV2

/-- The transports fit the kind of the candidate: a server-reflexive address is a UDP mapping,
and a relay is never a direct transport. -/
def transportMismatch (candidate : CandidatePayloadV2) : Option CandidatePayloadError :=
  if candidate.kind = .serverReflexive ∧
      ∃ transport ∈ candidate.transportCapabilities,
        transport ≠ .quic ∧ transport ≠ .udpDatagram then
    some .srflxTransportMismatch
  else if candidate.kind = .relay then
    if ∃ transport ∈ candidate.transportCapabilities, transport ≠ .relay then
      some .relayTransportMismatch
    else none
  else if CandidateTransport.relay ∈ candidate.transportCapabilities then
    some .relayTransportMismatch
  else none

def validate (candidate : CandidatePayloadV2) : Except CandidatePayloadError Unit :=
  if candidate.version ≠ candidatePayloadVersion then
    .error (.unsupportedVersion candidate.version)
  else if !validIdentity maxCandidateIdBytes candidate.candidateId then .error .invalidIdentity
  else if !validIdentity maxInterfaceBytes candidate.interface then .error .invalidIdentity
  else if candidate.endpoint.ip = 0 ∨ candidate.endpoint.port = 0 then .error .invalidEndpoint
  else if candidate.transportCapabilities = [] then .error .missingTransportCapability
  else if ¬ candidate.transportCapabilities.Nodup then .error .duplicateTransport
  else if candidate.generation = 0 then .error .invalidGeneration
  else match candidate.transportMismatch with
    | some error => .error error
    | none => .ok ()

/-- The transports in their canonical order. -/
def sortTransports (candidate : CandidatePayloadV2) : CandidatePayloadV2 :=
  { candidate with
    transportCapabilities :=
      candidate.transportCapabilities.insertionSort fun l r => l.order ≤ r.order }

def normalized (candidate : CandidatePayloadV2) :
    Except CandidatePayloadError CandidatePayloadV2 :=
  match candidate.validate with
  | .error error => .error error
  | .ok () => .ok candidate.sortTransports

/-- The order of a candidate set. -/
def cmp (left right : CandidatePayloadV2) : Ordering :=
  (left.endpoint.cmp right.endpoint).then <|
    (compare (candidateKindOrder left.kind) (candidateKindOrder right.kind)).then
      (compare left.candidateId right.candidateId)

variable {candidate normal : CandidatePayloadV2}

theorem normalized_eq_ok :
    candidate.normalized = .ok normal ↔
      candidate.validate = .ok () ∧ candidate.sortTransports = normal := by
  unfold normalized
  cases candidate.validate with
  | error error | ok _ => simp

/-- Sorting the transports changes no check: each reads the transports as a set. -/
theorem validate_sortTransports (candidate : CandidatePayloadV2) :
    candidate.sortTransports.validate = candidate.validate := by
  have hperm : candidate.sortTransports.transportCapabilities.Perm
      candidate.transportCapabilities := List.perm_insertionSort _ _
  have hempty : candidate.sortTransports.transportCapabilities = [] ↔
      candidate.transportCapabilities = [] := by
    rw [← List.length_eq_zero_iff, hperm.length_eq, List.length_eq_zero_iff]
  have hnodup : candidate.sortTransports.transportCapabilities.Nodup ↔
      candidate.transportCapabilities.Nodup := hperm.nodup_iff
  have hmem : ∀ transport, transport ∈ candidate.sortTransports.transportCapabilities ↔
      transport ∈ candidate.transportCapabilities := fun _ => hperm.mem_iff
  have hmismatch : candidate.sortTransports.transportMismatch = candidate.transportMismatch := by
    simp only [transportMismatch, hmem]
    rfl
  simp only [validate, hempty, hnodup, hmismatch]
  rfl

/-- **A canonical payload is its own canonical form.** -/
theorem normalized_of_normalized (h : candidate.normalized = .ok normal) :
    normal.normalized = .ok normal := by
  obtain ⟨hvalid, rfl⟩ := normalized_eq_ok.mp h
  refine normalized_eq_ok.mpr ⟨(validate_sortTransports candidate).trans hvalid, ?_⟩
  have hsorted : candidate.sortTransports.transportCapabilities.Pairwise
      fun l r : CandidateTransport => l.order ≤ r.order := by
    have : Std.Total fun l r : CandidateTransport => l.order ≤ r.order :=
      ⟨fun l r => Nat.le_total l.order r.order⟩
    have : IsTrans CandidateTransport fun l r => l.order ≤ r.order :=
      ⟨fun _ _ _ => Nat.le_trans⟩
    exact List.pairwise_insertionSort _ _
  exact congrArg (fun transports => { candidate with transportCapabilities := transports })
    hsorted.insertionSort_eq

end CandidatePayloadV2

/-! ## Fingerprints -/

structure CandidateFingerprintEntry where
  candidateId : String
  endpoint : SocketAddr
  kind : CandidateKind
  transportCapabilities : List CandidateTransport
  priority : ℕ
  interface : String
  generation : ℕ
deriving DecidableEq

/-- The derived order of transport lists: position by position, a shorter list first. -/
def compareTransports : List CandidateTransport → List CandidateTransport → Ordering
  | [], [] => .eq
  | [], _ :: _ => .lt
  | _ :: _, [] => .gt
  | l :: ls, r :: rs => (compare l.order r.order).then (compareTransports ls rs)

namespace CandidateFingerprintEntry

def ofCandidate (candidate : CandidatePayloadV2) : CandidateFingerprintEntry where
  candidateId := candidate.candidateId
  endpoint := candidate.endpoint
  kind := candidate.kind
  transportCapabilities := candidate.transportCapabilities
  priority := candidate.priority
  interface := candidate.interface
  generation := candidate.generation

def cmp (left right : CandidateFingerprintEntry) : Ordering :=
  (compare left.candidateId right.candidateId).then <|
    (left.endpoint.cmp right.endpoint).then <|
    (compare (candidateKindOrder left.kind) (candidateKindOrder right.kind)).then <|
    (compareTransports left.transportCapabilities right.transportCapabilities).then <|
    (compare left.priority right.priority).then <|
    (compare left.interface right.interface).then (compare left.generation right.generation)

end CandidateFingerprintEntry

/-- **The canonical identity of a candidate set.** -/
abbrev CandidateFingerprint := List CandidateFingerprintEntry

def CandidateFingerprint.fromCandidates (candidates : List CandidatePayloadV2) :
    Except CandidatePayloadError CandidateFingerprint :=
  match candidates.mapM CandidatePayloadV2.normalized with
  | .error error => .error error
  | .ok candidates =>
    let entries := (candidates.map CandidateFingerprintEntry.ofCandidate).insertionSort
      fun l r => (l.cmp r).isLE
    -- Equal neighbours are merged.
    .ok (entries.destutter (· ≠ ·))

/-! ## Snapshots -/

structure ResolvedCandidateSnapshot where
  runtimeEpoch : RuntimeEpoch
  revision : ℕ
  candidates : List CandidatePayloadV2
  /-- The lifetime the server confirmed, in nanoseconds. -/
  serverPresenceTtl : Option ℕ
deriving DecidableEq

namespace ResolvedCandidateSnapshot

section Normalized

variable (encodedLen : List CandidatePayloadV2 → Option ℕ)

/-- The checks and the canonical form of a candidate set. -/
def normalizeCandidates (candidates : List CandidatePayloadV2) :
    Except CandidatePayloadError (List CandidatePayloadV2) :=
  if maxCandidatePayloadEntries < candidates.length then .error .candidateSetTooLarge
  else match candidates.mapM CandidatePayloadV2.normalized with
    | .error error => .error error
    | .ok candidates =>
      if ¬ (candidates.map CandidatePayloadV2.candidateId).Nodup then .error .duplicateCandidateId
      else match encodedLen candidates with
        | none => .error .candidatePayloadTooLarge
        | some length =>
          if maxCandidatePayloadBytes < length then .error .candidatePayloadTooLarge
          else .ok (candidates.insertionSort fun l r => (l.cmp r).isLE)

def normalized (snapshot : ResolvedCandidateSnapshot) :
    Except CandidatePayloadError ResolvedCandidateSnapshot :=
  match normalizeCandidates encodedLen snapshot.candidates with
  | .error error => .error error
  | .ok candidates => .ok { snapshot with candidates }

theorem normalized_eq_ok {snapshot : ResolvedCandidateSnapshot}
    {candidates : List CandidatePayloadV2}
    (h : normalizeCandidates encodedLen snapshot.candidates = .ok candidates) :
    snapshot.normalized encodedLen = .ok { snapshot with candidates } := by
  simp only [normalized, h]

end Normalized

def ttl (snapshot : ResolvedCandidateSnapshot) : ℕ :=
  (snapshot.serverPresenceTtl.filter (· ≠ 0)).getD defaultRemoteCandidateCacheTtl

end ResolvedCandidateSnapshot

variable {candidates normals : List CandidatePayloadV2}

open CandidatePayloadV2

/-- The canonical forms in a list are the canonical forms of the list's own elements. -/
theorem normalized_of_mem_mapM (h : candidates.mapM normalized = .ok normals) :
    ∀ normal ∈ normals, normal.normalized = .ok normal := by
  induction candidates generalizing normals with
  | nil =>
    cases h
    intro normal hmem
    cases hmem
  | cons candidate candidates ih =>
    rw [List.mapM_cons] at h
    rcases hhead : candidate.normalized with error | normal
    · rw [hhead] at h
      cases h
    · rcases htail : candidates.mapM normalized with error | rest
      · rw [hhead, htail] at h
        cases h
      · rw [hhead, htail] at h
        cases h
        intro other hmem
        rcases List.mem_cons.mp hmem with rfl | hmem
        · exact normalized_of_normalized hhead
        · exact ih htail other hmem

theorem mapM_normalized_self (h : ∀ candidate ∈ candidates, candidate.normalized = .ok candidate) :
    candidates.mapM normalized = .ok candidates := by
  induction candidates with
  | nil => rfl
  | cons candidate candidates ih =>
    rw [List.mapM_cons, h candidate List.mem_cons_self,
      ih fun other hmem => h other (List.mem_cons_of_mem _ hmem)]
    rfl

/-- **A checked snapshot has a fingerprint**: its payloads pass the checks a second time. -/
theorem fromCandidates_of_normalized {encodedLen : List CandidatePayloadV2 → Option ℕ}
    (h : ResolvedCandidateSnapshot.normalizeCandidates encodedLen candidates = .ok normals) :
    ∃ fingerprint, CandidateFingerprint.fromCandidates normals = .ok fingerprint := by
  unfold ResolvedCandidateSnapshot.normalizeCandidates at h
  split at h
  · cases h
  rcases hmap : candidates.mapM normalized with error | mapped <;>
    rw [hmap] at h
  · cases h
  dsimp only at h
  split at h
  · cases h
  split at h
  · cases h
  split at h
  · cases h
  cases h
  have hself : ∀ candidate ∈
      mapped.insertionSort fun l r : CandidatePayloadV2 => (l.cmp r).isLE,
      candidate.normalized = .ok candidate := fun candidate hmem =>
    normalized_of_mem_mapM hmap candidate ((List.mem_insertionSort _).mp hmem)
  unfold CandidateFingerprint.fromCandidates
  rw [mapM_normalized_self hself]
  exact ⟨_, rfl⟩

end SshMobile.Connect
