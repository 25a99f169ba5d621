import SshMobile.Crypto.Ledger
import SshMobile.Crypto.Replay
import SshMobile.Library.Related

/-!
# Keys and nonces over whole runs

Over any run of a context the envelopes it produced are sealed with pairwise different pairs of a
key and a nonce, and no key seals more messages or bytes than its share. The nonces themselves may
repeat, since the prefix of a later epoch can be that of an earlier one: it is the key that differs
then.

A key and a nonce therefore belong to one envelope, and with it to one associated data. What is
authentic was sealed, so an envelope opens for the message or the chunk it was sealed for only.

## Main definitions

* `Sent`, `sentEnvelopes`: the envelopes that a run has produced
* `keyAndNonce`: what an envelope was sealed with
* `HkdfSeparates`: different info strings of a session give different keys
* `NonceDiscipline`: the keys and nonces of a list of envelopes
* `Unforged`: AES-GCM opens nothing that was not sealed

## Main results

* `ledger_run`: every run has a ledger
* `nonce_discipline_run`: the discipline holds for every run
* `aad_unambiguous`: an envelope of a run opens for the fields it was sealed for only
-/

namespace SshMobile.Crypto

open Library

/-! ## The envelopes of a run -/

/-- An envelope that a run has produced, and its message. -/
structure Sent where
  aad : Bytes
  plaintext : Bytes
  envelope : Bytes
deriving DecidableEq

def sentBy : CryptoOp × CryptoOutput → Option Sent
  | (.encrypt aad plaintext, .bytes (.ok envelope)) => some ⟨aad, plaintext, envelope⟩
  | _ => none

/-- The envelopes that a run has produced, in order. -/
def sentEnvelopes (history : List (CryptoOp × CryptoOutput)) : List Sent := history.filterMap sentBy

variable {history : List (CryptoOp × CryptoOutput)} {step : CryptoOp × CryptoOutput}

theorem sentEnvelopes_snoc_none
    (h : sentBy step = none) :
    sentEnvelopes (history ++ [step]) = sentEnvelopes history := by
  grind [sentEnvelopes]

theorem sentEnvelopes_snoc_some
    {sent : Sent} (h : sentBy step = some sent) :
    sentEnvelopes (history ++ [step]) = sentEnvelopes history ++ [sent] := by
  grind [sentEnvelopes]

/-- The envelopes are those of the uses, one for one. -/
def Recorded (p : Primitives) (ctx : CryptoContext) : List Sent → List KeyUse → Prop :=
  List.Forall₂ fun sent use => SealedAs p ctx sent.aad sent.plaintext sent.envelope use

variable {ctx : CryptoContext} {p : Primitives}

theorem Recorded.snoc {sent : List Sent}
    {uses : List KeyUse} (h : Recorded p ctx sent uses) {s : Sent} {use : KeyUse}
    (hsealed : SealedAs p ctx s.aad s.plaintext s.envelope use) :
    Recorded p ctx (sent ++ [s]) (uses ++ [use]) :=
  List.rel_append h (.cons hsealed .nil)

theorem decryptInternal_send (p : Primitives) (ctx : CryptoContext) (aad envelope : Bytes)
    (allow : Bool) :
    SameSession ctx (decryptInternal p ctx aad envelope allow).1 ∧
      (decryptInternal p ctx aad envelope allow).1.counters = ctx.counters := by
  cases hresult : (decryptInternal p ctx aad envelope allow).2 with
  | error error =>
    rw [decryptInternal_error hresult]
    exact ⟨.refl ctx, rfl⟩
  | ok clear =>
    obtain ⟨epoch, nonce, window, -, -, heq⟩ := decryptInternal_ok hresult
    rw [heq]
    exact ⟨⟨rfl, rfl, rfl, rfl⟩, rfl⟩

/-- **The ledger of a run**: what it has produced, recorded use by use. -/
structure RunLedger (p : Primitives) (ctx : CryptoContext) (s : CryptoContext)
    (history : List (CryptoOp × CryptoOutput)) (uses : List KeyUse) : Prop where
  sameSession : SameSession ctx s
  ledger : Ledger s.counters uses
  recorded : Recorded p ctx (sentEnvelopes history) uses

namespace RunLedger

variable {s : CryptoContext} {uses : List KeyUse}

section

variable (h : RunLedger p ctx s history uses)

include h

/-- **An encryption** adds the use of its envelope to the ledger, if it has produced one. -/
theorem encrypt (aad plaintext : Bytes) :
    let result := encrypt p s aad plaintext
    let history' := history ++ [(CryptoOp.encrypt aad plaintext, CryptoOutput.bytes result.2)]
    (RunLedger p ctx result.1 history' uses ∧ s.counters.Rests plaintext.length result.1.counters) ∨
      ∃ c, s.counters.Rests plaintext.length c ∧ ¬ c.Spent plaintext.length ∧
        result.1.counters = c.used plaintext.length ∧
        RunLedger p ctx result.1 history' (uses ++ [⟨c.epoch, c.counter, plaintext.length⟩]) := by
  intro result history'
  obtain ⟨hsame, herror | hok⟩ := encrypt_cases p s aad plaintext h.ledger.epoch_le
  · obtain ⟨error, hresult, hrests⟩ := herror
    refine .inl ⟨⟨h.sameSession.trans hsame, h.ledger.rest hrests, ?_⟩, hrests⟩
    grind [sentBy, sentEnvelopes_snoc_none, recorded]
  · obtain ⟨envelope, c, hresult, hrests, hroom, hcounter, hcounters, hsealed⟩ := hok
    refine .inr ⟨c, hrests, hroom, hcounters, h.sameSession.trans hsame, ?_, ?_⟩
    · rw [hcounters]
      exact (h.ledger.rest hrests).use hroom hcounter
    · have hsome : sentBy (.encrypt aad plaintext, .bytes result.2) =
          some ⟨aad, plaintext, envelope⟩ := by
        simp only [result, hresult, sentBy]
      rw [sentEnvelopes_snoc_some hsome]
      exact h.recorded.snoc (hsealed.of_sameSession h.sameSession)

theorem rotate :
    RunLedger p ctx (rotateKey s).1
      (history ++ [(.rotate, .epoch (rotateKey s).2)]) uses := by
  have hrecorded : Recorded p ctx
      (sentEnvelopes (history ++ [(.rotate, .epoch (rotateKey s).2)])) uses := by
    rw [sentEnvelopes_snoc_none rfl]
    exact h.recorded
  rcases rotateKey_cases s with herror | ⟨hsame, hrotated, -⟩
  · rw [herror] at hrecorded ⊢
    exact ⟨h.sameSession, h.ledger, hrecorded⟩
  · exact ⟨h.sameSession.trans hsame, h.ledger.rotate hrotated, hrecorded⟩

theorem decrypt (aad envelope : Bytes) (allow : Bool) (hstep : sentBy step = none) :
    RunLedger p ctx (decryptInternal p s aad envelope allow).1 (history ++ [step]) uses := by
  obtain ⟨hsame, hcounters⟩ := decryptInternal_send p s aad envelope allow
  refine ⟨h.sameSession.trans hsame, ?_, ?_⟩
  · rw [hcounters]
    exact h.ledger
  · rw [sentEnvelopes_snoc_none hstep]
    exact h.recorded

end

end RunLedger

/-- The messages of a run are no longer than a key may seal. -/
def WithinKey : CryptoOp → Prop
  | .encrypt _ plaintext => plaintext.length ≤ maxBytesPerKey
  | .rotate => True
  | .decrypt _ _ => True
  | .decryptForDelivery _ _ => True

instance : DecidablePred WithinKey
  | .encrypt _ _ => inferInstanceAs (Decidable (_ ≤ _))
  | .rotate => inferInstanceAs (Decidable True)
  | .decrypt _ _ => inferInstanceAs (Decidable True)
  | .decryptForDelivery _ _ => inferInstanceAs (Decidable True)

/-- A use of a key with room keeps the bytes of every key within its share. -/
theorem bytesIn_use_le {c : Counters} {uses : List KeyUse} {n : ℕ} (h : Ledger c uses)
    (hroom : ¬ c.Spent n) (hn : n ≤ maxBytesPerKey)
    (hbytes : ∀ epoch, bytesIn uses epoch ≤ maxBytesPerKey) (epoch : ℕ) :
    bytesIn (uses ++ [⟨c.epoch, c.counter, n⟩]) epoch ≤ maxBytesPerKey := by
  rw [Counters.Spent, not_or, Nat.not_lt] at hroom
  rw [bytesIn_append]
  by_cases hepoch : c.epoch = epoch
  · subst hepoch
    have hone : bytesIn [⟨c.epoch, c.counter, n⟩] c.epoch = n := by simp [bytesIn, usesIn]
    rw [hone, ← h.bytes_eq]
    omega
  · have hzero : bytesIn [⟨c.epoch, c.counter, n⟩] epoch = 0 := by simp [bytesIn, usesIn, hepoch]
    rw [hzero]
    exact hbytes epoch

/-- **Every run has a ledger**, and no key in it has sealed more bytes than its share. -/
theorem ledger_run (p : Primitives) (rootKey : Key) (initiator : Bool) {ops : List CryptoOp}
    (hops : ∀ op ∈ ops, WithinKey op) :
    ∃ uses, RunLedger p (fromSessionRoot rootKey initiator)
        ((cryptoMachine p rootKey initiator).run ops)
        ((cryptoMachine p rootKey initiator).transcript ops) uses ∧
      ∀ epoch, bytesIn uses epoch ≤ maxBytesPerKey := by
  refine (cryptoMachine p rootKey initiator).transcript_invariant (P := fun _ op => WithinKey op)
    (I := fun s history => ∃ uses, RunLedger p (fromSessionRoot rootKey initiator) s history uses ∧
      ∀ epoch, bytesIn uses epoch ≤ maxBytesPerKey) ?_ ?_
    (Machine.alongFrom_of_forall _ _ hops)
  · exact ⟨[], ⟨.refl _, ledger_start rootKey initiator, .nil⟩, fun _ => Nat.zero_le _⟩
  · rintro s history op ⟨uses, h, hbytes⟩ hop
    cases op with
    | encrypt aad plaintext =>
      rcases h.encrypt aad plaintext with ⟨hstep, -⟩ | ⟨c, hrests, hroom, -, hstep⟩
      · exact ⟨uses, hstep, hbytes⟩
      · exact ⟨_, hstep, bytesIn_use_le (h.ledger.rest hrests) hroom hop hbytes⟩
    | rotate => exact ⟨uses, h.rotate, hbytes⟩
    | decrypt aad envelope => exact ⟨uses, h.decrypt aad envelope false rfl, hbytes⟩
    | decryptForDelivery aad envelope => exact ⟨uses, h.decrypt aad envelope true rfl, hbytes⟩

/-- A run with messages of any length has a ledger too. -/
theorem runLedger_run (p : Primitives) (rootKey : Key) (initiator : Bool) (ops : List CryptoOp) :
    ∃ uses, RunLedger p (fromSessionRoot rootKey initiator)
      ((cryptoMachine p rootKey initiator).run ops)
      ((cryptoMachine p rootKey initiator).transcript ops) uses := by
  refine (cryptoMachine p rootKey initiator).transcript_always
    (I := fun s history => ∃ uses, RunLedger p (fromSessionRoot rootKey initiator) s history uses)
    ⟨[], .refl _, ledger_start rootKey initiator, .nil⟩ ?_ ops
  rintro s history op ⟨uses, h⟩
  cases op with
  | encrypt aad plaintext =>
    rcases h.encrypt aad plaintext with ⟨hstep, -⟩ | ⟨c, -, -, -, hstep⟩
    · exact ⟨uses, hstep⟩
    · exact ⟨_, hstep⟩
  | rotate => exact ⟨uses, h.rotate⟩
  | decrypt aad envelope => exact ⟨uses, h.decrypt aad envelope false rfl⟩
  | decryptForDelivery aad envelope => exact ⟨uses, h.decrypt aad envelope true rfl⟩

/-! ## Keys -/

/-- The info string of the traffic that the initiator, or the responder, sends. -/
def trafficInfo (initiator : Bool) : Bytes :=
  if initiator then initiatorToResponderKdfInfo else responderToInitiatorKdfInfo

/-- The info strings that a session expands: both directions, all epochs. -/
def SessionInfo (info : Bytes) : Prop :=
  ∃ initiator epoch, epoch ≤ u64Max ∧ info = trafficInfo initiator ++ beBytes 8 epoch

/-- **HKDF separates the info strings of a session**: different ones give different keys. -/
def HkdfSeparates (p : Primitives) (rootKey : Key) : Prop :=
  ∀ info info' key, SessionInfo info → SessionInfo info' →
    p.hkdf [] rootKey.toList info = some key → p.hkdf [] rootKey.toList info' = some key →
      info = info'

theorem txInfo_fromSessionRoot (rootKey : Key) (initiator : Bool) :
    (fromSessionRoot rootKey initiator).txInfo = trafficInfo initiator := rfl

theorem rxInfo_fromSessionRoot (rootKey : Key) (initiator : Bool) :
    (fromSessionRoot rootKey initiator).rxInfo = trafficInfo (!initiator) := by
  cases initiator <;> rfl

theorem epochKey_eq_ok {info : Bytes} {epoch : ℕ} {key : Key} :
    epochKey p ctx info epoch = .ok key ↔
      p.hkdf [] ctx.rootKey.toList (info ++ beBytes 8 epoch) = some key := by
  grind [epochKey, deriveMaterial]

/-- **A key belongs to one direction and one epoch.** -/
theorem HkdfSeparates.eq_of_key {rootKey : Key} (h : HkdfSeparates p rootKey)
    (hroot : ctx.rootKey = rootKey) {i i' : Bool} {epoch epoch' : ℕ}
    {key : Key} (hepoch : epoch ≤ u64Max) (hepoch' : epoch' ≤ u64Max)
    (hkey : epochKey p ctx (trafficInfo i) epoch = .ok key)
    (hkey' : epochKey p ctx (trafficInfo i') epoch' = .ok key) : i = i' ∧ epoch = epoch' := by
  rw [epochKey_eq_ok, hroot] at hkey hkey'
  have hinfo := h _ _ key ⟨i, epoch, hepoch, rfl⟩ ⟨i', epoch', hepoch', rfl⟩ hkey hkey'
  have hlength : (beBytes 8 epoch).length = (beBytes 8 epoch').length := by
    rw [length_beBytes, length_beBytes]
  obtain ⟨hdirection, hbytes⟩ := List.append_inj' hinfo hlength
  rw [u64Max] at hepoch hepoch'
  refine ⟨?_, beBytes_inj (by omega) (by omega) hbytes⟩
  cases i <;> cases i' <;> first | rfl | exact absurd hdirection (by decide)

/-! ## The discipline -/

/-- The key and the nonce that an envelope names, for the sender `ctx`. -/
def keyAndNonce (p : Primitives) (ctx : CryptoContext) (envelope : Bytes) : Option (Key × Nonce) :=
  match epochKey p ctx ctx.txInfo (envelopeEpoch envelope), envelopeNonce envelope with
  | .ok key, some nonce => some (key, nonce)
  | .ok _, none => none
  | .error _, _ => none

/-- The envelopes that were sealed under a key. -/
def sealedUnder (p : Primitives) (ctx : CryptoContext) (key : Key) (sent : List Sent) : List Sent :=
  sent.filter fun s => (keyAndNonce p ctx s.envelope).map Prod.fst = some key

/-- **The discipline of keys and nonces**: every envelope was sealed under the key and nonce that it
names, no two under the same, no key more often or for more bytes than its share, and the two
directions of the session have no key in common. -/
structure NonceDiscipline (p : Primitives) (ctx : CryptoContext) (sent : List Sent) : Prop where
  named : ∀ s ∈ sent, ∃ key nonce, keyAndNonce p ctx s.envelope = some (key, nonce) ∧
    p.sealBytes key nonce s.aad s.plaintext = some (s.envelope.drop envelopeHeaderBytes)
  unique : (sent.map fun s => keyAndNonce p ctx s.envelope).Nodup
  messages_le : ∀ key, (sealedUnder p ctx key sent).length ≤ maxMessagesPerKey
  bytes_le : ∀ key,
    ((sealedUnder p ctx key sent).map fun s => s.plaintext.length).sum ≤ maxBytesPerKey
  directions : ∀ epoch epoch' key key', epoch ≤ u64Max → epoch' ≤ u64Max →
    epochKey p ctx ctx.txInfo epoch = .ok key → epochKey p ctx ctx.rxInfo epoch' = .ok key' →
      key ≠ key'

theorem SealedAs.keyAndNonce {aad plaintext envelope : Bytes}
    {use : KeyUse} (h : SealedAs p ctx aad plaintext envelope use) :
    ∃ key bytes, Crypto.keyAndNonce p ctx envelope = some (key, structuredNonce bytes use.counter) ∧
      epochKey p ctx ctx.txInfo use.epoch = .ok key ∧
      Crypto.noncePrefix p ctx ctx.txInfo use.epoch = .ok bytes ∧
      p.sealBytes key (structuredNonce bytes use.counter) aad plaintext =
        some (envelope.drop envelopeHeaderBytes) := by
  grind [exists_sealed, keyAndNonce, envelopeEpoch_sealed, epoch_le, envelopeNonce_sealed,
    drop_sealedEnvelope]

section Discipline

variable {rootKey : Key} {initiator : Bool}

/-- Uses that differ in their epoch or counter have another key or another nonce. -/
theorem keyAndNonce_ne (hkdf : HkdfSeparates p rootKey) {s s' : Sent} {use use' : KeyUse}
    (h : SealedAs p (fromSessionRoot rootKey initiator) s.aad s.plaintext s.envelope use)
    (h' : SealedAs p (fromSessionRoot rootKey initiator) s'.aad s'.plaintext s'.envelope use')
    (hne : use.epoch ≠ use'.epoch ∨ use.counter ≠ use'.counter) :
    keyAndNonce p (fromSessionRoot rootKey initiator) s.envelope ≠
      keyAndNonce p (fromSessionRoot rootKey initiator) s'.envelope := by
  obtain ⟨key, bytes, hnamed, hkey, hbytes, -⟩ := h.keyAndNonce
  obtain ⟨key', bytes', hnamed', hkey', hbytes', -⟩ := h'.keyAndNonce
  rw [hnamed, hnamed']
  intro heq
  obtain ⟨rfl, hnonce⟩ := Prod.mk.inj (Option.some.inj heq)
  obtain ⟨-, hepoch⟩ := hkdf.eq_of_key rfl h.epoch_le h'.epoch_le hkey hkey'
  rw [hepoch, hbytes'] at hbytes
  grind [structuredNonce_inj, SealedAs.counter_le]

/-- **No two envelopes of a run** have the same key and nonce. -/
theorem RunLedger.nodup_keyAndNonce (hkdf : HkdfSeparates p rootKey) {s : CryptoContext}
    {uses : List KeyUse} (h : RunLedger p (fromSessionRoot rootKey initiator) s history uses) :
    ((sentEnvelopes history).map fun s =>
      keyAndNonce p (fromSessionRoot rootKey initiator) s.envelope).Nodup := by
  refine List.pairwise_map.mpr ?_
  -- different uses have different keys or nonces, since the key derivation separates epochs
  refine pairwise_of_forall₂ ?_ h.recorded (Ledger.ne_of_ordered h.ledger.ordered)
  grind [keyAndNonce_ne]

/-- The envelopes sealed under a key are uses of one epoch. -/
theorem epoch_of_sealedUnder (hkdf : HkdfSeparates p rootKey) {key : Key} {epoch : ℕ}
    (hepoch : epoch ≤ u64Max)
    (hkey : epochKey p (fromSessionRoot rootKey initiator)
      (fromSessionRoot rootKey initiator).txInfo epoch = .ok key)
    (s : Sent) (use : KeyUse)
    (h : SealedAs p (fromSessionRoot rootKey initiator) s.aad s.plaintext s.envelope use)
    (hs : decide ((keyAndNonce p (fromSessionRoot rootKey initiator) s.envelope).map Prod.fst =
      some key) = true) :
    decide (use.epoch = epoch) = true ∧ s.plaintext.length ≤ use.bytes := by
  obtain ⟨key', bytes, hnamed, hkey', -⟩ := h.keyAndNonce
  rw [decide_eq_true_eq, hnamed] at hs
  obtain rfl : key' = key := Option.some.inj hs
  obtain ⟨-, heq⟩ := hkdf.eq_of_key rfl h.epoch_le hepoch hkey' hkey
  exact ⟨decide_eq_true heq, h.bytes_eq.ge⟩

/-- A key has sealed nothing, or is the key of an epoch. -/
theorem sealedUnder_cases {sent : List Sent} {uses : List KeyUse}
    (hrecorded : Recorded p (fromSessionRoot rootKey initiator) sent uses) (key : Key) :
    sealedUnder p (fromSessionRoot rootKey initiator) key sent = [] ∨
      ∃ epoch ≤ u64Max, epochKey p (fromSessionRoot rootKey initiator)
        (fromSessionRoot rootKey initiator).txInfo epoch = .ok key := by
  refine or_iff_not_imp_left.mpr fun hsome => ?_
  obtain ⟨s, hs⟩ := List.exists_mem_of_ne_nil _ hsome
  rw [sealedUnder, List.mem_filter, decide_eq_true_eq] at hs
  obtain ⟨use, -, hsealed⟩ := exists_of_mem_forall₂ hrecorded hs.1
  grind [SealedAs.keyAndNonce, SealedAs.epoch_le]

/-- **Nonces are unique**: for every run of encryptions, rotations and decryptions in any order,
with messages that fit a key, failed calls included. -/
theorem nonce_discipline_run (hkdf : HkdfSeparates p rootKey) (ops : List CryptoOp)
    (hops : ∀ op ∈ ops, WithinKey op) :
    NonceDiscipline p (fromSessionRoot rootKey initiator)
      (sentEnvelopes ((cryptoMachine p rootKey initiator).transcript ops)) := by
  obtain ⟨uses, hrun, hbytes⟩ := ledger_run p rootKey initiator hops
  have hrecorded := hrun.recorded
  have hnodup := hrun.nodup_keyAndNonce hkdf
  -- everything is read off the ledger: use by use for the nonces, epoch by epoch for the limits
  generalize sentEnvelopes ((cryptoMachine p rootKey initiator).transcript ops) = sent
    at hrecorded hnodup
  refine ⟨?_, ?_, ?_, ?_, ?_⟩
  · intro s hs
    obtain ⟨use, -, hsealed⟩ := exists_of_mem_forall₂ hrecorded hs
    grind [SealedAs.keyAndNonce]
  · exact hnodup
  · intro key
    rcases sealedUnder_cases hrecorded key with hnone | ⟨epoch, hepoch, hkey⟩
    · rw [hnone]
      exact Nat.zero_le _
    · exact (length_filter_le_of_forall₂
        (fun s use h hs => (epoch_of_sealedUnder hkdf hepoch hkey s use h hs).1) hrecorded).trans
          (hrun.ledger.length_le epoch)
  · intro key
    rcases sealedUnder_cases hrecorded key with hnone | ⟨epoch, hepoch, hkey⟩
    · rw [hnone]
      exact Nat.zero_le _
    · exact (sum_filter_le_of_forall₂
        (fun s use h hs => epoch_of_sealedUnder hkdf hepoch hkey s use h hs) hrecorded).trans
          (hbytes epoch)
  · rintro epoch epoch' key _ hepoch hepoch' hkey hkey' rfl
    -- a key of both directions would make the two roles equal
    rw [rxInfo_fromSessionRoot] at hkey'
    rw [txInfo_fromSessionRoot] at hkey
    obtain ⟨hdirection, -⟩ := hkdf.eq_of_key rfl hepoch hepoch' hkey hkey'
    cases initiator <;> cases hdirection

end Discipline

/-- The checksum primitives keep the end of an info string, which tells direction and epoch. -/
theorem hkdfSeparates_checksum (rootKey : Key) : HkdfSeparates checksumPrimitives rootKey := by
  have hend : ∀ i epoch, (trafficInfo i ++ beBytes 8 epoch).rtake 32 =
      (trafficInfo i).rtake 24 ++ beBytes 8 epoch := by
    intro i epoch
    have hlength : (trafficInfo i).length = 56 := by cases i <;> decide
    rw [List.rtake, List.rtake, List.length_append, length_beBytes, hlength,
      List.drop_append_of_le_length (by omega)]
  rintro info info' key ⟨i, epoch, hepoch, rfl⟩ ⟨i', epoch', hepoch', rfl⟩ hkey hkey'
  simp only [checksumPrimitives, hend] at hkey hkey'
  have hlist := (toList_of_ofLength? hkey).symm.trans (toList_of_ofLength? hkey')
  obtain ⟨hdirection, hbytes⟩ := List.append_inj' hlist (by simp)
  have hinfo : trafficInfo i = trafficInfo i' := by
    revert hdirection
    cases i <;> cases i' <;> decide
  rw [hinfo, hbytes]

theorem nonce_discipline_run_sample :
    NonceDiscipline checksumPrimitives (fromSessionRoot sampleRoot true)
      (sentEnvelopes ((cryptoMachine checksumPrimitives sampleRoot true).transcript
        [.encrypt [] [1, 2], .rotate, .encrypt [3] [1, 2]])) :=
  nonce_discipline_run (hkdfSeparates_checksum sampleRoot)
    [.encrypt [] [1, 2], .rotate, .encrypt [3] [1, 2]] (by decide)

/-! ## Authentic envelopes -/

/-- **No forgery**: if AES-GCM opens the ciphertext of an envelope under an associated data, then
the sender `ctx` has sealed it under that associated data, with the key and the nonce of the
envelope. -/
def Unforged (p : Primitives) (ctx : CryptoContext) (sent : List Sent) (aad envelope : Bytes) :
    Prop :=
  ∀ epoch nonce ciphertext key clear,
    parseEnvelope ctx.suite envelope = .ok (epoch, nonce, ciphertext) →
    epochKey p ctx ctx.txInfo epoch = .ok key → p.openBytes key nonce aad ciphertext = some clear →
    ∃ s ∈ sent, s.aad = aad ∧ keyAndNonce p ctx s.envelope = some (key, nonce) ∧
      p.sealBytes key nonce aad s.plaintext = some ciphertext

section Authentic

variable {rootKey : Key} {initiator : Bool} {receiver : CryptoContext} {aad envelope : Bytes}
  {opened : ℕ × Nonce × Bytes}

/-- What the other side opens was sealed, if it is no forgery. -/
theorem exists_sealed_of_opens {sent : List Sent}
    (hreceiver : SameSession (fromSessionRoot rootKey (!initiator)) receiver)
    (hunforged : Unforged p (fromSessionRoot rootKey initiator) sent aad envelope)
    (hopen : openEnvelope p receiver aad envelope = .ok opened) :
    ∃ s ∈ sent, s.aad = aad ∧ keyAndNonce p (fromSessionRoot rootKey initiator) s.envelope =
      keyAndNonce p (fromSessionRoot rootKey initiator) envelope := by
  obtain ⟨epoch, nonce, clear⟩ := opened
  obtain ⟨ciphertext, _, key, hparse, -, -, -, hkey, hclear⟩ := openEnvelope_ok_iff.mp hopen
  have hinfo : receiver.rxInfo = (fromSessionRoot rootKey initiator).txInfo := by
    rw [hreceiver.rxInfo, rxInfo_fromSessionRoot, txInfo_fromSessionRoot, Bool.not_not]
  rw [hinfo, hreceiver.epochKey] at hkey
  rw [hreceiver.suite] at hparse
  obtain ⟨s, hs, haad, hnamed, -⟩ := hunforged epoch nonce ciphertext key clear hparse hkey hclear
  refine ⟨s, hs, haad, hnamed.trans ?_⟩
  have hepoch : envelopeEpoch envelope = epoch := parseEnvelope_epoch hparse
  have hnonce : envelopeNonce envelope = some nonce := parseEnvelope_nonce hparse
  have hkey' : epochKey p (fromSessionRoot rootKey initiator)
      (fromSessionRoot rootKey initiator).txInfo epoch = .ok key := hkey
  rw [keyAndNonce, hepoch, hnonce, hkey']

/-- **Associated data is unambiguous**: it determines the kind and all the fields, and an envelope
of any run of the sender opens on the other side for the fields it was sealed for only. -/
theorem aad_unambiguous (hkdf : HkdfSeparates p rootKey) (initiator : Bool) (ops : List CryptoOp)
    {a b : AadFields} (ha : a.Short) (hb : b.Short) :
    (a.encode = b.encode → a = b) ∧
      ∀ (plaintext envelope : Bytes) (receiver : CryptoContext) (opened : ℕ × Nonce × Bytes),
        let sent := sentEnvelopes ((cryptoMachine p rootKey initiator).transcript ops)
        ⟨a.encode, plaintext, envelope⟩ ∈ sent →
        SameSession (fromSessionRoot rootKey (!initiator)) receiver →
        Unforged p (fromSessionRoot rootKey initiator) sent b.encode envelope →
        openEnvelope p receiver b.encode envelope = .ok opened → a = b := by
  refine ⟨AadFields.encode_inj ha hb, ?_⟩
  intro plaintext envelope receiver opened sent hsent hreceiver hunforged hopen
  obtain ⟨uses, hrun⟩ := runLedger_run p rootKey initiator ops
  obtain ⟨s, hs, haad, hnamed⟩ := exists_sealed_of_opens hreceiver hunforged hopen
  -- one key and one nonce, so the envelope that was sealed for `b` is this one
  have hsame := List.inj_on_of_nodup_map (hrun.nodup_keyAndNonce hkdf) hs hsent hnamed
  rw [hsame] at haad
  exact AadFields.encode_inj ha hb haad

end Authentic

/-- The clear fields of a message, and those of a chunk of the same session. -/
def sampleFields : AadFields := .dataMessage "session" "channel" [7] 1 0 2

def otherFields : AadFields := .fileChunk "session" "transfer" "hash" 1

/-- The message is sealed as the first one of its session. -/
def sampleEnvelope : Bytes :=
  sealedEnvelope .hkdfSha256Aes256GcmV1 0 (structuredNonce samplePrefix 0)
    ([1, 2] ++ checksumTag sampleKey (structuredNonce samplePrefix 0) sampleFields.encode [1, 2])

theorem parseEnvelope_sample : parseEnvelope .hkdfSha256Aes256GcmV1 sampleEnvelope =
    .ok (0, structuredNonce samplePrefix 0, [1, 2] ++
      checksumTag sampleKey (structuredNonce samplePrefix 0) sampleFields.encode [1, 2]) :=
  parseEnvelope_sealed (by decide) (by decide +kernel)

/-- The envelope opens for the message, and for no chunk. -/
theorem aad_unambiguous_sample :
    openEnvelope checksumPrimitives (fromSessionRoot sampleRoot false) sampleFields.encode
        sampleEnvelope = .ok (0, structuredNonce samplePrefix 0, [1, 2]) ∧
      ∀ b ∈ [sampleFields, otherFields], ∀ opened,
        openEnvelope checksumPrimitives (fromSessionRoot sampleRoot false) b.encode
          sampleEnvelope = .ok opened → sampleFields = b := by
  have hsent : ⟨sampleFields.encode, [1, 2], sampleEnvelope⟩ ∈
      sentEnvelopes ((cryptoMachine checksumPrimitives sampleRoot true).transcript
        [.encrypt sampleFields.encode [1, 2]]) := by
    decide +kernel
  refine ⟨by decide +kernel, fun b hb opened hopen => ?_⟩
  have hshort : b.Short := by
    rcases List.mem_pair.mp hb with rfl | rfl
    · exact ⟨by decide, by decide⟩
    · exact ⟨by decide, by decide, by decide⟩
  refine (aad_unambiguous (hkdfSeparates_checksum sampleRoot) true _
    (a := sampleFields) ⟨by decide, by decide⟩ hshort).2 [1, 2] sampleEnvelope _ opened hsent
    (.refl _) ?_ hopen
  intro epoch nonce ciphertext key clear hparse hkey hclear
  cases hparse.symm.trans parseEnvelope_sample
  obtain rfl : sampleKey = key := Except.ok.inj hkey
  rcases List.mem_pair.mp hb with rfl | rfl
  · exact ⟨_, hsent, rfl, by decide +kernel, rfl⟩
  · have hnone : checksumPrimitives.openBytes sampleKey (structuredNonce samplePrefix 0)
        otherFields.encode ([1, 2] ++ checksumTag sampleKey (structuredNonce samplePrefix 0)
          sampleFields.encode [1, 2]) = none := by
      decide +kernel
    cases hnone.symm.trans hclear

end SshMobile.Crypto
