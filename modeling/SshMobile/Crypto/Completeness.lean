import SshMobile.Crypto.Nonces

/-!
# Completeness of an encrypted session

One side of a session encrypts a list of messages, rotating its key as it goes; the other side is
handed the envelopes in any order, with losses, each at most once, and byte strings that do not
authenticate in between. Every genuine envelope decrypts to its message as long as its epoch is not
too far from the last one accepted, and in order it always is: the sender never leaves an epoch
without an envelope in it.

## Main definitions

* `Delivery`, `received`: what the receiving side is handed, and its runs
* `InWindow`: the epoch of an envelope is near enough
* `Gradual`: epochs that never skip one
* `Complete`: what is claimed of a schedule

## Main results

* `gradual_sent`: the epochs of what was sent never skip one
* `session_complete`: every schedule is complete
-/

namespace SshMobile.Crypto

open Library

/-! ## The sender's epochs -/

/-- The encryptions of a list of messages, each with its associated data. -/
def sending (messages : List (Bytes × Bytes)) : List CryptoOp :=
  messages.map fun message => .encrypt message.1 message.2

/-- The last of a list of epochs; the first epoch where there is none. -/
def lastEpoch (epochs : List ℕ) : ℕ := (epochs.getLast?).getD 0

theorem lastEpoch_snoc (epochs : List ℕ) (epoch : ℕ) : lastEpoch (epochs ++ [epoch]) = epoch := by
  simp [lastEpoch]

/-- **Epochs that never skip one**: each is that of the last entry or the next. -/
inductive Gradual : List ℕ → Prop
  | nil : Gradual []
  | snoc {epochs : List ℕ} {epoch : ℕ} (h : Gradual epochs) (hle : lastEpoch epochs ≤ epoch)
      (hnext : epoch ≤ lastEpoch epochs + 1) : Gradual (epochs ++ [epoch])

variable {epoch : ℕ} {ctx : CryptoContext} {aad plaintext envelope : Bytes}
  {history : List (CryptoOp × CryptoOutput)} {step : CryptoOp × CryptoOutput} {error : CryptoError}

theorem Gradual.of_isPrefix {epochs front : List ℕ} (h : Gradual epochs)
    (hfront : front ++ [epoch] <+: epochs) :
    lastEpoch front ≤ epoch ∧ epoch ≤ lastEpoch front + 1 := by
  induction h with
  | nil => simp_all
  | @snoc epochs last h hle hnext ih =>
    grind [List.prefix_concat_iff, List.append_inj']

/-- The counters stand in the epoch of the last use, or in the next one with a fresh key. -/
structure Steady (c : Counters) (uses : List KeyUse) : Prop where
  gradual : Gradual (uses.map KeyUse.epoch)
  current : c.epoch = lastEpoch (uses.map KeyUse.epoch) ∨
    c.epoch = lastEpoch (uses.map KeyUse.epoch) + 1 ∧ c.messages = 0 ∧ c.bytes = 0

variable {uses : List KeyUse}

theorem Steady.rest {c c' : Counters} {n : ℕ} (h : Steady c uses)
    (hrests : c.Rests n c') : Steady c' uses := by
  refine ⟨h.gradual, ?_⟩
  rcases hrests with ⟨hepoch, -, -, hmessages, hbytes⟩ | ⟨hspent, hepoch, -, -, hzero⟩
  · grind [current]
  · grind [current, Counters.Spent, maxMessagesPerKey]

theorem Steady.use {c : Counters} {n : ℕ} (h : Steady c uses) :
    Steady (c.used n) (uses ++ [⟨c.epoch, c.counter, n⟩]) := by
  have hmap : (uses ++ [(⟨c.epoch, c.counter, n⟩ : KeyUse)]).map KeyUse.epoch =
      uses.map KeyUse.epoch ++ [c.epoch] := List.map_append
  refine ⟨?_, .inl ?_⟩
  · rw [hmap]
    rcases h.current with hcurrent | ⟨hcurrent, -⟩
    · exact .snoc h.gradual hcurrent.ge (by omega)
    · exact .snoc h.gradual (by omega) hcurrent.le
  · rw [hmap, lastEpoch_snoc]
    rfl

variable (p : Primitives) (rootKey : Key) (initiator : Bool) (messages : List (Bytes × Bytes))

/-- **The ledger of a list of messages** is gradual. -/
theorem steady_run :
    ∃ uses, RunLedger p (fromSessionRoot rootKey initiator)
        ((cryptoMachine p rootKey initiator).run (sending messages))
        ((cryptoMachine p rootKey initiator).transcript (sending messages)) uses ∧
      Steady ((cryptoMachine p rootKey initiator).run (sending messages)).counters uses := by
  refine (cryptoMachine p rootKey initiator).transcript_invariant
    (P := fun _ op => ∃ aad plaintext, op = .encrypt aad plaintext)
    (I := fun s history => ∃ uses, RunLedger p (fromSessionRoot rootKey initiator) s history uses ∧
      Steady s.counters uses) ?_ ?_ (Machine.alongFrom_of_forall _ _ ?_)
  · exact ⟨[], ⟨.refl _, ledger_start rootKey initiator, .nil⟩, .nil, .inl rfl⟩
  · rintro s history _ ⟨uses, h, hsteady⟩ ⟨aad, plaintext, rfl⟩
    rcases h.encrypt aad plaintext with ⟨hstep, hrests⟩ | ⟨c, hrests, -, hcounters, hstep⟩
    · exact ⟨uses, hstep, hsteady.rest hrests⟩
    · refine ⟨_, hstep, ?_⟩
      have hused := (hsteady.rest hrests).use (n := plaintext.length)
      rw [← hcounters] at hused
      exact hused
  · intro op hop
    obtain ⟨message, -, rfl⟩ := List.mem_map.mp hop
    exact ⟨_, _, rfl⟩

/-- The envelopes that a list of messages is sent in. -/
def sentFor (p : Primitives) (rootKey : Key) (initiator : Bool) (messages : List (Bytes × Bytes)) :
    List Sent :=
  sentEnvelopes ((cryptoMachine p rootKey initiator).transcript (sending messages))

theorem SealedAs.envelopeEpoch {p : Primitives} {use : KeyUse}
    (h : SealedAs p ctx aad plaintext envelope use) :
    Crypto.envelopeEpoch envelope = use.epoch := by
  grind [exists_sealed, envelopeEpoch_sealed, epoch_le]

variable {sent : List Sent}

theorem Recorded.map_epoch {p : Primitives} (h : Recorded p ctx sent uses) :
    sent.map (fun s => envelopeEpoch s.envelope) = uses.map KeyUse.epoch := by
  induction h with
  | nil => rfl
  | @cons s use sent uses hsealed _ ih =>
    grind [SealedAs.envelopeEpoch]

/-- The epochs of what was sent never skip one. -/
theorem gradual_sent :
    Gradual ((sentFor p rootKey initiator messages).map fun s => envelopeEpoch s.envelope) := by
  obtain ⟨uses, hrun, hsteady⟩ := steady_run p rootKey initiator messages
  rw [sentFor, hrun.recorded.map_epoch]
  exact hsteady.gradual

/-! ## Nonces of the sender -/

/-- **Nonce prefixes of different epochs differ**, up to the epoch `bound`. -/
def PrefixesDistinct (p : Primitives) (ctx : CryptoContext) (bound : ℕ) : Prop :=
  ∀ epoch epoch' bytes bytes', epoch ≤ bound → epoch' ≤ bound →
    noncePrefix p ctx ctx.txInfo epoch = .ok bytes →
    noncePrefix p ctx ctx.txInfo epoch' = .ok bytes' →
    bytes.toList.take noncePrefixBytes = bytes'.toList.take noncePrefixBytes → epoch = epoch'

theorem SealedAs.envelopeNonce {p : Primitives} {use : KeyUse}
    (h : SealedAs p ctx aad plaintext envelope use) :
    ∃ bytes, noncePrefix p ctx ctx.txInfo use.epoch = .ok bytes ∧
      Crypto.envelopeNonce envelope = some (structuredNonce bytes use.counter) := by
  grind [exists_sealed, envelopeNonce_sealed]

/-- **No nonce is sent twice**, given that the prefixes of the epochs differ. -/
theorem nodup_envelopeNonce {p : Primitives} {bound : ℕ}
    (hprefixes : PrefixesDistinct p ctx bound) (hbound : ∀ use ∈ uses, use.epoch ≤ bound)
    (hordered : uses.Pairwise KeyUse.Before) (h : Recorded p ctx sent uses) :
    (sent.map fun s => Crypto.envelopeNonce s.envelope).Nodup := by
  have hpairs : uses.Pairwise fun a b => (a.epoch ≤ bound ∧ b.epoch ≤ bound) ∧
      (a.epoch ≠ b.epoch ∨ a.counter ≠ b.counter) :=
    (Ledger.ne_of_ordered hordered).imp_of_mem fun ha hb hne => ⟨⟨hbound _ ha, hbound _ hb⟩, hne⟩
  refine List.pairwise_map.mpr (pairwise_of_forall₂ ?_ h hpairs)
  rintro s s' use use' hsealed hsealed' ⟨⟨hle, hle'⟩, hne⟩ heq
  obtain ⟨bytes, hbytes, hnonce⟩ := hsealed.envelopeNonce
  obtain ⟨bytes', hbytes', hnonce'⟩ := hsealed'.envelopeNonce
  rw [hnonce, hnonce'] at heq
  have hlist := congrArg Vector.toList (Option.some.inj heq)
  rw [toList_structuredNonce, toList_structuredNonce] at hlist
  obtain ⟨hfront, -⟩ := List.append_inj hlist (by rw [length_noncePrefix, length_noncePrefix])
  have hepoch := hprefixes _ _ _ _ hle hle' hbytes hbytes' hfront
  grind [structuredNonce_inj, SealedAs.counter_le]

/-! ## The receiver -/

/-- What the receiving side is handed: an envelope of the sender, or other bytes. -/
inductive Delivery
  | genuine (sent : Sent)
  | forged (aad bytes : Bytes)

def Delivery.op : Delivery → CryptoOp
  | .genuine sent => .decrypt sent.aad sent.envelope
  | .forged aad bytes => .decrypt aad bytes

def Delivery.sent? : Delivery → Option Sent
  | .genuine sent => some sent
  | .forged _ _ => none

/-- The envelopes of the sender in a schedule. -/
def genuineOf (schedule : List Delivery) : List Sent := schedule.filterMap Delivery.sent?

variable (schedule : List Delivery)

theorem genuineOf_append (schedule' : List Delivery) :
    genuineOf (schedule ++ schedule') = genuineOf schedule ++ genuineOf schedule' :=
  List.filterMap_append

theorem genuineOf_snoc_forged (aad bytes : Bytes) :
    genuineOf (schedule ++ [.forged aad bytes]) = genuineOf schedule := by
  rw [genuineOf_append]
  exact List.append_nil _

theorem genuineOf_map_genuine (sent : List Sent) : genuineOf (sent.map .genuine) = sent := by
  rw [genuineOf, List.filterMap_map]
  exact List.filterMap_some

/-- The receiving side after a schedule. -/
def received (p : Primitives) (rootKey : Key) (initiator : Bool) (schedule : List Delivery) :
    CryptoContext :=
  (cryptoMachine p rootKey (!initiator)).run (schedule.map Delivery.op)

theorem received_snoc (d : Delivery) :
    received p rootKey initiator (schedule ++ [d]) =
      (cryptoStep p (received p rootKey initiator schedule) d.op).1 := by
  rw [received, List.map_append]
  exact Machine.run_snoc _ _ _

/-- **AES-GCM rejects the bytes**: they do not open under the key of the epoch they name. -/
def GcmRejects (p : Primitives) (ctx : CryptoContext) (aad bytes : Bytes) : Prop :=
  ∀ epoch nonce ciphertext key, parseEnvelope ctx.suite bytes = .ok (epoch, nonce, ciphertext) →
    epochKey p ctx ctx.rxInfo epoch = .ok key → p.openBytes key nonce aad ciphertext = none

/-- The epoch is at most one ahead of the last one, and fewer than the retained ones behind it. -/
def InWindow (ctx : CryptoContext) (envelope : Bytes) : Prop :=
  envelopeEpoch envelope ≤ ctx.receiveEpoch + 1 ∧
    ctx.receiveEpoch < envelopeEpoch envelope + maxRetainedKeyEpochs

/-- The epoch of an envelope that a step has decrypted. -/
def acceptedEpoch : CryptoOp × CryptoOutput → Option ℕ
  | (.decrypt _ envelope, .bytes (.ok _)) => some (envelopeEpoch envelope)
  | _ => none

/-- The highest epoch of the envelopes that a run has decrypted. -/
def highestEpoch (history : List (CryptoOp × CryptoOutput)) : ℕ :=
  (history.filterMap acceptedEpoch).foldl max 0

theorem highestEpoch_snoc_none (h : acceptedEpoch step = none) :
    highestEpoch (history ++ [step]) = highestEpoch history := by
  grind [highestEpoch]

theorem highestEpoch_snoc_some (h : acceptedEpoch step = some epoch) :
    highestEpoch (history ++ [step]) = max (highestEpoch history) epoch := by
  grind [highestEpoch]

/-! ## One delivery -/

/-- **A genuine envelope opens** on the other side while its epoch is available. -/
theorem SealedAs.opens {p : Primitives} (hp : p.Lawful) {rootKey : Key} {initiator : Bool}
    {use : KeyUse} (h : SealedAs p (fromSessionRoot rootKey initiator) aad plaintext envelope use)
    (hctx : SameSession (fromSessionRoot rootKey (!initiator)) ctx)
    (havailable : EpochAvailable ctx use.epoch) :
    ∃ nonce, Crypto.envelopeNonce envelope = some nonce ∧
      openEnvelope p ctx aad envelope = .ok (use.epoch, nonce, plaintext) := by
  obtain ⟨key, bytes, ciphertext, hkey, hbytes, hseal, rfl⟩ := h.exists_sealed
  have hinfo : ctx.rxInfo = (fromSessionRoot rootKey initiator).txInfo := by
    rw [hctx.rxInfo, rxInfo_fromSessionRoot, txInfo_fromSessionRoot, Bool.not_not]
  have hroot : ctx.rootKey = (fromSessionRoot rootKey initiator).rootKey := hctx.rootKey
  have hlength := hp.length_sealBytes hseal
  refine ⟨structuredNonce bytes use.counter, envelopeNonce_sealed, openEnvelope_ok_iff.mpr ?_⟩
  refine ⟨ciphertext, bytes, key, ?_, havailable, ?_, ?_, ?_, hp.openBytes_sealBytes hseal⟩
  · grind [parseEnvelope_sealed, epoch_le]
  · grind [noncePrefix, epochKey]
  · rw [toList_structuredNonce, List.take_left' (length_noncePrefix bytes)]
  · grind [epochKey]

theorem decrypt_of_opens {p : Primitives} {clear : Bytes} {nonce : Nonce}
    (hopen : openEnvelope p ctx aad envelope = .ok (epoch, nonce, clear))
    (hnew : nonce ∉ ctx.receiveWindow.seen) : (decrypt p ctx aad envelope).2 = .ok clear := by
  rw [decrypt, decryptInternal, hopen]
  grind [admitNonce, ReplayWindow.acceptReceived_eq, ReplayWindow.reserve]

theorem GcmRejects.decrypt {p : Primitives} {bytes : Bytes} (h : GcmRejects p ctx aad bytes) :
    ∃ error, decrypt p ctx aad bytes = (ctx, .error error) := by
  cases hresult : (Crypto.decrypt p ctx aad bytes).2 with
  | error error =>
    grind [Crypto.decrypt, decryptInternal_error]
  | ok clear =>
    obtain ⟨epoch, nonce, window, hopen, -⟩ := decryptInternal_ok hresult
    grind [openEnvelope_ok_iff, GcmRejects]

/-- The epoch after a decryption. -/
theorem receiveEpoch_of_decrypt {p : Primitives} {clear : Bytes}
    (h : (decrypt p ctx aad envelope).2 = .ok clear) :
    (decrypt p ctx aad envelope).1.receiveEpoch =
      max ctx.receiveEpoch (envelopeEpoch envelope) := by
  obtain ⟨epoch, nonce, window, hopen, -, heq⟩ := decryptInternal_ok h
  grind [decrypt, openEnvelope_epoch]

/-! ## A schedule -/

/-- **The receiver after a schedule**: it is of the session, its window holds nonces of genuine
envelopes that were delivered, and its epoch is the highest one accepted. -/
structure ReceiverInv (rootKey : Key) (initiator : Bool) (sent : List Sent)
    (history : List (CryptoOp × CryptoOutput)) (ctx : CryptoContext) : Prop where
  sameSession : SameSession (fromSessionRoot rootKey (!initiator)) ctx
  window : ∀ nonce ∈ ctx.receiveWindow.order, ∃ s ∈ sent, envelopeNonce s.envelope = some nonce
  receiveEpoch_eq : ctx.receiveEpoch = highestEpoch history

variable {rootKey : Key} {initiator : Bool}

section

variable (h : ReceiverInv rootKey initiator sent history ctx)

include h

theorem ReceiverInv.unchanged {sent' : List Sent} {op : CryptoOp} (hsent : sent ⊆ sent') :
    ReceiverInv rootKey initiator sent' (history ++ [(op, .bytes (.error error))]) ctx := by
  refine ⟨h.sameSession, fun nonce hmem => ?_, ?_⟩
  · obtain ⟨s, hs, hnonce⟩ := h.window nonce hmem
    exact ⟨s, hsent hs, hnonce⟩
  · rw [highestEpoch_snoc_none (by cases op <;> rfl)]
    exact h.receiveEpoch_eq

/-- **One step** of the receiver with a genuine envelope. -/
theorem ReceiverInv.genuine {p : Primitives} (s : Sent) :
    ReceiverInv rootKey initiator (sent ++ [s])
      (history ++ [(.decrypt s.aad s.envelope, .bytes (decrypt p ctx s.aad s.envelope).2)])
      (decrypt p ctx s.aad s.envelope).1 := by
  cases hresult : (decrypt p ctx s.aad s.envelope).2 with
  | error error =>
    have hctx : (decrypt p ctx s.aad s.envelope).1 = ctx := decryptInternal_error hresult
    rw [hctx]
    exact h.unchanged (List.subset_append_left _ _)
  | ok clear =>
    refine ⟨h.sameSession.trans (decryptInternal_send p ctx _ _ false).1, fun nonce hmem => ?_, ?_⟩
    · rcases decryptInternal_receiveWindow p ctx s.aad s.envelope false with
        hkeep | ⟨pushed, hnew, -, hpush, -, hnonce⟩
      · rw [decrypt, hkeep] at hmem
        obtain ⟨s', hs', hnonce⟩ := h.window nonce hmem
        grind
      · rw [decrypt, hpush, ReplayWindow.order_push] at hmem
        rcases List.mem_append.mp (List.mem_of_mem_drop hmem) with hold | hlast
        · obtain ⟨s', hs', hnonce⟩ := h.window nonce hold
          grind
        · simp_all
    · rw [receiveEpoch_of_decrypt hresult, highestEpoch_snoc_some rfl, h.receiveEpoch_eq]

end

/-- The receiver's part of a transcript. -/
def receivedHistory (p : Primitives) (rootKey : Key) (initiator : Bool)
    (schedule : List Delivery) : List (CryptoOp × CryptoOutput) :=
  (cryptoMachine p rootKey (!initiator)).transcript (schedule.map Delivery.op)

theorem receivedHistory_snoc (d : Delivery) :
    receivedHistory p rootKey initiator (schedule ++ [d]) =
      receivedHistory p rootKey initiator schedule ++
        [(d.op, (cryptoStep p (received p rootKey initiator schedule) d.op).2)] := by
  rw [receivedHistory, List.map_append]
  exact Machine.transcriptFrom_snoc _ _ _ _

/-- Every other string of the schedule is rejected by AES-GCM. -/
def ForgeriesRejected (p : Primitives) (rootKey : Key) (initiator : Bool)
    (schedule : List Delivery) : Prop :=
  ∀ aad bytes, .forged aad bytes ∈ schedule →
    GcmRejects p (fromSessionRoot rootKey (!initiator)) aad bytes

theorem GcmRejects.of_sameSession {p : Primitives} {ctx' : CryptoContext} {bytes : Bytes}
    (h : GcmRejects p ctx aad bytes) (hsame : SameSession ctx ctx') :
    GcmRejects p ctx' aad bytes := by
  grind [SameSession.rxInfo, SameSession.epochKey, GcmRejects]

/-- **The whole schedule** keeps the receiver's invariant. -/
theorem receiverInv_run {p : Primitives}
    {schedule : List Delivery} (hforged : ForgeriesRejected p rootKey initiator schedule) :
    ReceiverInv rootKey initiator (genuineOf schedule)
      (receivedHistory p rootKey initiator schedule) (received p rootKey initiator schedule) := by
  induction schedule using List.reverseRecOn with
  | nil => exact ⟨.refl _, fun _ hmem => absurd hmem List.not_mem_nil, rfl⟩
  | append_singleton schedule d ih =>
    have hinv := ih fun aad bytes hmem => hforged aad bytes (List.mem_append_left _ hmem)
    rw [genuineOf_append, receivedHistory_snoc, received_snoc]
    cases d with
    | genuine s => exact hinv.genuine s
    | forged aad bytes =>
      have hrejects := hforged aad bytes (List.mem_append_right _ (List.mem_singleton_self _))
      obtain ⟨error, herror⟩ := (hrejects.of_sameSession hinv.sameSession).decrypt
      have hstep : cryptoStep p (received p rootKey initiator schedule)
          (Delivery.forged aad bytes).op =
          (received p rootKey initiator schedule, .bytes (.error error)) := by
        grind [Delivery.op, cryptoStep]
      rw [hstep]
      exact hinv.unchanged (List.subset_append_left _ _)

/-! ## Completeness -/

/-- **A schedule is complete**: genuine envelopes with a near epoch decrypt to their messages, the
other strings are refused, a refusal changes nothing, the receiver's epoch is the highest one
accepted, and envelopes that come in the order they were sent have a near epoch. -/
structure Complete (p : Primitives) (rootKey : Key) (initiator : Bool) (sent : List Sent)
    (schedule : List Delivery) : Prop where
  delivered : ∀ before s after, schedule = before ++ .genuine s :: after →
    InWindow (received p rootKey initiator before) s.envelope →
      (decrypt p (received p rootKey initiator before) s.aad s.envelope).2 = .ok s.plaintext
  refused : ∀ before aad bytes after, schedule = before ++ .forged aad bytes :: after →
    ∃ error, (decrypt p (received p rootKey initiator before) aad bytes).2 = .error error
  unchanged : ∀ before d after error, schedule = before ++ d :: after →
    (cryptoStep p (received p rootKey initiator before) d.op).2 = .bytes (.error error) →
      received p rootKey initiator (before ++ [d]) = received p rootKey initiator before
  highest : ∀ before, before <+: schedule → (received p rootKey initiator before).receiveEpoch =
    highestEpoch (receivedHistory p rootKey initiator before)
  near_of_inOrder : genuineOf schedule <+: sent →
    ∀ before s after, schedule = before ++ .genuine s :: after →
      InWindow (received p rootKey initiator before) s.envelope

theorem unchanged_of_error {p : Primitives} {before : List Delivery} {d : Delivery}
    (h : (cryptoStep p (received p rootKey initiator before) d.op).2 = .bytes (.error error)) :
    received p rootKey initiator (before ++ [d]) = received p rootKey initiator before := by
  rw [received_snoc]
  cases d with
  | genuine s | forged aad bytes => exact decryptInternal_error (CryptoOutput.bytes.inj h)

section Schedule

variable {p : Primitives} {schedule : List Delivery}

variable {before after : List Delivery} {s : Sent}

/-- A near epoch of an envelope of the session is available. -/
theorem InWindow.available (h : InWindow ctx envelope)
    (heq : envelopeEpoch envelope = epoch) (hepoch : epoch ≤ u64Max) :
    EpochAvailable ctx epoch := by
  grind [maxRetainedKeyEpochs, saturatingAdd, EpochAvailable, InWindow]

/-- The nonce of the next genuine envelope is not among those delivered before. -/
theorem nonce_fresh (hnodup : (sent.map fun s => envelopeNonce s.envelope).Nodup)
    (honce : (genuineOf schedule).Subperm sent)
    (hsplit : schedule = before ++ .genuine s :: after) :
    ∀ s' ∈ genuineOf before, envelopeNonce s'.envelope ≠ envelopeNonce s.envelope := by
  obtain ⟨sub, hperm, hsublist⟩ := honce
  have hsub : (sub.map fun s => envelopeNonce s.envelope).Nodup :=
    hnodup.sublist (hsublist.map _)
  rw [(hperm.map _).nodup_iff, hsplit, genuineOf_append, List.map_append,
    List.nodup_append] at hsub
  intro s' hs' heq
  refine hsub.2.2 _ (List.mem_map_of_mem hs') _ ?_ heq
  exact List.mem_map_of_mem (List.mem_cons_self ..)

theorem ForgeriesRejected.of_prefix (h : ForgeriesRejected p rootKey initiator schedule)
    (hbefore : before <+: schedule) : ForgeriesRejected p rootKey initiator before :=
  fun aad bytes hmem => h aad bytes (hbefore.subset hmem)

/-- **A near genuine envelope decrypts** to its message. -/
theorem decrypt_genuine (hp : p.Lawful)
    (hrecorded : Recorded p (fromSessionRoot rootKey initiator) sent uses)
    (hnodup : (sent.map fun s => envelopeNonce s.envelope).Nodup)
    (honce : (genuineOf schedule).Subperm sent)
    (hforged : ForgeriesRejected p rootKey initiator schedule)
    (hsplit : schedule = before ++ .genuine s :: after)
    (hnear : InWindow (received p rootKey initiator before) s.envelope) :
    (decrypt p (received p rootKey initiator before) s.aad s.envelope).2 = .ok s.plaintext := by
  have hbefore : before <+: schedule := ⟨_, hsplit.symm⟩
  have hinv := receiverInv_run (hforged.of_prefix hbefore)
  have hmem : s ∈ sent := by
    refine honce.subset ?_
    rw [hsplit, genuineOf_append]
    exact List.mem_append_right _ List.mem_cons_self
  obtain ⟨use, -, hsealed⟩ := exists_of_mem_forall₂ hrecorded hmem
  obtain ⟨nonce, hnonce, hopen⟩ := hsealed.opens hp hinv.sameSession
    (hnear.available hsealed.envelopeEpoch hsealed.epoch_le)
  refine decrypt_of_opens hopen ?_
  rw [ReplayWindow.mem_seen]
  intro hseen
  obtain ⟨s', hs', heq⟩ := hinv.window nonce hseen
  grind [nonce_fresh]

/-- A genuine envelope in order is near the last one. -/
theorem inWindow_of_lastEpoch {epochs front : List ℕ} (hgradual : Gradual epochs)
    (hfront : front ++ [envelopeEpoch envelope] <+: epochs)
    (hlast : ctx.receiveEpoch = lastEpoch front) : InWindow ctx envelope := by
  obtain ⟨hle, hnext⟩ := hgradual.of_isPrefix hfront
  rw [InWindow, hlast, maxRetainedKeyEpochs]
  omega

/-- The epochs of the envelopes up to the next one are a front of those sent. -/
theorem epochs_isPrefix (hinOrder : genuineOf schedule <+: sent)
    (hsplit : schedule = before ++ .genuine s :: after) :
    (genuineOf before).map (fun s => envelopeEpoch s.envelope) ++ [envelopeEpoch s.envelope] <+:
      sent.map fun s => envelopeEpoch s.envelope := by
  have hfront : genuineOf before ++ [s] <+: genuineOf schedule := by
    refine ⟨genuineOf after, ?_⟩
    rw [hsplit, genuineOf_append, List.append_assoc]
    rfl
  grind

/-- **In order the receiver follows the sender**: its epoch is that of the last envelope. -/
theorem receiveEpoch_inOrder (hp : p.Lawful)
    (hrecorded : Recorded p (fromSessionRoot rootKey initiator) sent uses)
    (hnodup : (sent.map fun s => envelopeNonce s.envelope).Nodup)
    (hgradual : Gradual (sent.map fun s => envelopeEpoch s.envelope))
    (hforged : ForgeriesRejected p rootKey initiator schedule)
    (hinOrder : genuineOf schedule <+: sent) (hbefore : before <+: schedule) :
    (received p rootKey initiator before).receiveEpoch =
      lastEpoch ((genuineOf before).map fun s => envelopeEpoch s.envelope) := by
  induction before using List.reverseRecOn with
  | nil => rfl
  | append_singleton before d ih =>
    have hshorter : before <+: schedule := (List.prefix_append _ _).trans hbefore
    have hlast := ih hshorter
    obtain ⟨after, hafter⟩ := hbefore
    rw [List.append_assoc, List.singleton_append] at hafter
    cases d with
    | genuine s =>
      -- in order, the next envelope is at most one epoch ahead of the last one that was opened
      have hfront := epochs_isPrefix hinOrder hafter.symm
      have hnear := inWindow_of_lastEpoch hgradual hfront hlast
      have hclear := decrypt_genuine hp hrecorded hnodup hinOrder.sublist.subperm hforged
        hafter.symm hnear
      have hepoch := receiveEpoch_of_decrypt hclear
      obtain ⟨hle, -⟩ := hgradual.of_isPrefix hfront
      rw [received_snoc, genuineOf_append, List.map_append]
      refine hepoch.trans ?_
      rw [hlast, max_eq_right hle]
      exact (lastEpoch_snoc _ _).symm
    | forged aad bytes =>
      -- a forgery is rejected in every state of the session, so also in this one
      have hinv := receiverInv_run (hforged.of_prefix hshorter)
      have hrejects := hforged aad bytes (by rw [← hafter]; simp)
      obtain ⟨error, herror⟩ := (hrejects.of_sameSession hinv.sameSession).decrypt
      grind [cryptoStep, Delivery.op, unchanged_of_error, genuineOf_snoc_forged]

end Schedule

/-- **An encrypted session is complete** under loss, reordering and forgery. The envelopes are those
of any list of messages; a schedule hands over each at most once, in any order, with strings that
AES-GCM rejects in between. The nonce prefixes of the epochs that the sender has reached are taken
to be different. -/
theorem session_complete {p : Primitives} (hp : p.Lawful) (rootKey : Key) (initiator : Bool)
    (messages : List (Bytes × Bytes)) (schedule : List Delivery)
    (hprefixes : PrefixesDistinct p (fromSessionRoot rootKey initiator)
      ((cryptoMachine p rootKey initiator).run (sending messages)).sendEpoch)
    (honce : (genuineOf schedule).Subperm (sentFor p rootKey initiator messages))
    (hforged : ForgeriesRejected p rootKey initiator schedule) :
    Complete p rootKey initiator (sentFor p rootKey initiator messages) schedule := by
  obtain ⟨uses, hrun, hsteady⟩ := steady_run p rootKey initiator messages
  have hgradual := gradual_sent p rootKey initiator messages
  have hrecorded : Recorded p _ (sentFor p rootKey initiator messages) uses := hrun.recorded
  have hnodup := nodup_envelopeNonce hprefixes (fun use hmem => hrun.ledger.epoch_le_of_mem hmem)
    hrun.ledger.ordered hrecorded
  refine ⟨?_, ?_, ?_, ?_, ?_⟩
  · grind [decrypt_genuine]
  · intro before aad bytes after hsplit
    have hinv := receiverInv_run (hforged.of_prefix ⟨_, hsplit.symm⟩)
    have hrejects := hforged aad bytes (by rw [hsplit]; simp)
    obtain ⟨error, herror⟩ := (hrejects.of_sameSession hinv.sameSession).decrypt
    exact ⟨error, by rw [herror]⟩
  · grind [unchanged_of_error]
  · intro before hbefore
    exact (receiverInv_run (hforged.of_prefix hbefore)).receiveEpoch_eq
  · intro hinOrder before s after hsplit
    refine inWindow_of_lastEpoch hgradual (epochs_isPrefix hinOrder hsplit) ?_
    grind [receiveEpoch_inOrder]

/-! ## A concrete session -/

def sampleMessages : List (Bytes × Bytes) := [([], [1]), ([2], [3, 4])]

/-- A string that is no envelope comes first, then the messages in the wrong order. -/
def sampleSchedule : List Delivery :=
  .forged [] [9] :: (sentFor checksumPrimitives sampleRoot true sampleMessages).reverse.map .genuine

theorem session_complete_sample :
    (sentFor checksumPrimitives sampleRoot true sampleMessages).length = 2 ∧
      Complete checksumPrimitives sampleRoot true
        (sentFor checksumPrimitives sampleRoot true sampleMessages) sampleSchedule := by
  refine ⟨rfl, session_complete checksumPrimitives_lawful sampleRoot true sampleMessages
    sampleSchedule ?_ ?_ ?_⟩
  · have hfirst : ((cryptoMachine checksumPrimitives sampleRoot true).run
        (sending sampleMessages)).sendEpoch = 0 := rfl
    grind [PrefixesDistinct]
  · have hgenuine : genuineOf sampleSchedule =
        (sentFor checksumPrimitives sampleRoot true sampleMessages).reverse :=
      genuineOf_map_genuine _
    rw [hgenuine]
    exact (List.reverse_perm _).subperm
  · intro aad bytes hmem epoch nonce ciphertext key hparse
    rcases List.mem_cons.mp hmem with heq | hmem
    · obtain ⟨rfl, rfl⟩ := Delivery.forged.inj heq
      cases hparse
    · obtain ⟨s, -, hs⟩ := List.mem_map.mp hmem
      cases hs

end SshMobile.Crypto
