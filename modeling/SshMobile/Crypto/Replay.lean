import SshMobile.Crypto.Context
import SshMobile.Library.Machine

/-!
# Replays over whole runs

The runs of one session's context, with both forms of decryption, encryptions and rotations mixed
in any order. The strict form refuses an envelope while its nonce is in the receive window, and the
window holds the last 4096 nonces of all epochs; there is no high-water mark of the counter. A
strictly decrypted envelope is therefore refused until 4096 other nonces were accepted after it, and
can be accepted again from then on.

## Main definitions

* `CryptoOp`, `cryptoStep`, `cryptoMachine`: the operations on a context and their runs
* `acceptedNonces`: the nonces of the envelopes a run has decrypted
* `ReplayFree`: no envelope is strictly decrypted twice in a run

## Main results

* `strict_replay_needs_full_window`: between two strict decryptions of one envelope 4096 other
  nonces were accepted
* `evicted_envelope_replays`: that many suffice
-/

namespace SshMobile.Crypto

open Library

/-! ## Runs -/

inductive CryptoOp
  | encrypt (aad plaintext : Bytes)
  | rotate
  | decrypt (aad envelope : Bytes)
  | decryptForDelivery (aad envelope : Bytes)

inductive CryptoOutput
  | bytes (result : Except CryptoError Bytes)
  | epoch (result : Except CryptoError ℕ)

def cryptoStep (p : Primitives) (ctx : CryptoContext) : CryptoOp → CryptoContext × CryptoOutput
  | .encrypt aad plaintext => (encrypt p ctx aad plaintext).map id .bytes
  | .rotate => (rotateKey ctx).map id .epoch
  | .decrypt aad envelope => (decrypt p ctx aad envelope).map id .bytes
  | .decryptForDelivery aad envelope => (decryptForDelivery p ctx aad envelope).map id .bytes

/-- The runs of a context that was installed with the root of a handshake. -/
def cryptoMachine (p : Primitives) (rootKey : Key) (initiator : Bool) :
    Machine CryptoContext CryptoOp CryptoOutput where
  start := fromSessionRoot rootKey initiator
  step := cryptoStep p

/-- The nonce of an envelope that a step has decrypted. -/
def acceptedNonce : CryptoOp × CryptoOutput → Option Nonce
  | (.decrypt _ envelope, .bytes (.ok _)) => envelopeNonce envelope
  | (.decryptForDelivery _ envelope, .bytes (.ok _)) => envelopeNonce envelope
  | _ => none

/-- The nonces of the envelopes that a run has decrypted, in order. -/
def acceptedNonces (history : List (CryptoOp × CryptoOutput)) : List Nonce :=
  history.filterMap acceptedNonce

/-- The strict form accepts the envelope in the state `ctx`. -/
def Accepts (p : Primitives) (ctx : CryptoContext) (aad envelope : Bytes) : Prop :=
  ∃ clear, (decrypt p ctx aad envelope).2 = .ok clear

/-! ## The receive window along a run -/

/-- The receive windows of a step: the same one, or a nonce the step accepted is pushed. -/
inductive Advances (step : CryptoOp × CryptoOutput) (w : ReplayWindow Nonce) :
    ReplayWindow Nonce → Prop
  | keep : Advances step w w
  | push {nonce : Nonce} (hnew : nonce ∉ w.seen) (haccepted : acceptedNonce step = some nonce) :
    Advances step w (w.push nonce hnew)

theorem rotateKey_receiveWindow (ctx : CryptoContext) :
    (rotateKey ctx).1.receiveWindow = ctx.receiveWindow := by
  rw [rotateKey]
  split <;> rfl

theorem countMessage_receiveWindow (ctx : CryptoContext) (plaintextBytes : ℕ) :
    (countMessage ctx plaintextBytes).1.receiveWindow = ctx.receiveWindow := by
  grind [countMessage]

theorem rotateIfSpent_receiveWindow (ctx : CryptoContext) (plaintextBytes : ℕ) :
    (rotateIfSpent ctx plaintextBytes).1.receiveWindow = ctx.receiveWindow := by
  grind [rotateKey_receiveWindow, rotateIfSpent]

variable (p : Primitives)

theorem encrypt_receiveWindow (ctx : CryptoContext) (aad plaintext : Bytes) :
    (encrypt p ctx aad plaintext).1.receiveWindow = ctx.receiveWindow := by
  rw [encrypt]
  split_ifs
  · rfl
  rw [← rotateIfSpent_receiveWindow ctx plaintext.length]
  rcases rotateIfSpent ctx plaintext.length with ⟨ctx₁, _ | ⟨⟩⟩
  · rfl
  grind [nextNonce, encryptWithNonce, countMessage_receiveWindow]

/-- A decryption of either form that succeeds pushes its nonce, unless it is in the window. -/
theorem decryptInternal_receiveWindow (ctx : CryptoContext) (aad envelope : Bytes) (allow : Bool) :
    (decryptInternal p ctx aad envelope allow).1.receiveWindow = ctx.receiveWindow ∨
      ∃ (nonce : Nonce) (hnew : nonce ∉ ctx.receiveWindow.seen) (clear : Bytes),
        (decryptInternal p ctx aad envelope allow).1.receiveWindow =
          ctx.receiveWindow.push nonce hnew ∧
        (decryptInternal p ctx aad envelope allow).2 = .ok clear ∧
        envelopeNonce envelope = some nonce := by
  cases hresult : (decryptInternal p ctx aad envelope allow).2 with
  | error error => exact .inl (by rw [decryptInternal_error hresult])
  | ok clear =>
    obtain ⟨epoch, nonce, window, hopen, hwindow, heq⟩ := decryptInternal_ok hresult
    rcases admitNonce_ok hwindow with ⟨-, -, rfl⟩ | ⟨hnew, rfl⟩
    · exact .inl (by rw [heq])
    · grind [openEnvelope_nonce]

/-- **One step** of a context keeps its receive window, or pushes a nonce it accepted. -/
theorem cryptoStep_advances (ctx : CryptoContext) (op : CryptoOp) :
    Advances (op, (cryptoStep p ctx op).2) ctx.receiveWindow
      (cryptoStep p ctx op).1.receiveWindow := by
  cases op with
  | encrypt aad plaintext =>
    have hwindow := encrypt_receiveWindow p ctx aad plaintext
    simp only [cryptoStep, Prod.map_fst, id_eq, hwindow]
    exact .keep
  | rotate =>
    have hwindow := rotateKey_receiveWindow ctx
    simp only [cryptoStep, Prod.map_fst, id_eq, hwindow]
    exact .keep
  | decrypt aad envelope =>
    simp only [cryptoStep, decrypt, Prod.map_fst, Prod.map_snd, id_eq]
    rcases decryptInternal_receiveWindow p ctx aad envelope false with
      hwindow | ⟨nonce, hnew, clear, hwindow, hresult, hnonce⟩
    · rw [hwindow]
      exact .keep
    · rw [hwindow, hresult]
      exact .push hnew hnonce
  | decryptForDelivery aad envelope =>
    simp only [cryptoStep, decryptForDelivery, Prod.map_fst, Prod.map_snd, id_eq]
    rcases decryptInternal_receiveWindow p ctx aad envelope true with
      hwindow | ⟨nonce, hnew, clear, hwindow, hresult, hnonce⟩
    · rw [hwindow]
      exact .keep
    · rw [hwindow, hresult]
      exact .push hnew hnonce

/-- **The window since `w`**: the newest entries of `w` and of the nonces accepted since. -/
def WindowSince (w w' : ReplayWindow Nonce) (history : List (CryptoOp × CryptoOutput)) : Prop :=
  ∃ later : List Nonce, later ⊆ acceptedNonces history ∧ w'.capacity = w.capacity ∧
    w'.order = (w.order ++ later).rtake w.capacity

theorem windowSince_self (w : ReplayWindow Nonce) : WindowSince w w [] := by
  refine ⟨[], List.nil_subset _, rfl, ?_⟩
  rw [List.append_nil, rtake_of_le w.length_le]

variable {history : List (CryptoOp × CryptoOutput)}

theorem WindowSince.advance {w w₁ w₂ : ReplayWindow Nonce} {step : CryptoOp × CryptoOutput}
    (h : WindowSince w w₁ history) (hstep : Advances step w₁ w₂) :
    WindowSince w w₂ (history ++ [step]) := by
  obtain ⟨later, hlater, hcapacity, horder⟩ := h
  have happend : acceptedNonces (history ++ [step]) =
      acceptedNonces history ++ acceptedNonces [step] := List.filterMap_append
  have hmono : later ⊆ acceptedNonces (history ++ [step]) := by
    simp_all
  cases hstep with
  | keep => exact ⟨later, hmono, hcapacity, horder⟩
  | @push nonce hnew haccepted =>
    refine ⟨later ++ [nonce], ?_, hcapacity, ?_⟩
    · grind [acceptedNonces]
    · grind [ReplayWindow.order_push, rtake_rtake_append]

/-- **Along a run** the receive window keeps the newest accepted nonces. -/
theorem windowSince_run (rootKey : Key) (initiator : Bool) (ctx : CryptoContext)
    (ops : List CryptoOp) :
    WindowSince ctx.receiveWindow
      ((cryptoMachine p rootKey initiator).runFrom ctx ops).receiveWindow
      ((cryptoMachine p rootKey initiator).transcriptFrom ctx ops) := by
  refine (cryptoMachine p rootKey initiator).transcriptFrom_always
    (I := fun s h => WindowSince ctx.receiveWindow s.receiveWindow h) (windowSince_self _) ?_ ops
  intro s h op hsince
  exact hsince.advance (cryptoStep_advances p s op)

/-- The receive window of every run keeps its capacity. -/
theorem capacity_run (rootKey : Key) (initiator : Bool) (ops : List CryptoOp) :
    ((cryptoMachine p rootKey initiator).run ops).receiveWindow.capacity =
      replayWindowCapacity := by
  obtain ⟨-, -, hcapacity, -⟩ :=
    windowSince_run p rootKey initiator (fromSessionRoot rootKey initiator) ops
  exact hcapacity

/-! ## Strict decryption -/

/-- A strict decryption pushes the nonce of its envelope, which was not in the window. -/
theorem Accepts.push {p : Primitives} {ctx : CryptoContext} {aad envelope : Bytes}
    (h : Accepts p ctx aad envelope) :
    ∃ (nonce : Nonce) (hnew : nonce ∉ ctx.receiveWindow.seen),
      envelopeNonce envelope = some nonce ∧
      (decrypt p ctx aad envelope).1.receiveWindow = ctx.receiveWindow.push nonce hnew := by
  obtain ⟨clear, hclear⟩ := h
  obtain ⟨epoch, nonce, window, hopen, hwindow, heq⟩ := decryptInternal_ok hclear
  rcases admitNonce_ok hwindow with ⟨-, hallow, -⟩ | ⟨hnew, rfl⟩
  · exact absurd hallow (by decide)
  · grind [openEnvelope_nonce, decrypt]

/-- A nonce that has left the window was pushed out by as many others as the window holds. -/
theorem WindowSince.full {w w' : ReplayWindow Nonce} {nonce : Nonce} {hnew : nonce ∉ w.seen}
    (h : WindowSince (w.push nonce hnew) w' history) (hleft : nonce ∉ w'.seen) :
    w.capacity ≤ ((acceptedNonces history).toFinset.erase nonce).card := by
  obtain ⟨later, hlater, hcapacity, horder⟩ := h
  rw [ReplayWindow.order_push, ReplayWindow.capacity_push, rtake_rtake_append, List.append_assoc,
    List.singleton_append] at horder
  rw [w'.mem_seen] at hleft
  have hlength : w.capacity ≤ later.length :=
    le_length_of_notMem_rtake (horder ▸ hleft)
  have hnewest : w'.order = later.rtake w.capacity := by
    rw [horder, List.append_cons, rtake_append_of_le _ hlength]
  have hsubset : w'.order.toFinset ⊆ (acceptedNonces history).toFinset.erase nonce := by
    intro x hx
    rw [List.mem_toFinset] at hx
    have hmem : x ∈ later := by
      rw [hnewest] at hx
      exact List.mem_of_mem_drop hx
    grind [List.mem_toFinset]
  calc
    w.capacity = w'.order.length := by grind [length_rtake]
    _ = w'.order.toFinset.card := (List.toFinset_card_of_nodup w'.nodup).symm
    _ ≤ ((acceptedNonces history).toFinset.erase nonce).card := Finset.card_le_card hsubset

/-! ## An honest exchange -/

section Exchange

variable {p : Primitives} {rootKey key bytes : Key} {ciphertext : ℕ → Bytes}

/-- The keys and ciphertexts of an initiator that sends empty messages in its first epoch. -/
structure Exchange (p : Primitives) (rootKey key bytes : Key) (ciphertext : ℕ → Bytes) : Prop where
  lawful : p.Lawful
  key_eq : deriveMaterial p rootKey.toList [] (initiatorToResponderKdfInfo ++ beBytes 8 0) = .ok key
  bytes_eq : deriveMaterial p key.toList [] noncePrefixKdfInfo = .ok bytes
  ciphertext_eq : ∀ i, p.sealBytes key (structuredNonce bytes i) [] [] = some (ciphertext i)

/-- The envelope of the message with the counter `i`. -/
def exchanged (bytes : Key) (ciphertext : ℕ → Bytes) (i : ℕ) : Bytes :=
  sealedEnvelope .hkdfSha256Aes256GcmV1 0 (structuredNonce bytes i) (ciphertext i)

/-- The initiator after `n` messages. -/
structure SentMessages (rootKey bytes : Key) (n : ℕ) (ctx : CryptoContext) : Prop where
  suite_eq : ctx.suite = .hkdfSha256Aes256GcmV1
  rootKey_eq : ctx.rootKey = rootKey
  txInfo_eq : ctx.txInfo = initiatorToResponderKdfInfo
  sendEpoch_eq : ctx.sendEpoch = 0
  sendCounter_eq : ctx.sendCounter = n
  messagesInEpoch_eq : ctx.messagesInEpoch = n
  bytesInEpoch_eq : ctx.bytesInEpoch = 0
  window_le : ∀ nonce ∈ ctx.sendWindow.order, ∃ i < n, nonce = structuredNonce bytes i

/-- The responder after it accepted the messages with counters below `n`. -/
structure ReceivedMessages (rootKey bytes : Key) (n : ℕ) (ctx : CryptoContext) : Prop where
  suite_eq : ctx.suite = .hkdfSha256Aes256GcmV1
  rootKey_eq : ctx.rootKey = rootKey
  rxInfo_eq : ctx.rxInfo = initiatorToResponderKdfInfo
  receiveEpoch_eq : ctx.receiveEpoch = 0
  capacity_eq : ctx.receiveWindow.capacity = replayWindowCapacity
  order_eq : ctx.receiveWindow.order =
    ((List.range n).map (structuredNonce bytes)).rtake replayWindowCapacity

variable {ctx : CryptoContext} {n : ℕ}

section

variable (h : Exchange p rootKey key bytes ciphertext)

include h

theorem Exchange.epochKey (hroot : ctx.rootKey = rootKey) :
    epochKey p ctx initiatorToResponderKdfInfo 0 = .ok key := by
  rw [Crypto.epochKey, hroot, h.key_eq]

theorem Exchange.noncePrefix (hroot : ctx.rootKey = rootKey) :
    noncePrefix p ctx initiatorToResponderKdfInfo 0 = .ok bytes := by
  rw [Crypto.noncePrefix, h.epochKey hroot]
  exact h.bytes_eq

/-- **The initiator's next message** is the envelope with the next counter. -/
theorem SentMessages.encrypt (hsent : SentMessages rootKey bytes n ctx)
    (hn : n < maxMessagesPerKey) :
    (encrypt p ctx [] []).2 = .ok (exchanged bytes ciphertext n) ∧
      SentMessages rootKey bytes (n + 1) (encrypt p ctx [] []).1 := by
  have hmax : maxMessagesPerKey < u64Max := by decide
  -- the nonces in the window have smaller counters
  have hnew : structuredNonce bytes ctx.sendCounter ∉ ctx.sendWindow.seen := by
    rw [ctx.sendWindow.mem_seen]
    intro hmem
    obtain ⟨i, hi, heq⟩ := hsent.window_le _ hmem
    rw [hsent.sendCounter_eq] at heq
    have := structuredNonce_inj (by omega) (by omega) heq
    omega
  have hkey : Crypto.epochKey p ctx ctx.txInfo ctx.sendEpoch = .ok key := by
    rw [hsent.txInfo_eq, hsent.sendEpoch_eq]
    exact h.epochKey hsent.rootKey_eq
  have hbytes : Crypto.noncePrefix p ctx ctx.txInfo ctx.sendEpoch = .ok bytes := by
    rw [hsent.txInfo_eq, hsent.sendEpoch_eq]
    exact h.noncePrefix hsent.rootKey_eq
  have hseal : p.sealBytes key (structuredNonce bytes ctx.sendCounter) [] [] =
      some (ciphertext n) := by
    rw [hsent.sendCounter_eq]
    exact h.ciphertext_eq n
  have hmessages : ctx.messagesInEpoch < maxMessagesPerKey := by rwa [hsent.messagesInEpoch_eq]
  have hcounter : ctx.sendCounter < u64Max := by
    rw [hsent.sendCounter_eq]
    omega
  have hresult := encrypt_ok hmessages (by rw [hsent.bytesInEpoch_eq]; exact Nat.zero_le _)
    (by rw [hsent.bytesInEpoch_eq]; exact Nat.zero_le _) hcounter hkey hbytes hnew hseal
  rw [hresult]
  refine ⟨?_, hsent.suite_eq, hsent.rootKey_eq, hsent.txInfo_eq, hsent.sendEpoch_eq, ?_, ?_,
    hsent.bytesInEpoch_eq, ?_⟩
  · grind [exchanged, sendEpoch_eq, sendCounter_eq]
  · exact congrArg (· + 1) hsent.sendCounter_eq
  · exact congrArg (· + 1) hsent.messagesInEpoch_eq
  · intro nonce hmem
    rw [ReplayWindow.order_push] at hmem
    rcases List.mem_append.mp (List.mem_of_mem_drop hmem) with hold | hlast
    · obtain ⟨i, hi, heq⟩ := hsent.window_le nonce hold
      exact ⟨i, Nat.lt_succ_of_lt hi, heq⟩
    · rw [List.mem_singleton, hsent.sendCounter_eq] at hlast
      exact ⟨n, Nat.lt_succ_self n, hlast⟩

end

theorem sentMessages_start (rootKey bytes : Key) :
    SentMessages rootKey bytes 0 (fromSessionRoot rootKey true) where
  suite_eq := rfl
  rootKey_eq := rfl
  txInfo_eq := rfl
  sendEpoch_eq := rfl
  sendCounter_eq := rfl
  messagesInEpoch_eq := rfl
  bytesInEpoch_eq := rfl
  window_le := fun _ hmem => absurd hmem List.not_mem_nil

/-- **Every message of the initiator** up to the rotation of its key. -/
theorem sentMessages_run (h : Exchange p rootKey key bytes ciphertext)
    (hn : n ≤ maxMessagesPerKey) :
    SentMessages rootKey bytes n
      ((cryptoMachine p rootKey true).run (List.replicate n (.encrypt [] []))) := by
  induction n with
  | zero => exact sentMessages_start rootKey bytes
  | succ n ih =>
    rw [List.replicate_succ', Machine.run_snoc]
    exact ((ih (Nat.le_of_succ_le hn)).encrypt h hn).2

/-- The responder strictly decrypts an envelope whose nonce is not in its window. -/
theorem ReceivedMessages.decrypt (h : Exchange p rootKey key bytes ciphertext) {i : ℕ}
    (hreceived : ReceivedMessages rootKey bytes n ctx)
    (hnew : structuredNonce bytes i ∉ ctx.receiveWindow.seen) :
    Crypto.decrypt p ctx [] (exchanged bytes ciphertext i) =
      ({ ctx with
          receiveWindow := ctx.receiveWindow.push _ hnew
          receiveEpoch := 0 }, .ok []) := by
  have hseal := h.ciphertext_eq i
  have hlength := h.lawful.length_sealBytes hseal
  have hparse : parseEnvelope ctx.suite (exchanged bytes ciphertext i) =
      .ok (0, structuredNonce bytes i, ciphertext i) := by
    rw [hreceived.suite_eq]
    exact parseEnvelope_sealed (Nat.zero_le _) (by omega)
  have hopen : openEnvelope p ctx [] (exchanged bytes ciphertext i) =
      .ok (0, structuredNonce bytes i, []) := by
    rw [openEnvelope_ok_iff]
    refine ⟨ciphertext i, bytes, key, hparse, ?_, ?_, ?_, ?_, h.lawful.openBytes_sealBytes hseal⟩
    · rw [EpochAvailable, hreceived.receiveEpoch_eq]
      decide
    · rw [hreceived.rxInfo_eq]
      exact h.noncePrefix hreceived.rootKey_eq
    · rw [toList_structuredNonce, List.take_left' (length_noncePrefix bytes)]
    · rw [hreceived.rxInfo_eq]
      exact h.epochKey hreceived.rootKey_eq
  rw [Crypto.decrypt, decryptInternal, hopen]
  grind [admitNonce, ReplayWindow.acceptReceived_eq, ReplayWindow.reserve, receiveEpoch_eq]

theorem ReceivedMessages.mem_window (hreceived : ReceivedMessages rootKey bytes n ctx)
    {nonce : Nonce} :
    nonce ∈ ctx.receiveWindow.seen ↔
      ∃ i, n - replayWindowCapacity ≤ i ∧ i < n ∧ structuredNonce bytes i = nonce := by
  rw [ctx.receiveWindow.mem_seen, hreceived.order_eq, List.rtake, List.length_map,
    List.length_range, ← List.map_drop, List.mem_map]
  grind [List.range_eq_range']

/-- **The responder's next message**. -/
theorem ReceivedMessages.next (h : Exchange p rootKey key bytes ciphertext)
    (hreceived : ReceivedMessages rootKey bytes n ctx) (hn : n ≤ u64Max) :
    (Crypto.decrypt p ctx [] (exchanged bytes ciphertext n)).2 = .ok [] ∧
      ReceivedMessages rootKey bytes (n + 1)
        (Crypto.decrypt p ctx [] (exchanged bytes ciphertext n)).1 := by
  have hnew : structuredNonce bytes n ∉ ctx.receiveWindow.seen := by
    rw [hreceived.mem_window]
    rintro ⟨i, -, hi, heq⟩
    have := structuredNonce_inj (by omega) hn heq
    omega
  rw [hreceived.decrypt h hnew]
  refine ⟨rfl, hreceived.suite_eq, hreceived.rootKey_eq, hreceived.rxInfo_eq, rfl,
    hreceived.capacity_eq, ?_⟩
  grind [ReplayWindow.order_push, capacity_eq, order_eq, rtake_rtake_append, List.range_succ]

theorem receivedMessages_start (rootKey bytes : Key) :
    ReceivedMessages rootKey bytes 0 (fromSessionRoot rootKey false) where
  suite_eq := rfl
  rootKey_eq := rfl
  rxInfo_eq := rfl
  receiveEpoch_eq := rfl
  capacity_eq := rfl
  order_eq := by
    rw [List.range_zero, List.map_nil, List.rtake_nil]
    rfl

/-- The strict decryptions of the envelopes with counters `i, …, i + n - 1`. -/
def receiving (bytes : Key) (ciphertext : ℕ → Bytes) (i n : ℕ) : List CryptoOp :=
  (List.range' i n).map fun i => .decrypt [] (exchanged bytes ciphertext i)

theorem receiving_succ (bytes : Key) (ciphertext : ℕ → Bytes) (i n : ℕ) :
    receiving bytes ciphertext i (n + 1) =
      .decrypt [] (exchanged bytes ciphertext i) :: receiving bytes ciphertext (i + 1) n := by
  rw [receiving, List.range'_succ, List.map_cons, receiving]

theorem receivedMessages_run (h : Exchange p rootKey key bytes ciphertext) (hn : n ≤ u64Max) :
    ReceivedMessages rootKey bytes n
      ((cryptoMachine p rootKey false).run (receiving bytes ciphertext 0 n)) := by
  induction n with
  | zero => exact receivedMessages_start rootKey bytes
  | succ n ih =>
    rw [receiving, List.range'_concat, List.map_append, List.map_singleton, Machine.run_snoc]
    simp only [Nat.zero_add, Nat.one_mul]
    exact ((ih (Nat.le_of_succ_le hn)).next h (Nat.le_of_succ_le hn)).2

/-- **The first envelope is accepted**, and accepted again once 4096 later ones were. -/
theorem Exchange.accepts (h : Exchange p rootKey key bytes ciphertext) :
    Accepts p ((cryptoMachine p rootKey false).run []) [] (exchanged bytes ciphertext 0) ∧
      Accepts p ((cryptoMachine p rootKey false).run
        ([] ++ .decrypt [] (exchanged bytes ciphertext 0) :: receiving bytes ciphertext 1 4096))
        [] (exchanged bytes ciphertext 0) := by
  refine ⟨⟨[], ((receivedMessages_start rootKey bytes).next h (Nat.zero_le _)).1⟩, ?_⟩
  have hrun : [] ++ CryptoOp.decrypt [] (exchanged bytes ciphertext 0) ::
      receiving bytes ciphertext 1 4096 = receiving bytes ciphertext 0 4097 :=
    (receiving_succ bytes ciphertext 0 4096).symm
  have hreceived := receivedMessages_run h (n := 4097) (by decide)
  have hgone : structuredNonce bytes 0 ∉ ((cryptoMachine p rootKey false).run
      (receiving bytes ciphertext 0 4097)).receiveWindow.seen := by
    rw [hreceived.mem_window]
    rintro ⟨i, hle, hlt, heq⟩
    have hpos : 1 ≤ i := hle
    have := structuredNonce_inj (by rw [u64Max]; omega) (by decide) heq
    omega
  rw [hrun]
  exact ⟨[], by rw [hreceived.decrypt h hgone]⟩

end Exchange

/-! ## A concrete exchange -/

def sampleCiphertext (i : ℕ) : Bytes :=
  checksumTag sampleKey (structuredNonce samplePrefix i) [] []

theorem sampleExchange :
    Exchange checksumPrimitives sampleRoot sampleKey samplePrefix sampleCiphertext where
  lawful := checksumPrimitives_lawful
  key_eq := rfl
  bytes_eq := rfl
  ciphertext_eq := fun _ => rfl

/-! ## Replays of strict decryption -/

/-- **A strict replay needs a full window**: between two strict decryptions of one envelope, under
whatever associated data, the run has accepted at least 4096 envelopes with pairwise different
nonces, all different from the envelope's own. -/
theorem strict_replay_needs_full_window (p : Primitives) (rootKey : Key) (initiator : Bool)
    (before between : List CryptoOp) (aad aad' envelope : Bytes)
    (hfirst : Accepts p ((cryptoMachine p rootKey initiator).run before) aad envelope)
    (hagain : Accepts p
      ((cryptoMachine p rootKey initiator).run (before ++ .decrypt aad envelope :: between))
      aad' envelope) :
    ∃ nonce, envelopeNonce envelope = some nonce ∧
      4096 ≤ ((acceptedNonces ((cryptoMachine p rootKey initiator).transcriptFrom
        ((cryptoMachine p rootKey initiator).run (before ++ [.decrypt aad envelope]))
        between)).toFinset.erase nonce).card := by
  have hcapacity := capacity_run p rootKey initiator before
  rw [List.append_cons, Machine.run_append] at hagain
  obtain ⟨nonce, hnew, hnonce, hpush⟩ := hfirst.push
  obtain ⟨again, hnewAgain, hagainNonce, -⟩ := hagain.push
  obtain rfl : again = nonce := Option.some.inj (hagainNonce.symm.trans hnonce)
  have hsince := windowSince_run p rootKey initiator
    ((cryptoMachine p rootKey initiator).run (before ++ [.decrypt aad envelope])) between
  have hwindow : ((cryptoMachine p rootKey initiator).run
      (before ++ [.decrypt aad envelope])).receiveWindow =
        ((cryptoMachine p rootKey initiator).run before).receiveWindow.push again hnew := by
    rw [Machine.run_snoc]
    exact hpush
  rw [hwindow] at hsince
  have hfull := hsince.full hnewAgain
  rw [hcapacity] at hfull
  exact ⟨again, hnonce, hfull⟩

theorem strict_replay_needs_full_window_sampleExchange :
    ∃ nonce, envelopeNonce (exchanged samplePrefix sampleCiphertext 0) = some nonce ∧
      4096 ≤ ((acceptedNonces ((cryptoMachine checksumPrimitives sampleRoot false).transcriptFrom
        ((cryptoMachine checksumPrimitives sampleRoot false).run
          ([] ++ [.decrypt [] (exchanged samplePrefix sampleCiphertext 0)]))
        (receiving samplePrefix sampleCiphertext 1 4096))).toFinset.erase nonce).card :=
  strict_replay_needs_full_window checksumPrimitives sampleRoot false []
    (receiving samplePrefix sampleCiphertext 1 4096) [] []
    (exchanged samplePrefix sampleCiphertext 0) sampleExchange.accepts.1 sampleExchange.accepts.2

/-- **Replay-free decryption**: an envelope that was strictly decrypted is not strictly decrypted
again later in the run. -/
def ReplayFree (p : Primitives) (rootKey : Key) (initiator : Bool) : Prop :=
  ∀ (before between : List CryptoOp) (aad aad' envelope : Bytes),
    Accepts p ((cryptoMachine p rootKey initiator).run before) aad envelope →
      ¬ Accepts p
        ((cryptoMachine p rootKey initiator).run (before ++ .decrypt aad envelope :: between))
        aad' envelope

/-- **An evicted envelope replays**: the initiator sends 4097 messages under one key, the responder
decrypts them all, and then the first of them once more. -/
theorem evicted_envelope_replays :
    (∀ i < 4097, (encrypt checksumPrimitives
        ((cryptoMachine checksumPrimitives sampleRoot true).run
          (List.replicate i (.encrypt [] []))) [] []).2 =
      .ok (exchanged samplePrefix sampleCiphertext i)) ∧
      ¬ ReplayFree checksumPrimitives sampleRoot false := by
  refine ⟨fun i hi => ?_, fun hfree => ?_⟩
  · have hlt : i < maxMessagesPerKey := hi.trans (by decide)
    exact ((sentMessages_run sampleExchange hlt.le).encrypt sampleExchange hlt).1
  · obtain ⟨hfirst, hagain⟩ := sampleExchange.accepts
    exact hfree _ _ _ _ _ hfirst hagain

end SshMobile.Crypto
