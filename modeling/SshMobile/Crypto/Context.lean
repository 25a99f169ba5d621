import SshMobile.Crypto.Window
import SshMobile.Library.Bytes
import SshMobile.Library.Word

/-!
# Session crypto contexts

The application encryption of one session: directional keys per key epoch, structured nonces and
replay windows. An envelope is a fixed header, which carries the epoch and the nonce in clear, and
the ciphertext with its tag.

HKDF and AES-GCM are not part of the source; they are the fields of `Primitives`. A key has 32 bytes
by its type, so the cipher's check of the key length is not modelled. An operation that fails after
it changed the context keeps the change, as the source does.

## Main definitions

* `Primitives`, `Primitives.Lawful`: key derivation and authenticated encryption, with what their
  documentation promises
* `CryptoContext`: the state of one session
* `encrypt`, `decrypt`, `decryptForDelivery`, `rotateKey`: its operations
* `sealedEnvelope`: the layout of an envelope
* `dataMessageAad`, `fileChunkAad`: the associated data of messages and file chunks
* `AadFields`: what an associated data is computed from

## Main results

* `parseEnvelope_iff`: the receiver parses exactly the envelopes of the layout
* `decryptInternal_ok`: when a decryption succeeds, and the context after it
* `encrypt_ok`: the envelope of an encryption and the context after it
* `AadFields.encode_inj`: no two messages or chunks have one associated data
-/

namespace SshMobile.Crypto

open Library

/-! ## Constants -/

def gcmNonceBytes : ℕ := 12

def gcmTagBytes : ℕ := 16

def envelopeHeaderBytes : ℕ := 4 + 1 + 1 + 8 + gcmNonceBytes

def replayWindowCapacity : ℕ := 4096

def maxRetainedKeyEpochs : ℕ := 4

def maxMessagesPerKey : ℕ := 1048576

def maxBytesPerKey : ℕ := 2 ^ 30

def noncePrefixBytes : ℕ := 4

def envelopeMagic : Bytes := utf8 "SME1"

def envelopeVersion : UInt8 := 1

def initiatorToResponderKdfInfo : Bytes :=
  utf8 "ssh-mobile/session/application/initiator-to-responder/v2"

def responderToInitiatorKdfInfo : Bytes :=
  utf8 "ssh-mobile/session/application/responder-to-initiator/v2"

def noncePrefixKdfInfo : Bytes := utf8 "ssh-mobile/session/application/nonce-prefix/v2"

abbrev Nonce := Vector UInt8 gcmNonceBytes

abbrev Key := Vector UInt8 32

inductive CryptoSuite
  | hkdfSha256Aes256GcmV1
deriving DecidableEq

def CryptoSuite.code : CryptoSuite → UInt8
  | .hkdfSha256Aes256GcmV1 => 1

def CryptoSuite.fromCode (value : UInt8) : Option CryptoSuite :=
  if value = 1 then some .hkdfSha256Aes256GcmV1 else none

@[simp] theorem CryptoSuite.fromCode_code (suite : CryptoSuite) :
    fromCode suite.code = some suite := by
  cases suite
  rfl

inductive CryptoError
  | invalidEnvelope
  | invalidKey
  | keyDerivation
  | encryption
  | decryption
  | sequenceOverflow
  | replayDetected
  | nonceReuse
  | keyEpochUnavailable
  | noncePrefixMismatch
  | e2eeRequired
  | stateUnavailable
deriving DecidableEq

/-! ## Primitives -/

/-- HKDF-SHA256 with 32 bytes of output, and AES-256-GCM. -/
structure Primitives where
  hkdf : (salt inputKeyMaterial info : Bytes) → Option Key
  sealBytes : (key : Key) → (nonce : Nonce) → (aad message : Bytes) → Option Bytes
  openBytes : (key : Key) → (nonce : Nonce) → (aad ciphertext : Bytes) → Option Bytes

/-- **Lawful primitives**: a ciphertext is the message and a tag longer, and opens to the message
it was sealed from. -/
structure Primitives.Lawful (p : Primitives) : Prop where
  length_sealBytes : ∀ {key nonce aad message ciphertext},
    p.sealBytes key nonce aad message = some ciphertext →
      ciphertext.length = message.length + gcmTagBytes
  openBytes_sealBytes : ∀ {key nonce aad message ciphertext},
    p.sealBytes key nonce aad message = some ciphertext →
      p.openBytes key nonce aad ciphertext = some message

def deriveMaterial (p : Primitives) (inputKeyMaterial salt info : Bytes) : Except CryptoError Key :=
  match p.hkdf salt inputKeyMaterial info with
  | some key => .ok key
  | none => .error .keyDerivation

/-! ## The context -/

/-- The state of one session. -/
structure CryptoContext where
  suite : CryptoSuite
  rootKey : Key
  txInfo : Bytes
  rxInfo : Bytes
  sendEpoch : ℕ
  receiveEpoch : ℕ
  sendCounter : ℕ
  messagesInEpoch : ℕ
  bytesInEpoch : ℕ
  sendWindow : ReplayWindow Nonce
  receiveWindow : ReplayWindow Nonce

def fromSessionRoot (rootKey : Key) (initiator : Bool) : CryptoContext where
  suite := .hkdfSha256Aes256GcmV1
  rootKey := rootKey
  txInfo := if initiator then initiatorToResponderKdfInfo else responderToInitiatorKdfInfo
  rxInfo := if initiator then responderToInitiatorKdfInfo else initiatorToResponderKdfInfo
  sendEpoch := 0
  receiveEpoch := 0
  sendCounter := 0
  messagesInEpoch := 0
  bytesInEpoch := 0
  sendWindow := .new replayWindowCapacity
  receiveWindow := .new replayWindowCapacity

def epochKey (p : Primitives) (ctx : CryptoContext) (info : Bytes) (epoch : ℕ) :
    Except CryptoError Key :=
  deriveMaterial p ctx.rootKey.toList [] (info ++ beBytes 8 epoch)

def noncePrefix (p : Primitives) (ctx : CryptoContext) (info : Bytes) (epoch : ℕ) :
    Except CryptoError Key :=
  match epochKey p ctx info epoch with
  | .error error => .error error
  | .ok key => deriveMaterial p key.toList [] noncePrefixKdfInfo

/-! ## Associated data -/

def fileChunkAadPrefix : Bytes := utf8 "ssh-mobile/session/application/file-chunk/v1"

def appendLenPrefixed (output bytes : Bytes) : Bytes := output ++ (beBytes 4 bytes.length ++ bytes)

/-- The associated data of a data message: its clear fields, without the payload. -/
def dataMessageAad (sessionId channelId : String) (messageId : Bytes)
    (sequence recoveryEpoch : UInt64) (policy : Int32) : Bytes :=
  appendLenPrefixed (appendLenPrefixed (appendLenPrefixed [] (utf8 sessionId)) (utf8 channelId))
      messageId ++
    (beBytes 8 sequence.toNat ++ (beBytes 8 recoveryEpoch.toNat ++
      beBytes 4 policy.toUInt32.toNat))

/-- The associated data of a file chunk on a relay. -/
def fileChunkAad (sessionId transferId manifestHash : String) (sequence : UInt64) : Bytes :=
  appendLenPrefixed (appendLenPrefixed (appendLenPrefixed fileChunkAadPrefix (utf8 sessionId))
      (utf8 transferId)) (utf8 manifestHash) ++
    beBytes 8 sequence.toNat

/-! ## Encryption -/

/-- Advance the send epoch; the epoch's counters start again. -/
def rotateKey (ctx : CryptoContext) : CryptoContext × Except CryptoError ℕ :=
  match checkedAdd u64Max ctx.sendEpoch 1 with
  | none => (ctx, .error .sequenceOverflow)
  | some next =>
    ({ ctx with
        sendEpoch := next
        sendCounter := 0
        messagesInEpoch := 0
        bytesInEpoch := 0 }, .ok next)

/-- The prefix of an epoch and a direction, and the counter. -/
def structuredNonce (noncePrefix : Key) (counter : ℕ) : Nonce :=
  ⟨(noncePrefix.toList.take noncePrefixBytes ++ beBytes 8 counter).toArray, by
    simp [noncePrefixBytes, gcmNonceBytes]⟩

def nextNonce (p : Primitives) (ctx : CryptoContext) : CryptoContext × Except CryptoError Nonce :=
  match checkedAdd u64Max ctx.sendCounter 1 with
  | none => (ctx, .error .sequenceOverflow)
  | some counter =>
    ({ ctx with sendCounter := counter },
      match noncePrefix p ctx ctx.txInfo ctx.sendEpoch with
      | .error error => .error error
      | .ok bytes => .ok (structuredNonce bytes ctx.sendCounter))

/-- **The layout of an envelope**: magic, version, suite, epoch, nonce and ciphertext. -/
def sealedEnvelope (suite : CryptoSuite) (epoch : ℕ) (nonce : Nonce) (ciphertext : Bytes) : Bytes :=
  envelopeMagic ++ ([envelopeVersion] ++ ([suite.code] ++
    (beBytes 8 epoch ++ (nonce.toList ++ ciphertext))))

def encryptWithNonce (p : Primitives) (ctx : CryptoContext) (aad plaintext : Bytes)
    (nonce : Nonce) : CryptoContext × Except CryptoError Bytes :=
  match ctx.sendWindow.reserve nonce with
  | none => (ctx, .error .nonceReuse)
  | some window =>
    ({ ctx with sendWindow := window },
      match epochKey p ctx ctx.txInfo ctx.sendEpoch with
      | .error error => .error error
      | .ok key =>
        match p.sealBytes key nonce aad plaintext with
        | none => .error .encryption
        | some ciphertext => .ok (sealedEnvelope ctx.suite ctx.sendEpoch nonce ciphertext))

/-- A key that has sealed its share of messages or bytes is rotated first. -/
def rotateIfSpent (ctx : CryptoContext) (plaintextBytes : ℕ) :
    CryptoContext × Except CryptoError Unit :=
  if maxMessagesPerKey ≤ ctx.messagesInEpoch ||
      decide (maxBytesPerKey - plaintextBytes < ctx.bytesInEpoch) then
    match rotateKey ctx with
    | (ctx, .error error) => (ctx, .error error)
    | (ctx, .ok _) => (ctx, .ok ())
  else (ctx, .ok ())

/-- The epoch's counters after a message of `plaintextBytes` bytes was sealed. -/
def countMessage (ctx : CryptoContext) (plaintextBytes : ℕ) :
    CryptoContext × Except CryptoError Unit :=
  match checkedAdd u64Max ctx.messagesInEpoch 1 with
  | none => (ctx, .error .sequenceOverflow)
  | some messages =>
    match checkedAdd u64Max ctx.bytesInEpoch plaintextBytes with
    | none => ({ ctx with messagesInEpoch := messages }, .error .sequenceOverflow)
    | some bytes => ({ ctx with messagesInEpoch := messages, bytesInEpoch := bytes }, .ok ())

def encrypt (p : Primitives) (ctx : CryptoContext) (aad plaintext : Bytes) :
    CryptoContext × Except CryptoError Bytes :=
  if u64Max < plaintext.length then (ctx, .error .sequenceOverflow)
  else
    match rotateIfSpent ctx plaintext.length with
    | (ctx, .error error) => (ctx, .error error)
    | (ctx, .ok ()) =>
      match nextNonce p ctx with
      | (ctx, .error error) => (ctx, .error error)
      | (ctx, .ok nonce) =>
        match encryptWithNonce p ctx aad plaintext nonce with
        | (ctx, .error error) => (ctx, .error error)
        | (ctx, .ok envelope) =>
          match countMessage ctx plaintext.length with
          | (ctx, .error error) => (ctx, .error error)
          | (ctx, .ok ()) => (ctx, .ok envelope)

theorem toList_structuredNonce (noncePrefix : Key) (counter : ℕ) :
    (structuredNonce noncePrefix counter).toList =
      noncePrefix.toList.take noncePrefixBytes ++ beBytes 8 counter := rfl

theorem length_noncePrefix (noncePrefix : Key) :
    (noncePrefix.toList.take noncePrefixBytes).length = noncePrefixBytes := by
  simp [noncePrefixBytes]

/-- Two counters of one key give different nonces. -/
theorem structuredNonce_inj {noncePrefix : Key} {i j : ℕ} (hi : i ≤ u64Max) (hj : j ≤ u64Max)
    (h : structuredNonce noncePrefix i = structuredNonce noncePrefix j) : i = j := by
  have hlist := congrArg Vector.toList h
  rw [toList_structuredNonce, toList_structuredNonce, List.append_cancel_left_eq] at hlist
  rw [u64Max] at hi hj
  exact beBytes_inj (by omega) (by omega) hlist

variable {p : Primitives} {ctx : CryptoContext} {aad plaintext ciphertext envelope : Bytes}
  {suite : CryptoSuite} {epoch : ℕ} {nonce : Nonce} {clear : Bytes}

/-- **An encryption** under a key that is not spent: the envelope, and the context after it. -/
theorem encrypt_ok {key bytes : Key} (hmessages : ctx.messagesInEpoch < maxMessagesPerKey)
    (hbytes : ctx.bytesInEpoch ≤ maxBytesPerKey - plaintext.length)
    (hfits : ctx.bytesInEpoch + plaintext.length ≤ u64Max) (hcounter : ctx.sendCounter < u64Max)
    (hkey : epochKey p ctx ctx.txInfo ctx.sendEpoch = .ok key)
    (hnonce : noncePrefix p ctx ctx.txInfo ctx.sendEpoch = .ok bytes)
    (hnew : structuredNonce bytes ctx.sendCounter ∉ ctx.sendWindow.seen)
    (hseal : p.sealBytes key (structuredNonce bytes ctx.sendCounter) aad plaintext =
      some ciphertext) :
    encrypt p ctx aad plaintext =
      ({ ctx with
          sendCounter := ctx.sendCounter + 1
          messagesInEpoch := ctx.messagesInEpoch + 1
          bytesInEpoch := ctx.bytesInEpoch + plaintext.length
          sendWindow := ctx.sendWindow.push _ hnew },
        .ok (sealedEnvelope ctx.suite ctx.sendEpoch (structuredNonce bytes ctx.sendCounter)
          ciphertext)) := by
  -- the key has messages and bytes left, so the epoch is not rotated
  have hspent : rotateIfSpent ctx plaintext.length = (ctx, .ok ()) := by
    grind [rotateIfSpent]
  have hnonce : nextNonce p ctx = ({ ctx with sendCounter := ctx.sendCounter + 1 },
      .ok (structuredNonce bytes ctx.sendCounter)) := by
    rw [nextNonce, checkedAdd_of_le hcounter, hnonce]
  have hmessages' : ctx.messagesInEpoch + 1 ≤ u64Max := by
    have hle : maxMessagesPerKey ≤ u64Max := by decide
    omega
  rw [encrypt, if_neg (by omega), hspent]
  dsimp only
  rw [hnonce]
  dsimp only
  rw [encryptWithNonce, ReplayWindow.reserve, dif_neg hnew]
  grind [epochKey, countMessage, checkedAdd_of_le]

/-- The envelope of an encryption is one that was sealed with a nonce of the context. -/
theorem encryptWithNonce_of_encrypt (h : (encrypt p ctx aad plaintext).2 = .ok envelope) :
    ∃ ctx' nonce, (encryptWithNonce p ctx' aad plaintext nonce).2 = .ok envelope := by
  rw [encrypt] at h
  grind

/-- **The length of an envelope**: the header, the plaintext and the tag. -/
theorem length_of_encrypt (hp : p.Lawful) (h : (encrypt p ctx aad plaintext).2 = .ok envelope) :
    envelope.length = plaintext.length + (envelopeHeaderBytes + gcmTagBytes) := by
  obtain ⟨ctx', nonce, hsent⟩ := encryptWithNonce_of_encrypt h
  have hmagic : envelopeMagic.length = 4 := rfl
  rw [encryptWithNonce] at hsent
  split at hsent
  · cases hsent
  · split at hsent
    · cases hsent
    · split at hsent
      · cases hsent
      · rename_i ciphertext hsealed
        have hlength := hp.length_sealBytes hsealed
        grind [sealedEnvelope, length_beBytes, Vector.length_toList, envelopeHeaderBytes]

/-! ## Decryption -/

/-- The epoch, the nonce and the ciphertext of an envelope whose length, magic, version and suite
are right. -/
def parseEnvelope (suite : CryptoSuite) (envelope : Bytes) :
    Except CryptoError (ℕ × Nonce × Bytes) :=
  if envelope.length < envelopeHeaderBytes + gcmTagBytes ||
      envelope.take envelopeMagic.length != envelopeMagic ||
      envelope[envelopeMagic.length]? != some envelopeVersion then .error .invalidEnvelope
  else
    match envelope[5]?.bind CryptoSuite.fromCode with
    | none => .error .invalidEnvelope
    | some found =>
      if found ≠ suite then .error .invalidEnvelope
      else
        match ofLength? gcmNonceBytes ((envelope.drop 14).take 12) with
        | none => .error .invalidEnvelope
        | some nonce =>
          .ok (ofBeBytes ((envelope.drop 6).take 8), nonce, envelope.drop envelopeHeaderBytes)

/-- Epochs beyond the next one, and epochs too far back, have no key. -/
def EpochAvailable (ctx : CryptoContext) (epoch : ℕ) : Prop :=
  epoch ≤ saturatingAdd u64Max ctx.receiveEpoch 1 ∧
    ctx.receiveEpoch - epoch < maxRetainedKeyEpochs

instance (ctx : CryptoContext) (epoch : ℕ) : Decidable (EpochAvailable ctx epoch) :=
  inferInstanceAs (Decidable (_ ∧ _))

/-- The clear text of an envelope that parses, has an available epoch and its prefix, and
authenticates. -/
def openEnvelope (p : Primitives) (ctx : CryptoContext) (aad envelope : Bytes) :
    Except CryptoError (ℕ × Nonce × Bytes) :=
  match parseEnvelope ctx.suite envelope with
  | .error error => .error error
  | .ok (epoch, nonce, ciphertext) =>
    if ¬ EpochAvailable ctx epoch then .error .keyEpochUnavailable
    else
      match noncePrefix p ctx ctx.rxInfo epoch with
      | .error error => .error error
      | .ok bytes =>
        if nonce.toList.take noncePrefixBytes ≠ bytes.toList.take noncePrefixBytes then
          .error .noncePrefixMismatch
        else
          match epochKey p ctx ctx.rxInfo epoch with
          | .error error => .error error
          | .ok key =>
            match p.openBytes key nonce aad ciphertext with
            | none => .error .decryption
            | some clear => .ok (epoch, nonce, clear)

/-- The window's verdict on an authenticated nonce. -/
def admitNonce (window : ReplayWindow Nonce) (allowAuthenticatedReplay : Bool) (nonce : Nonce) :
    Except CryptoError (ReplayWindow Nonce) :=
  if nonce ∈ window.seen then
    if allowAuthenticatedReplay then .ok window else .error .replayDetected
  else
    match window.acceptReceived nonce with
    | some window => .ok window
    | none => .error .replayDetected

def decryptInternal (p : Primitives) (ctx : CryptoContext) (aad envelope : Bytes)
    (allowAuthenticatedReplay : Bool) : CryptoContext × Except CryptoError Bytes :=
  match openEnvelope p ctx aad envelope with
  | .error error => (ctx, .error error)
  | .ok (epoch, nonce, clear) =>
    match admitNonce ctx.receiveWindow allowAuthenticatedReplay nonce with
    | .error error => (ctx, .error error)
    | .ok window =>
      ({ ctx with
          receiveWindow := window
          receiveEpoch := if ctx.receiveEpoch < epoch then epoch else ctx.receiveEpoch }, .ok clear)

/-- The strict form: a replay is refused. -/
def decrypt (p : Primitives) (ctx : CryptoContext) (aad envelope : Bytes) :
    CryptoContext × Except CryptoError Bytes :=
  decryptInternal p ctx aad envelope false

/-- The form for reliable delivery: an authenticated duplicate is handed on. -/
def decryptForDelivery (p : Primitives) (ctx : CryptoContext) (aad envelope : Bytes) :
    CryptoContext × Except CryptoError Bytes :=
  decryptInternal p ctx aad envelope true

/-! ## What a decryption does -/

/-- The nonce an envelope carries in clear. -/
def envelopeNonce (envelope : Bytes) : Option Nonce :=
  ofLength? gcmNonceBytes ((envelope.drop 14).take 12)

/-- The epoch an envelope carries in clear. -/
def envelopeEpoch (envelope : Bytes) : ℕ := ofBeBytes ((envelope.drop 6).take 8)

theorem envelopeEpoch_sealed (hepoch : epoch ≤ u64Max) :
    envelopeEpoch (sealedEnvelope suite epoch nonce ciphertext) = epoch := by
  have htake : ((sealedEnvelope suite epoch nonce ciphertext).drop 6).take 8 = beBytes 8 epoch :=
    List.take_left' (length_beBytes 8 epoch)
  grind [u64Max, envelopeEpoch, ofBeBytes_beBytes]

theorem envelopeNonce_sealed :
    envelopeNonce (sealedEnvelope suite epoch nonce ciphertext) = some nonce := by
  have hdrop : (sealedEnvelope suite epoch nonce ciphertext).drop 14 =
      nonce.toList ++ ciphertext := List.drop_left' (length_beBytes 8 epoch)
  have hnonce12 : nonce.toList.length = 12 := nonce.length_toList
  grind [envelopeNonce, ofLength?_toList]

theorem drop_sealedEnvelope :
    (sealedEnvelope suite epoch nonce ciphertext).drop envelopeHeaderBytes = ciphertext := by
  have hdrop : (sealedEnvelope suite epoch nonce ciphertext).drop 14 =
      nonce.toList ++ ciphertext := List.drop_left' (length_beBytes 8 epoch)
  have hsplit : (sealedEnvelope suite epoch nonce ciphertext).drop envelopeHeaderBytes =
      ((sealedEnvelope suite epoch nonce ciphertext).drop 14).drop 12 := List.drop_drop.symm
  have hnonce12 : nonce.toList.length = 12 := nonce.length_toList
  rw [hsplit, hdrop, List.drop_left' hnonce12]

theorem parseEnvelope_nonce (h : parseEnvelope suite envelope = .ok (epoch, nonce, ciphertext)) :
    envelopeNonce envelope = some nonce := by
  rw [parseEnvelope] at h
  grind [envelopeNonce]

theorem parseEnvelope_epoch (h : parseEnvelope suite envelope = .ok (epoch, nonce, ciphertext)) :
    envelopeEpoch envelope = epoch := by
  rw [parseEnvelope] at h
  split_ifs at h
  split at h
  · exact absurd h (by simp)
  · split_ifs at h
    split at h
    · exact absurd h (by simp)
    · simp only [Except.ok.injEq, Prod.mk.injEq] at h
      exact h.1

/-- **The receiver reads back** the parts of an envelope. -/
theorem parseEnvelope_sealed (hepoch : epoch ≤ u64Max) (hlength : gcmTagBytes ≤ ciphertext.length) :
    parseEnvelope suite (sealedEnvelope suite epoch nonce ciphertext) =
      .ok (epoch, nonce, ciphertext) := by
  have hlayout : sealedEnvelope suite epoch nonce ciphertext =
      83 :: 77 :: 69 :: 49 :: 1 :: suite.code ::
        (beBytes 8 epoch ++ (nonce.toList ++ ciphertext)) := rfl
  have hepoch8 : (beBytes 8 epoch).length = 8 := length_beBytes 8 epoch
  have hlong : ¬ (sealedEnvelope suite epoch nonce ciphertext).length <
      envelopeHeaderBytes + gcmTagBytes := by
    grind [List.length_append, envelopeHeaderBytes]
  have hmagic : (sealedEnvelope suite epoch nonce ciphertext).take envelopeMagic.length =
      envelopeMagic := rfl
  have hversion : (sealedEnvelope suite epoch nonce ciphertext)[envelopeMagic.length]? =
      some envelopeVersion := rfl
  have hsuite : (sealedEnvelope suite epoch nonce ciphertext)[5]?.bind CryptoSuite.fromCode =
      some suite := suite.fromCode_code
  have hparsed : ofLength? gcmNonceBytes
      (((sealedEnvelope suite epoch nonce ciphertext).drop 14).take 12) = some nonce :=
    envelopeNonce_sealed
  have hread : ofBeBytes (((sealedEnvelope suite epoch nonce ciphertext).drop 6).take 8) =
      epoch := envelopeEpoch_sealed hepoch
  rw [parseEnvelope, hmagic, hversion, hsuite, hparsed, hread, drop_sealedEnvelope, if_neg]
  · simp
  · simpa using Nat.le_of_not_lt hlong

/-- **The envelope format is exact**: the receiver parses precisely the envelopes of the layout, and
each of them in one way. -/
theorem parseEnvelope_iff :
    parseEnvelope suite envelope = .ok (epoch, nonce, ciphertext) ↔
      epoch ≤ u64Max ∧ gcmTagBytes ≤ ciphertext.length ∧
        envelope = sealedEnvelope suite epoch nonce ciphertext := by
  refine ⟨fun h => ?_, fun ⟨hepoch, hlength, heq⟩ => heq ▸ parseEnvelope_sealed hepoch hlength⟩
  have hnonce := toList_of_ofLength? (parseEnvelope_nonce h)
  have hepoch := parseEnvelope_epoch h
  rw [parseEnvelope] at h
  split_ifs at h with hheader
  split at h
  · cases h
  rename_i found hsuite
  split_ifs at h with hfound
  split at h
  · cases h
  obtain rfl := not_not.mp hfound
  obtain rfl : envelope.drop envelopeHeaderBytes = ciphertext := by grind
  simp only [Bool.or_eq_true, decide_eq_true_eq, bne_iff_ne, not_or, not_not, Nat.not_lt]
    at hheader
  obtain ⟨⟨hlong, hmagic⟩, hversion⟩ := hheader
  obtain ⟨value, hvalue, hcode⟩ := Option.bind_eq_some_iff.mp hsuite
  obtain rfl : value = found.code := by grind [CryptoSuite.fromCode, CryptoSuite.code]
  obtain ⟨hlt, hget⟩ : ∃ _ : 4 < envelope.length, envelope[4] = envelopeVersion :=
    List.getElem?_eq_some_iff.mp hversion
  obtain ⟨hlt', hget'⟩ := List.getElem?_eq_some_iff.mp hvalue
  have hle : 6 + 8 ≤ envelope.length := le_trans (by decide) hlong
  obtain ⟨hmax, hrest⟩ := beBytes_of_ofBeBytes_drop hle hepoch
  refine ⟨Nat.le_sub_one_of_lt hmax, ?_, ?_⟩
  · rw [List.length_drop]
    exact Nat.le_sub_of_add_le' hlong
  -- the fields follow each other from the magic bytes on
  have hmagic : envelope = envelopeMagic ++ envelope.drop 4 := by
    nth_rewrite 1 [← hmagic]
    exact (List.take_append_drop 4 envelope).symm
  have hlast : (envelope.drop 14).drop 12 = envelope.drop envelopeHeaderBytes := List.drop_drop
  rw [sealedEnvelope, hnonce, ← hlast, List.take_append_drop, ← hrest, List.singleton_append,
    List.singleton_append, ← hget', ← List.drop_eq_getElem_cons hlt', ← hget,
    ← List.drop_eq_getElem_cons hlt, ← hmagic]

/-- **An envelope opens** exactly when every check before the window passes. -/
theorem openEnvelope_ok_iff :
    openEnvelope p ctx aad envelope = .ok (epoch, nonce, clear) ↔
      ∃ ciphertext bytes key, parseEnvelope ctx.suite envelope = .ok (epoch, nonce, ciphertext) ∧
        EpochAvailable ctx epoch ∧ noncePrefix p ctx ctx.rxInfo epoch = .ok bytes ∧
        nonce.toList.take noncePrefixBytes = bytes.toList.take noncePrefixBytes ∧
        epochKey p ctx ctx.rxInfo epoch = .ok key ∧
        p.openBytes key nonce aad ciphertext = some clear := by
  refine ⟨fun h => ?_, ?_⟩
  -- every check that fails returns an error, which `h` excludes
  · rw [openEnvelope] at h
    grind
  · grind [openEnvelope]

theorem openEnvelope_nonce (h : openEnvelope p ctx aad envelope = .ok (epoch, nonce, clear)) :
    envelopeNonce envelope = some nonce := by
  grind [openEnvelope_ok_iff, parseEnvelope_nonce]

theorem openEnvelope_epoch (h : openEnvelope p ctx aad envelope = .ok (epoch, nonce, clear)) :
    envelopeEpoch envelope = epoch := by
  grind [openEnvelope_ok_iff, parseEnvelope_epoch]

/-- **The window's verdict**: a new nonce is pushed, one in the window passes only where replays are
allowed. -/
theorem admitNonce_ok {window window' : ReplayWindow Nonce} {allow : Bool}
    (h : admitNonce window allow nonce = .ok window') :
    (nonce ∈ window.seen ∧ allow = true ∧ window' = window) ∨
      ∃ hnew : nonce ∉ window.seen, window' = window.push nonce hnew := by
  grind [admitNonce, ReplayWindow.acceptReceived_eq, ReplayWindow.reserve]

theorem decryptInternal_ok {allow : Bool}
    (h : (decryptInternal p ctx aad envelope allow).2 = .ok clear) :
    ∃ epoch nonce window, openEnvelope p ctx aad envelope = .ok (epoch, nonce, clear) ∧
      admitNonce ctx.receiveWindow allow nonce = .ok window ∧
      decryptInternal p ctx aad envelope allow =
        ({ ctx with
            receiveWindow := window
            receiveEpoch := if ctx.receiveEpoch < epoch then epoch else ctx.receiveEpoch },
          .ok clear) := by
  rw [decryptInternal] at h ⊢
  grind

theorem decryptInternal_error {allow : Bool} {error : CryptoError}
    (h : (decryptInternal p ctx aad envelope allow).2 = .error error) :
    (decryptInternal p ctx aad envelope allow).1 = ctx := by
  grind [decryptInternal]

/-! ## What the associated data binds -/

/-- What a ciphertext is bound to: the clear fields of a data message, or those of a file chunk. -/
inductive AadFields
  | dataMessage (sessionId channelId : String) (messageId : Bytes)
      (sequence recoveryEpoch : UInt64) (policy : Int32)
  | fileChunk (sessionId transferId manifestHash : String) (sequence : UInt64)

def AadFields.encode : AadFields → Bytes
  | .dataMessage sessionId channelId messageId sequence recoveryEpoch policy =>
    dataMessageAad sessionId channelId messageId sequence recoveryEpoch policy
  | .fileChunk sessionId transferId manifestHash sequence =>
    fileChunkAad sessionId transferId manifestHash sequence

/-- Every string field is shorter than `2 ^ 30` bytes. -/
def AadFields.Short : AadFields → Prop
  | .dataMessage sessionId channelId _ _ _ _ =>
    sessionId.utf8ByteSize < 2 ^ 30 ∧ channelId.utf8ByteSize < 2 ^ 30
  | .fileChunk sessionId transferId manifestHash _ =>
    sessionId.utf8ByteSize < 2 ^ 30 ∧ transferId.utf8ByteSize < 2 ^ 30 ∧
      manifestHash.utf8ByteSize < 2 ^ 30

/-- The string fields that stand behind their length in four bytes. -/
theorem utf8Prefixed_inj {s t : String} {rest rest' : Bytes} (hs : s.utf8ByteSize < 2 ^ 30)
    (ht : t.utf8ByteSize < 2 ^ 30)
    (h : beBytes 4 s.utf8ByteSize ++ (utf8 s ++ rest) =
      beBytes 4 t.utf8ByteSize ++ (utf8 t ++ rest')) : s = t ∧ rest = rest' := by
  obtain ⟨hlength, hbytes⟩ := List.append_inj h (by simp only [length_beBytes])
  have hsize := beBytes_inj (by omega) (by omega) hlength
  obtain ⟨hutf8, hrest⟩ := List.append_inj hbytes (by simpa only [length_utf8] using hsize)
  exact ⟨utf8_inj hutf8, hrest⟩

theorem beBytes_toNat_inj {x y : UInt64} (h : beBytes 8 x.toNat = beBytes 8 y.toNat) : x = y :=
  UInt64.toNat_inj.mp (beBytes_inj x.toNat_lt y.toNat_lt h)

/-- The prefix of file chunks, read as the length of a session identifier, is `2 ^ 30` or more. -/
theorem dataMessageAad_ne_fileChunkAad {sessionId channelId : String} {messageId : Bytes}
    {sequence recoveryEpoch : UInt64} {policy : Int32} (h : sessionId.utf8ByteSize < 2 ^ 30)
    (sessionId' transferId manifestHash : String) (sequence' : UInt64) :
    dataMessageAad sessionId channelId messageId sequence recoveryEpoch policy ≠
      fileChunkAad sessionId' transferId manifestHash sequence' := by
  intro heq
  have hfront := congrArg (fun bytes => ofBeBytes (bytes.take 4)) heq
  have hchunk : ∀ rest, (fileChunkAadPrefix ++ rest).take 4 = [115, 115, 104, 45] := fun _ => rfl
  simp only [dataMessageAad, fileChunkAad, appendLenPrefixed, List.nil_append, List.append_assoc,
    hchunk, length_utf8] at hfront
  rw [List.take_left' (length_beBytes 4 _), ofBeBytes_beBytes (by omega)] at hfront
  have hspelled : ofBeBytes [115, 115, 104, 45] = 1936943149 := rfl
  omega

/-- **The associated data** determines the kind and all the fields. -/
theorem AadFields.encode_inj {a b : AadFields} (ha : a.Short) (hb : b.Short)
    (h : a.encode = b.encode) : a = b := by
  cases a with
  | dataMessage sessionId channelId messageId sequence recoveryEpoch policy =>
    cases b with
    | dataMessage sessionId' channelId' messageId' sequence' recoveryEpoch' policy' =>
      simp only [AadFields.encode, dataMessageAad, appendLenPrefixed, List.nil_append,
        List.append_assoc, length_utf8] at h
      obtain ⟨rfl, h₁⟩ := utf8Prefixed_inj ha.1 hb.1 h
      obtain ⟨rfl, h₂⟩ := utf8Prefixed_inj ha.2 hb.2 h₁
      -- the length of the message identifier may wrap, but twenty bytes stand behind it
      obtain ⟨-, h₃⟩ := List.append_inj h₂ (by simp only [length_beBytes])
      obtain ⟨rfl, h₄⟩ := List.append_inj' h₃ (by simp only [List.length_append, length_beBytes])
      obtain ⟨hsequence, h₅⟩ := List.append_inj h₄ (by simp only [length_beBytes])
      obtain ⟨hepoch, h₆⟩ := List.append_inj h₅ (by simp only [length_beBytes])
      have hpolicy := beBytes_inj policy.toUInt32.toNat_lt policy'.toUInt32.toNat_lt h₆
      obtain rfl := beBytes_toNat_inj hsequence
      obtain rfl := beBytes_toNat_inj hepoch
      obtain rfl : policy = policy' := congrArg UInt32.toInt32 (UInt32.toNat_inj.mp hpolicy)
      rfl
    | fileChunk => exact absurd h (dataMessageAad_ne_fileChunkAad ha.1 _ _ _ _)
  | fileChunk sessionId transferId manifestHash sequence =>
    cases b with
    | dataMessage => exact absurd h.symm (dataMessageAad_ne_fileChunkAad hb.1 _ _ _ _)
    | fileChunk sessionId' transferId' manifestHash' sequence' =>
      simp only [AadFields.encode, fileChunkAad, appendLenPrefixed, List.append_assoc,
        length_utf8] at h
      obtain ⟨rfl, h₁⟩ := utf8Prefixed_inj ha.1 hb.1 (List.append_cancel_left h)
      obtain ⟨rfl, h₂⟩ := utf8Prefixed_inj ha.2.1 hb.2.1 h₁
      obtain ⟨rfl, h₃⟩ := utf8Prefixed_inj ha.2.2 hb.2.2 h₂
      obtain rfl := beBytes_toNat_inj h₃
      rfl

/-! ## Concrete primitives -/

/-- A checksum in the place of the authentication tag. -/
def checksumTag (key : Key) (nonce : Nonce) (aad message : Bytes) : Bytes :=
  nonce.toList ++ beBytes 4 (((key.toList ++ aad ++ message).map UInt8.toNat).sum)

/-- Primitives for concrete runs: the key of an info string is its end, a ciphertext is the message
with its checksum. -/
def checksumPrimitives : Primitives where
  hkdf _ _ info := ofLength? 32 (info.rtake 32)
  sealBytes key nonce aad message := some (message ++ checksumTag key nonce aad message)
  openBytes key nonce aad ciphertext :=
    let message := ciphertext.rdrop gcmTagBytes
    if ciphertext = message ++ checksumTag key nonce aad message then some message else none

theorem length_checksumTag (key : Key) (nonce : Nonce) (aad message : Bytes) :
    (checksumTag key nonce aad message).length = gcmTagBytes := by
  rw [checksumTag, List.length_append, length_beBytes, nonce.length_toList]
  rfl

theorem checksumPrimitives_lawful : checksumPrimitives.Lawful where
  length_sealBytes := by
    intro key nonce aad message ciphertext h
    obtain rfl := Option.some.inj h
    rw [List.length_append, length_checksumTag]
  openBytes_sealBytes := by
    grind [List.rdrop, length_checksumTag, List.take_left, checksumPrimitives]

/-- The root, the initiator's key and its nonce prefix in the concrete runs. -/
def sampleRoot : Key := Vector.replicate 32 7

def sampleKey : Key :=
  ⟨((initiatorToResponderKdfInfo ++ beBytes 8 0).rtake 32).toArray, by decide⟩

def samplePrefix : Key := ⟨(noncePrefixKdfInfo.rtake 32).toArray, by decide⟩

/-- The first message of the concrete session is encrypted. -/
theorem encrypt_sample (h : plaintext.length ≤ maxBytesPerKey) :
    (encrypt checksumPrimitives (fromSessionRoot sampleRoot true) aad plaintext).2 =
      .ok (sealedEnvelope .hkdfSha256Aes256GcmV1 0 (structuredNonce samplePrefix 0)
        (plaintext ++ checksumTag sampleKey (structuredNonce samplePrefix 0) aad plaintext)) := by
  have hlimit : maxBytesPerKey ≤ u64Max := by decide
  have hzero : (fromSessionRoot sampleRoot true).bytesInEpoch = 0 := rfl
  have hkey : epochKey checksumPrimitives (fromSessionRoot sampleRoot true)
      (fromSessionRoot sampleRoot true).txInfo (fromSessionRoot sampleRoot true).sendEpoch =
        .ok sampleKey := rfl
  have hbytes : noncePrefix checksumPrimitives (fromSessionRoot sampleRoot true)
      (fromSessionRoot sampleRoot true).txInfo (fromSessionRoot sampleRoot true).sendEpoch =
        .ok samplePrefix := rfl
  have hnew : structuredNonce samplePrefix (fromSessionRoot sampleRoot true).sendCounter ∉
      (fromSessionRoot sampleRoot true).sendWindow.seen := Finset.notMem_empty _
  have hencrypt := encrypt_ok (by decide) (by omega) (by omega) (by decide) hkey hbytes hnew
    (rfl : checksumPrimitives.sealBytes sampleKey (structuredNonce samplePrefix 0) aad plaintext =
      some _)
  rw [hencrypt]
  rfl

end SshMobile.Crypto
