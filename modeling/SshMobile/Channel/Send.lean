import SshMobile.Channel.Message
import SshMobile.Connect.Route
import SshMobile.Connection.Session
import SshMobile.Crypto.Context
import SshMobile.Delivery.Send

/-!
# Sending application messages

A command of the application becomes a pending delivery message; each send attempt wraps the message
in a data message of the current session, encrypted where the session's policy asks for it, and
hands it to the carrier of a path.

The command's limit on a payload and the receiver's limit are the same number, but the command
checks the plaintext and the receiver the envelope that replaces it, which is 42 bytes longer. The
payloads of the last 42 sizes are sent encrypted, and refused.

## Main definitions

* `applicationPayloadMode`: whether a payload is encrypted
* `startSendMessage`: the command
* `sealDataMessage`, `sendDataMessage`: the data message of a send attempt
* `SizesAgree`: every carrier takes the message and the receiver accepts it

## Main results

* `message_sizes_agree_iff`: when they do
* `encrypted_message_refused`: a payload of the accepted size that is refused
-/

namespace SshMobile.Channel

open Library Delivery Crypto Connection Connect Relay

/-! ## Policies -/

inductive ApplicationPayloadMode
  | encrypted
  | plaintext
deriving DecidableEq

inductive ApplicationPolicyError
  | securityPolicyMismatch
  | relayRequiresE2ee
deriving DecidableEq

def applicationPayloadMode (policy : E2eePolicy) (topology : RouteTopology)
    (hasCryptoContext : Bool) : Except ApplicationPolicyError ApplicationPayloadMode :=
  if topology = .relay ∧ policy = .disabled then .error .relayRequiresE2ee
  else
    match policy, hasCryptoContext with
    | .required, true => .ok .encrypted
    | .required, false => .error .securityPolicyMismatch
    | .disabled, true => .error .securityPolicyMismatch
    | .disabled, false => .ok .plaintext

/-! ## The command -/

structure SendMessageCommand where
  peerId : String
  channelId : String
  payload : Bytes
  policy : Int32

inductive CoreNetworkError
  | noRoute
  | cancelled
  | supervisorStopping
  | other (detail : String)
deriving DecidableEq

inductive SendMessageError
  | scopeRequired
  | payloadTooLarge
  | unsupportedPolicy
  | ensure (error : CoreNetworkError)
  | noReadyPath
  | policy (error : ApplicationPolicyError)
  | delivery (error : DeliveryError)
  | stopping
deriving DecidableEq

/-- What the runtime answers while a command is handled: the session of a ready path, the path's
profile, the peer's policy, and the crypto context of the session. -/
structure PeerRuntime where
  ensured : Except CoreNetworkError SessionId
  profile : Option Route
  e2eePolicy : E2eePolicy
  context : Option CryptoContext
  stopping : Bool

def validateBusinessApplicationPolicy (runtime : PeerRuntime) : Except SendMessageError Unit :=
  match runtime.profile with
  | none => .error .noReadyPath
  | some profile =>
    match applicationPayloadMode runtime.e2eePolicy profile.topology runtime.context.isSome with
    | .error error => .error (.policy error)
    | .ok _ => .ok ()

/-- `none` when every candidate for the message's identity is taken. -/
def startSendMessage (config : DeliveryConfig) (order : HashOrder) (candidates : List MessageId)
    (store : DeliveryStore) (runtime : PeerRuntime) (command : SendMessageCommand) (now : ℕ) :
    Option (DeliveryStore × Except SendMessageError PendingMessage) :=
  if command.peerId.isEmpty || command.channelId.isEmpty then some (store, .error .scopeRequired)
  else if maxDeliveryMessagePayloadBytes < command.payload.length then
    some (store, .error .payloadTooLarge)
  else
    match decodePolicy command.policy with
    | none => some (store, .error .unsupportedPolicy)
    | some policy =>
      match runtime.ensured with
      | .error error => some (store, .error (.ensure error))
      | .ok _ =>
        match validateBusinessApplicationPolicy runtime with
        | .error error => some (store, .error error)
        | .ok () =>
          match enqueueAt config order candidates store command.peerId command.channelId
              command.payload policy .default now with
          | none => none
          | some (store, .error error) => some (store, .error (.delivery error))
          | some (store, .ok message) =>
            if runtime.stopping then some (store, .error .stopping)
            else some (store, .ok message)

/-! ## A send attempt -/

/-- What a send attempt finds: the session of its path, the current session before and after the
message is encoded, the path's topology, the peer's policy, and the session's crypto context. -/
structure SendAttempt where
  sessionId : SessionId
  currentBefore : Option SessionId
  currentAfter : Option SessionId
  topology : RouteTopology
  e2eePolicy : E2eePolicy
  context : Option CryptoContext

inductive SendDataError
  | sessionChangedBefore
  | policy (error : ApplicationPolicyError)
  | crypto (error : CryptoError)
  | frameLimit
  | sessionChangedDuring
deriving DecidableEq

/-- The data message of a pending message, without its payload. -/
def dataMessageHeader (sessionId : SessionId) (message : PendingMessage) : DataMessage where
  sessionId := wireKey sessionId
  channelId := message.channelId
  messageId := message.messageId.bytes.toList
  sequence := UInt64.ofNat message.sequence
  recoveryEpoch := UInt64.ofNat message.recoveryEpoch
  policy := policyCode message.policy
  payload := []

def headerAad (data : DataMessage) : Bytes :=
  dataMessageAad data.sessionId data.channelId data.messageId data.sequence data.recoveryEpoch
    data.policy

/-- The data message with its payload, as `mode` says; encryption advances the crypto context. -/
def sealDataMessage (p : Primitives) (mode : ApplicationPayloadMode)
    (context : Option CryptoContext) (data : DataMessage) (payload : Bytes) :
    Option CryptoContext × Except SendDataError DataMessage :=
  match mode, context with
  | .plaintext, context => (context, .ok { data with payload := payload })
  | .encrypted, none => (none, .error (.crypto .e2eeRequired))
  | .encrypted, some ctx =>
    let encrypted := encrypt p ctx (headerAad data) payload
    (some encrypted.1,
      match encrypted.2 with
      | .error error => .error (.crypto error)
      | .ok envelope => .ok { data with payload := envelope })

/-- The encoded message that a send attempt hands to its path. -/
def sendDataMessage (p : Primitives) (attempt : SendAttempt) (message : PendingMessage) :
    Option CryptoContext × Except SendDataError Bytes :=
  if attempt.currentBefore ≠ some attempt.sessionId then
    (attempt.context, .error .sessionChangedBefore)
  else
    match applicationPayloadMode attempt.e2eePolicy attempt.topology attempt.context.isSome with
    | .error error => (attempt.context, .error (.policy error))
    | .ok mode =>
      let result := sealDataMessage p mode attempt.context
        (dataMessageHeader attempt.sessionId message) message.payload
      (result.1,
        match result.2 with
        | .error error => .error error
        | .ok data =>
          if maxChannelFrameBytes < data.encode.length then .error .frameLimit
          else if attempt.currentAfter ≠ some attempt.sessionId then .error .sessionChangedDuring
          else .ok data.encode)

/-- The token of a message on a relay. -/
def messageToken (message : PendingMessage) : String := hexEncode message.messageId.bytes.toList

/-! ## Sizes -/

variable {message : PendingMessage}

/-- An accepted command: the message has its channel and its payload, within the command's
limits. -/
theorem startSendMessage_ok {config : DeliveryConfig} {order : HashOrder}
    {candidates : List MessageId} {store store' : DeliveryStore} {runtime : PeerRuntime}
    {command : SendMessageCommand} {now : ℕ}
    (h : startSendMessage config order candidates store runtime command now =
      some (store', .ok message)) :
    message.payload.length ≤ maxDeliveryMessagePayloadBytes ∧
      1 ≤ message.channelId.utf8ByteSize ∧ message.channelId.utf8ByteSize ≤ 128 := by
  unfold startSendMessage at h
  by_cases hscope : (command.peerId.isEmpty || command.channelId.isEmpty) = true
  · rw [if_pos hscope] at h
    cases h
  by_cases hpayload : maxDeliveryMessagePayloadBytes < command.payload.length
  · rw [if_neg hscope, if_pos hpayload] at h
    cases h
  rw [if_neg hscope, if_neg hpayload] at h
  split at h
  · cases h
  split at h
  · cases h
  split at h
  · cases h
  split at h
  · cases h
  · cases h
  -- the queue has accepted the message: its scope was checked there, the payload before
  · rename_i store₁ accepted henqueue
    split_ifs at h
    · cases h
    · cases h
      obtain ⟨hvalid, hchannel, hbytes, -⟩ := enqueueAt_message henqueue
      rw [isValidScopeId_iff, ← hchannel] at hvalid
      rw [← hbytes] at hpayload
      exact ⟨Nat.le_of_not_lt hpayload, hvalid⟩

/-- The bytes that the mode adds to a payload. -/
def modeOverhead : ApplicationPayloadMode → ℕ
  | .encrypted => envelopeHeaderBytes + gcmTagBytes
  | .plaintext => 0

variable {p : Primitives} {context : Option CryptoContext}

variable {data : DataMessage}

variable {mode : ApplicationPayloadMode}

/-- **The payload of a data message** is the plaintext, or an envelope 42 bytes longer. -/
theorem sealDataMessage_ok (hp : p.Lawful)
    {header : DataMessage} {payload : Bytes}
    (h : (sealDataMessage p mode context header payload).2 = .ok data) :
    ∃ bytes, data = { header with payload := bytes } ∧
      bytes.length = payload.length + modeOverhead mode := by
  cases mode with
  | plaintext => exact ⟨payload, (Except.ok.inj h).symm, rfl⟩
  | encrypted =>
    cases context with
    | none => cases h
    | some ctx =>
      cases hencrypt : (encrypt p ctx (headerAad header) payload).2 with
      | error error =>
        simp only [sealDataMessage, hencrypt] at h
        cases h
      | ok envelope =>
        simp only [sealDataMessage, hencrypt] at h
        exact ⟨envelope, (Except.ok.inj h).symm, length_of_encrypt hp hencrypt⟩

/-- A path that can carry messages: its profile supports them, and a relay path has its client. -/
def CarriesMessages (view : RouteView) : Prop :=
  view.profile.supports .reliableMessage = true ∧ view.carrier ≠ .relay false

/-- **The sizes of a data message agree**: it passes the limit of its own sender, every carrier
takes it, and the receiver decodes and accepts it. -/
structure SizesAgree (token : String) (data : DataMessage) : Prop where
  sendable : data.encode.length ≤ maxChannelFrameBytes
  carried : ∀ view, CarriesMessages view →
    ∃ frame, sendRouteView view token .dataMessage data.encode = .ok frame
  accepted : ∃ received, DataMessage.decode data.encode = some received ∧
    validateDataMessage received = .ok ()

/-- Every carrier takes a message that leaves room for the header of a generic frame. -/
theorem sendRouteView_message {view : RouteView} {token : String} {encoded : Bytes}
    (hview : CarriesMessages view) (htoken : token.utf8ByteSize ≤ 255) (hne : encoded ≠ [])
    (hlength : encoded.length + genericFrameHeaderBytes ≤ maxChannelFrameBytes) :
    ∃ frame, sendRouteView view token .dataMessage encoded = .ok frame := by
  obtain ⟨profile, carrier⟩ := view
  obtain ⟨hsupports, hconnected⟩ := hview
  have hcapability :
      ¬ ((GenericFrameKind.dataMessage.isStream && !profile.supports .reliableStream ||
      !GenericFrameKind.dataMessage.isStream && !profile.supports .reliableMessage) = true) := by
    rw [hsupports]
    simp [GenericFrameKind.isStream]
  rw [sendRouteView, if_neg hcapability]
  cases carrier with
  | quic =>
    have hfits : ¬ (encoded.isEmpty || decide (maxChannelFrameBytes < encoded.length)) = true := by
      simp only [Bool.or_eq_true, List.isEmpty_iff, decide_eq_true_eq, not_or, Nat.not_lt]
      exact ⟨hne, by omega⟩
    simp only [writeChannelFrame, if_neg hfits]
    exact ⟨_, rfl⟩
  | generic =>
    have hframe : encodeGenericFrame .dataMessage encoded =
        .ok (genericFrame .dataMessage encoded) := encodeGenericFrame_ok.mpr ⟨hne, hlength, rfl⟩
    simp only [hframe]
    exact ⟨_, rfl⟩
  | relay connected =>
    cases connected with
    | false => exact absurd rfl hconnected
    | true =>
      -- the envelope adds the kind and the token with its length, and there is room for these
      have hsize : (tokenEnvelope token encoded).length + 1 ≤ maxDataPayloadBytes := by
        simp only [tokenEnvelope, List.length_cons, List.length_append, length_utf8]
        rw [maxChannelFrameBytes, genericFrameHeaderBytes] at hlength
        rw [maxDataPayloadBytes]
        omega
      have hsend : sendDataEnvelopeWithToken dataEnvChannel token encoded =
          .ok (dataEnvChannel :: tokenEnvelope token encoded) :=
        sendDataEnvelopeWithToken_ok.mpr ⟨htoken, hsize, rfl⟩
      simp only [hsend]
      exact ⟨_, rfl⟩

/-- The receiver accepts a data message of valid fields exactly when its payload is not too long. -/
theorem validateDataMessage_ok_iff {policy : DeliveryPolicy}
    (hsession : 1 ≤ data.sessionId.utf8ByteSize ∧ data.sessionId.utf8ByteSize ≤ 128)
    (hchannel : 1 ≤ data.channelId.utf8ByteSize ∧ data.channelId.utf8ByteSize ≤ 128)
    (hmessage : data.messageId.length = 16) (hpolicy : data.policy = policyCode policy) :
    validateDataMessage data = .ok () ↔ data.payload.length ≤ maxDeliveryMessagePayloadBytes := by
  rw [validateDataMessage, hpolicy, decodePolicy_policyCode]
  constructor
  · intro h
    by_contra hlong
    rw [if_pos (by omega)] at h
    cases h
  · intro hle
    refine if_neg ?_
    rintro (h | h | h | h | h | h | h)
    · omega
    · omega
    · omega
    · omega
    · exact h hmessage
    · omega
    · cases h

/-- **A data message as it is built** from a message of valid sizes. -/
structure Built (message : PendingMessage) (mode : ApplicationPayloadMode) (data : DataMessage) :
    Prop where
  payload_le : message.payload.length ≤ maxDeliveryMessagePayloadBytes
  sessionId : data.sessionId.utf8ByteSize = 32
  channelId : 1 ≤ data.channelId.utf8ByteSize ∧ data.channelId.utf8ByteSize ≤ 128
  messageId : data.messageId.length = 16
  policy : data.policy = policyCode message.policy
  payload : data.payload.length = message.payload.length + modeOverhead mode

theorem built_of_seal (hp : p.Lawful)
    (hpayload : message.payload.length ≤ maxDeliveryMessagePayloadBytes)
    (hchannel : 1 ≤ message.channelId.utf8ByteSize ∧ message.channelId.utf8ByteSize ≤ 128)
    {sessionId : SessionId}
    (hsealed : (sealDataMessage p mode context (dataMessageHeader sessionId message)
      message.payload).2 = .ok data) : Built message mode data := by
  obtain ⟨bytes, rfl, hbytes⟩ := sealDataMessage_ok hp hsealed
  exact {
    payload_le := hpayload
    sessionId := utf8ByteSize_wireKey sessionId
    channelId := hchannel
    messageId := message.messageId.bytes.length_toList
    policy := rfl
    payload := hbytes }

theorem modeOverhead_le (mode : ApplicationPayloadMode) : modeOverhead mode ≤ 42 := by
  cases mode <;> decide

theorem utf8ByteSize_messageToken_le (message : PendingMessage) :
    (messageToken message).utf8ByteSize ≤ 255 := by
  rw [messageToken, utf8ByteSize_hexEncode, message.messageId.bytes.length_toList]
  decide

namespace Built

section

variable (h : Built message mode data)

include h

theorem payload_lt : data.payload.length < 2 ^ 21 := by
  have hmax : maxDeliveryMessagePayloadBytes = 48128 := rfl
  have := h.payload_le
  have := h.payload
  have := modeOverhead_le mode
  omega

/-- The limit of a command leaves room for all fields, the envelope and the frame's header. -/
theorem length_encode_le :
    data.encode.length + genericFrameHeaderBytes ≤ maxChannelFrameBytes := by
  have hencoded := DataMessage.length_encode_le (by rw [h.sessionId]; decide) h.channelId.2
    (by rw [h.messageId]; decide) h.policy h.payload_lt
  have hmax : maxDeliveryMessagePayloadBytes = 48128 := rfl
  have hheader : genericFrameHeaderBytes = 13 := rfl
  have hframe : maxChannelFrameBytes = 49152 := rfl
  have := h.payload_le
  have := h.sessionId
  have := h.channelId
  have := h.messageId
  have := h.payload
  have := modeOverhead_le mode
  omega

theorem decode_encode :
    DataMessage.decode data.encode = some data := by
  refine DataMessage.decode_encode ⟨?_, ?_, ?_, ?_⟩
  · rw [h.sessionId]
    decide
  · exact h.channelId.2.trans_lt (by decide)
  · rw [h.messageId]
    decide
  · exact h.payload_lt.trans (by decide)

theorem encode_ne_nil : data.encode ≠ [] := by
  intro hnil
  have hdecode := h.decode_encode
  rw [hnil] at hdecode
  obtain rfl : DataMessage.empty = data := Option.some.inj hdecode
  exact absurd h.sessionId (by decide)

/-- Carriers never refuse the message; the receiver may, for the size of its payload. -/
theorem sizesAgree_iff :
    SizesAgree (messageToken message) data ↔
      message.payload.length + modeOverhead mode ≤ maxDeliveryMessagePayloadBytes := by
  have hsession : 1 ≤ data.sessionId.utf8ByteSize ∧ data.sessionId.utf8ByteSize ≤ 128 := by
    rw [h.sessionId]
    decide
  rw [← h.payload, ← validateDataMessage_ok_iff hsession h.channelId h.messageId h.policy]
  constructor
  · rintro ⟨-, -, received, hreceived, haccepts⟩
    rw [h.decode_encode] at hreceived
    rwa [Option.some.inj hreceived]
  · intro haccepts
    refine ⟨(Nat.le_add_right _ _).trans h.length_encode_le, fun view hview => ?_,
      data, h.decode_encode, haccepts⟩
    exact sendRouteView_message hview (utf8ByteSize_messageToken_le message) h.encode_ne_nil
      h.length_encode_le

end

end Built

/-! ## A concrete session -/

/-- A direct session whose messages are encrypted. -/
def sampleSession : SessionId := Vector.replicate 16 5

def sampleRuntime : PeerRuntime where
  ensured := .ok sampleSession
  profile := some ⟨.direct, .quic⟩
  e2eePolicy := .required
  context := some (fromSessionRoot sampleRoot true)
  stopping := false

def sampleAttempt : SendAttempt where
  sessionId := sampleSession
  currentBefore := some sampleSession
  currentAfter := some sampleSession
  topology := .direct
  e2eePolicy := .required
  context := some (fromSessionRoot sampleRoot true)

def sampleCommand (payload : Bytes) : SendMessageCommand :=
  ⟨"peer", "chat", payload, policyCode .acked⟩

def sampleMessage (payload : Bytes) : PendingMessage :=
  newMessage .new "peer" "chat" payload .acked .default 0 (.fill 1)

def sampleData (payload : Bytes) : DataMessage :=
  let header := dataMessageHeader sampleSession (sampleMessage payload)
  let nonce := structuredNonce samplePrefix 0
  { header with
    payload := sealedEnvelope .hkdfSha256Aes256GcmV1 0 nonce
      (payload ++ checksumTag sampleKey nonce (headerAad header) payload) }

variable {payload : Bytes}

/-- The command accepts every payload up to its limit. -/
theorem startSendMessage_sample (h : payload.length ≤ maxDeliveryMessagePayloadBytes) :
    startSendMessage .default .zero [.fill 1] .new sampleRuntime (sampleCommand payload) 0 =
      some (storePending (allocateSequence .new ("peer", "chat")) (sampleMessage payload),
        .ok (sampleMessage payload)) := by
  have hmax : maxDeliveryMessagePayloadBytes = 48128 := rfl
  have hpayload : ¬ DeliveryConfig.default.maxPayloadBytes < payload.length := by
    simp only [DeliveryConfig.default]
    omega
  have hqueue : ¬ queueFull .default .new payload .acked = true := by
    have hpending :
        ¬ DeliveryConfig.default.maxPendingMessages ≤ DeliveryStore.new.pending.size := by
      decide
    have hbytes : ¬ DeliveryConfig.default.maxPendingBytes <
        DeliveryStore.new.pendingBytes + payload.length := by
      simp only [DeliveryConfig.default, DeliveryStore.new]
      omega
    simp [queueFull, hpending, hbytes]
  have henqueue : enqueueAt .default .zero [.fill 1] .new "peer" "chat" payload .acked .default 0 =
      some (storePending (allocateSequence .new ("peer", "chat")) (sampleMessage payload),
        .ok (sampleMessage payload)) := by
    rw [enqueueAt, if_neg (by decide), if_neg hpayload, if_neg (by decide)]
    exact (if_neg hqueue).trans rfl
  have hscope : ¬ (("peer".isEmpty || "chat".isEmpty) = true) := by decide
  simp only [startSendMessage, sampleCommand, if_neg hscope, if_neg (Nat.not_lt.mpr h),
    decodePolicy_policyCode, henqueue]
  rfl

/-- The first message of the session is encrypted. -/
theorem sealDataMessage_sample (h : payload.length ≤ maxDeliveryMessagePayloadBytes) :
    (sealDataMessage checksumPrimitives .encrypted (some (fromSessionRoot sampleRoot true))
      (dataMessageHeader sampleSession (sampleMessage payload)) payload).2 =
        .ok (sampleData payload) := by
  have hlimit : maxDeliveryMessagePayloadBytes ≤ maxBytesPerKey := by decide
  rw [sealDataMessage]
  rw [encrypt_sample (h.trans hlimit)]
  rfl

/-! ## Agreement of the sizes -/

/-- **When the sizes agree**: for every message that the command accepts, in every session and
after any number of recoveries, its data message passes all limits exactly when it is sent in clear
or its payload leaves room for the encryption. -/
theorem message_sizes_agree_iff {p : Primitives} (hp : p.Lawful) {config : DeliveryConfig}
    {order : HashOrder} {candidates : List MessageId} {store store' : DeliveryStore}
    {runtime : PeerRuntime} {command : SendMessageCommand} {now : ℕ} {message : PendingMessage}
    (haccepted : startSendMessage config order candidates store runtime command now =
      some (store', .ok message))
    (mode : ApplicationPayloadMode) (context : Option CryptoContext) (sessionId : SessionId)
    (epoch : ℕ) {data : DataMessage}
    (hsealed : (sealDataMessage p mode context
      (dataMessageHeader sessionId { message with recoveryEpoch := epoch }) message.payload).2 =
        .ok data) :
    SizesAgree (messageToken message) data ↔
      mode = .plaintext ∨
        message.payload.length + (envelopeHeaderBytes + gcmTagBytes) ≤
          maxDeliveryMessagePayloadBytes := by
  obtain ⟨hpayload, hchannel⟩ := startSendMessage_ok haccepted
  have hbuilt : Built { message with recoveryEpoch := epoch } mode data := by
    refine built_of_seal hp ?_ ?_ hsealed
    · exact hpayload
    · exact hchannel
  refine hbuilt.sizesAgree_iff.trans ?_
  cases mode with
  | plaintext => exact ⟨fun _ => .inl rfl, fun _ => hpayload⟩
  | encrypted => exact ⟨.inr, fun h => h.resolve_left (fun h' => (nomatch h'))⟩

theorem message_sizes_agree_iff_sample :
    SizesAgree (messageToken (sampleMessage [104, 105])) (sampleData [104, 105]) ↔
      ApplicationPayloadMode.encrypted = .plaintext ∨
        (sampleMessage [104, 105]).payload.length + (envelopeHeaderBytes + gcmTagBytes) ≤
          maxDeliveryMessagePayloadBytes :=
  message_sizes_agree_iff checksumPrimitives_lawful (startSendMessage_sample (by decide)) .encrypted
    (some (fromSessionRoot sampleRoot true)) sampleSession 0 (sealDataMessage_sample (by decide))

/-- **A message that is accepted, sent and refused**: the payload has the largest size that the
command takes, and its session encrypts. -/
theorem encrypted_message_refused :
    startSendMessage .default .zero [.fill 1] .new sampleRuntime
        (sampleCommand (List.replicate 48128 0)) 0 =
      some (storePending (allocateSequence .new ("peer", "chat"))
        (sampleMessage (List.replicate 48128 0)), .ok (sampleMessage (List.replicate 48128 0))) ∧
    (sendDataMessage checksumPrimitives sampleAttempt (sampleMessage (List.replicate 48128 0))).2 =
      .ok (sampleData (List.replicate 48128 0)).encode ∧
    ¬ SizesAgree (messageToken (sampleMessage (List.replicate 48128 0)))
      (sampleData (List.replicate 48128 0)) := by
  -- the payload is opaque from here on: only its length matters, and nothing unfolds it
  have hlength : (List.replicate 48128 (0 : UInt8)).length = 48128 := List.length_replicate
  generalize List.replicate 48128 (0 : UInt8) = payload at hlength ⊢
  have hpayload : payload.length ≤ maxDeliveryMessagePayloadBytes := hlength.le
  have hsealed := sealDataMessage_sample hpayload
  have hchannel : 1 ≤ "chat".utf8ByteSize ∧ "chat".utf8ByteSize ≤ 128 := by decide
  have hbuilt : Built (sampleMessage payload) .encrypted (sampleData payload) :=
    built_of_seal checksumPrimitives_lawful hpayload hchannel hsealed
  refine ⟨startSendMessage_sample hpayload, ?_, ?_⟩
  · have hframe : ¬ maxChannelFrameBytes < (sampleData payload).encode.length :=
      Nat.not_lt.mpr ((Nat.le_add_right _ _).trans hbuilt.length_encode_le)
    have hmode : applicationPayloadMode .required .direct true = .ok .encrypted := rfl
    have hcurrent : ¬ (some sampleSession ≠ some sampleSession) := fun h => h rfl
    have hbytes : (sampleMessage payload).payload = payload := rfl
    simp only [sendDataMessage, sampleAttempt, if_neg hcurrent, Option.isSome_some, hmode, hbytes,
      hsealed, if_neg hframe]
    exact if_neg hcurrent
  · rw [hbuilt.sizesAgree_iff]
    have hbytes : (sampleMessage payload).payload = payload := rfl
    have hoverhead : modeOverhead .encrypted = 42 := rfl
    have hmax : maxDeliveryMessagePayloadBytes = 48128 := rfl
    rw [hbytes]
    omega

end SshMobile.Channel
