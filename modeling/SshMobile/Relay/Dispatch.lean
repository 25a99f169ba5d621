import SshMobile.Relay.Handshake

/-!
# Envelopes of the data plane

Every payload that a relay delivers is an envelope: a byte for its kind and a body. It is handled
only if the path of the peer is ready, or if it belongs to a handshake that makes it so.

## Main definitions

* `EnvelopeKind`: the kinds of envelopes
* `handleEnvelope`: the handler of each kind
* `handleRelayDataPayload`: an envelope arrives
-/

namespace SshMobile.Relay

open Library

inductive EnvelopeKind
  | crypto
  | fileOffer
  | fileAccept
  | fileComplete
  | fileCompleteAck
  | fileCancel
  | fileChunk
  | channel
  | channelAck
  | stream
deriving DecidableEq

def EnvelopeKind.ofByte (kind : UInt8) : Option EnvelopeKind :=
  if kind = dataEnvCrypto then some .crypto
  else if kind = dataEnvFileOffer then some .fileOffer
  else if kind = dataEnvFileAccept then some .fileAccept
  else if kind = dataEnvFileComplete then some .fileComplete
  else if kind = dataEnvFileCompleteAck then some .fileCompleteAck
  else if kind = dataEnvFileCancel then some .fileCancel
  else if kind = dataEnvFileChunk then some .fileChunk
  else if kind = dataEnvChannel then some .channel
  else if kind = dataEnvChannelAck then some .channelAck
  else if kind = dataEnvStream then some .stream
  else none

section Payload

variable {σ L R X : Type} [DecidableEq L] (codec : RelayCodec) (services : RelayServices σ)
  (ports : SessionServices σ) (noise : RelayNoise R X) (env : CallEnv L)

/-- The runtime after one of its calls, in its place. -/
def DataPlane.withRuntime (s : DataPlane σ L R X)
    (outcome : RelayRuntime σ L × Except RelayDataError Unit) :
    DataPlane σ L R X × Except RelayDataError Unit :=
  ({ s with toRelayRuntime := outcome.1 }, outcome.2)

/-- The token and the body of an envelope, for one of the other services. -/
def receiveTokenEnvelope (receive : σ → String → String → Bytes → σ × Except RelayDataError Unit)
    (s : RelayRuntime σ L) (peerId : String) (body : Bytes) :
    RelayRuntime σ L × Except RelayDataError Unit :=
  match decodeTokenEnvelope body with
  | .error error => (s, .error (.relay error))
  | .ok (token, payload) =>
    match receive s.services peerId token payload with
    | (rest, result) => ({ s with services := rest }, result)

/-- An acceptance wakes the sender of the file, whoever sent it. -/
def receiveAcceptance (s : RelayRuntime σ L) (body : Bytes) :
    RelayRuntime σ L × Except RelayDataError Unit :=
  match (decodeUtf8 body).bind codec.parseAcceptance with
  | none => (s, .error .library)
  | some acceptance =>
    ({ s with
        transfers := { s.transfers with
          acceptances := s.transfers.acceptances.erase acceptance.transferId } }, .ok ())

/-- The acknowledgement of a completion wakes the sender of the file, whoever sent it. -/
def receiveCompletionAck (s : RelayRuntime σ L) (body : Bytes) :
    RelayRuntime σ L × Except RelayDataError Unit :=
  match decodeUtf8 body with
  | none => (s, .error .library)
  | some transferId =>
    ({ s with
        transfers := { s.transfers with
          completions := s.transfers.completions.erase transferId } }, .ok ())

/-- The waiters of a transfer are woken, and what is being received of it ends. -/
def receiveCancel (s : RelayRuntime σ L) (body : Bytes) :
    RelayRuntime σ L × Except RelayDataError Unit :=
  match decodeUtf8 body with
  | none => (s, .error .library)
  | some transferId =>
    (cancelRelayIncoming env
      { s with
          transfers := { s.transfers with
            acceptances := s.transfers.acceptances.erase transferId
            completions := s.transfers.completions.erase transferId } } transferId, .ok ())

def receiveCompletion (s : RelayRuntime σ L) (peerId : String) (body : Bytes) :
    RelayRuntime σ L × Except RelayDataError Unit :=
  match decodeUtf8 body with
  | none => (s, .error .library)
  | some sessionId => completeRelayIncoming codec services env s sessionId (some peerId)

/-- The session, the number and the ciphertext of a chunk. -/
def receiveChunkEnvelope (s : RelayRuntime σ L) (body : Bytes) :
    RelayRuntime σ L × Except RelayDataError Unit :=
  if body.length < 40 then (s, .error .chunkTruncated)
  else
    match decodeUtf8 (body.take 32) with
    | none => (s, .error .library)
    | some sessionId =>
      receiveRelayChunk services env s sessionId
        (UInt64.ofNat (ofBeBytes ((body.drop 32).take 8))) (body.drop 40)

def receiveCryptoEnvelope (s : DataPlane σ L R X) (peerId : String) (body : Bytes) :
    DataPlane σ L R X × Except RelayDataError Unit :=
  if body.length < 32 then (s, .error .cryptoTruncated)
  else
    match decodeUtf8 (body.take 32) with
    | none => (s, .error .library)
    | some token =>
      handleRelayCryptoHandshake ports env services noise s token peerId (body.drop 32)

/-- The body of an envelope, by its kind. -/
def handleEnvelope (s : DataPlane σ L R X) (peerId : String) (body : Bytes) :
    EnvelopeKind → DataPlane σ L R X × Except RelayDataError Unit
  | .crypto => receiveCryptoEnvelope services ports noise env s peerId body
  | .fileOffer => s.withRuntime (receiveRelayOffer codec services env s.toRelayRuntime peerId body)
  | .fileAccept => s.withRuntime (receiveAcceptance codec s.toRelayRuntime body)
  | .fileComplete =>
    s.withRuntime (receiveCompletion codec services env s.toRelayRuntime peerId body)
  | .fileCompleteAck => s.withRuntime (receiveCompletionAck s.toRelayRuntime body)
  | .fileCancel => s.withRuntime (receiveCancel env s.toRelayRuntime body)
  | .fileChunk => s.withRuntime (receiveChunkEnvelope services env s.toRelayRuntime body)
  | .channel =>
    s.withRuntime
      (receiveTokenEnvelope services.receiveRelayChannelMessage s.toRelayRuntime peerId body)
  | .channelAck =>
    s.withRuntime
      (receiveTokenEnvelope services.receiveRelayDeliveryAck s.toRelayRuntime peerId body)
  | .stream =>
    s.withRuntime
      (receiveTokenEnvelope services.receiveRelayStreamFrame s.toRelayRuntime peerId body)

/-- **An envelope arrives** from a peer. -/
def handleRelayDataPayload (s : DataPlane σ L R X) (peerId : String) (envelope : Bytes) :
    DataPlane σ L R X × Except RelayDataError Unit :=
  match envelope with
  | [] => (s, .error .envelopeEmpty)
  | kind :: body =>
    if kind ≠ dataEnvCrypto ∧ peerId ∉ s.relayPathReady then (s, .error .notAdmitted)
    else
      match EnvelopeKind.ofByte kind with
      | none => (s, .error (.unknownKind kind))
      | some envelopeKind =>
        handleEnvelope codec services ports noise env s peerId body envelopeKind

end Payload

end SshMobile.Relay
