import SshMobile.Library.Bytes

/-!
# Relay envelopes

A relay forwards opaque payloads. The devices wrap their data in envelopes: a byte for the kind,
and for messages, acknowledgements and byte streams a token with its length before the body.

## Main definitions

* `sendDataEnvelopeWithToken`: the envelope handed to the relay client
* `decodeTokenEnvelope`: the token and the body, read back

## Main results

* `decodeTokenEnvelope_tokenEnvelope`: the receiver reads the token and the body back
-/

namespace SshMobile.Relay

open Library

def dataEnvCrypto : UInt8 := 0x01

def dataEnvFileOffer : UInt8 := 0x02

def dataEnvFileAccept : UInt8 := 0x03

def dataEnvFileComplete : UInt8 := 0x04

def dataEnvFileCompleteAck : UInt8 := 0x05

def dataEnvFileCancel : UInt8 := 0x06

def dataEnvFileChunk : UInt8 := 0x07

def dataEnvChannel : UInt8 := 0x08

def dataEnvChannelAck : UInt8 := 0x09

def dataEnvStream : UInt8 := 0x0A

def maxDataPayloadBytes : ℕ := 512 * 1024

inductive RelayError
  | invalidConfiguration (detail : String)
  | protocol (detail : String)
deriving DecidableEq

/-- The payload a connected relay client puts on the wire. -/
def clientSend (encryptedPayload : Bytes) : Except RelayError Bytes :=
  if encryptedPayload.isEmpty || decide (maxDataPayloadBytes < encryptedPayload.length) then
    .error (.invalidConfiguration "Relay data payload size is outside protocol bounds")
  else .ok encryptedPayload

/-- The length of a token, the token and the body. -/
def tokenEnvelope (token : String) (body : Bytes) : Bytes :=
  UInt8.ofNat token.utf8ByteSize :: (utf8 token ++ body)

def sendDataEnvelopeWithToken (kind : UInt8) (token : String) (body : Bytes) :
    Except RelayError Bytes :=
  if 255 < token.utf8ByteSize then
    .error (.invalidConfiguration "relay data envelope token is too long")
  else clientSend (kind :: tokenEnvelope token body)

def decodeTokenEnvelope (envelope : Bytes) : Except RelayError (String × Bytes) :=
  match envelope with
  | [] | [_] => .error (.protocol "relay data envelope is truncated")
  | tokenLen :: rest =>
    if rest.length < tokenLen.toNat then
      .error (.protocol "relay data envelope token is truncated")
    else
      match decodeUtf8 (rest.take tokenLen.toNat) with
      | none => .error (.protocol "relay data envelope token is not UTF-8")
      | some token => .ok (token, rest.drop tokenLen.toNat)

variable {token : String}

/-- **The token and the body** are read back, unless both are empty. -/
theorem decodeTokenEnvelope_tokenEnvelope {body : Bytes} (htoken : token.utf8ByteSize ≤ 255)
    (hne : utf8 token ++ body ≠ []) :
    decodeTokenEnvelope (tokenEnvelope token body) = .ok (token, body) := by
  have hlen : (UInt8.ofNat token.utf8ByteSize).toNat = token.utf8ByteSize := by
    rw [UInt8.toNat_ofNat']
    omega
  rw [tokenEnvelope, decodeTokenEnvelope]
  · rw [hlen, if_neg, List.take_left' (length_utf8 _), decodeUtf8_utf8,
      List.drop_left' (length_utf8 _)]
    rw [List.length_append, length_utf8]
    omega
  · exact hne

theorem sendDataEnvelopeWithToken_ok {kind : UInt8} {body envelope : Bytes} :
    sendDataEnvelopeWithToken kind token body = .ok envelope ↔
      token.utf8ByteSize ≤ 255 ∧ (tokenEnvelope token body).length + 1 ≤ maxDataPayloadBytes ∧
        envelope = kind :: tokenEnvelope token body := by
  rw [sendDataEnvelopeWithToken, clientSend]
  split_ifs with htoken hlength
  · simp only [false_iff, not_and]
    omega
  · simp only [List.isEmpty_cons, Bool.false_or, decide_eq_true_eq, List.length_cons] at hlength
    simp only [false_iff, not_and]
    omega
  · simp only [List.isEmpty_cons, Bool.false_or, decide_eq_true_eq, List.length_cons,
      Nat.not_lt] at hlength
    rw [Except.ok.injEq]
    exact ⟨fun h => ⟨Nat.le_of_not_lt htoken, hlength, h.symm⟩, fun h => h.2.2.symm⟩

end SshMobile.Relay
