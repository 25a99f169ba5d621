import SshMobile.Delivery.Store
import SshMobile.Library.Protobuf

/-!
# Data messages

The envelope of an application message on the wire, with its protocol-buffer form and the check a
receiver makes before it looks at the payload.

## Main definitions

* `DataMessage`, `DataMessage.encode`, `DataMessage.decode`: the envelope and its wire form
* `policyCode`, `decodePolicy`: the codes of the delivery policies
* `validateDataMessage`: the receiver's check

## Main results

* `DataMessage.decode_encode`: a message is read back
* `DataMessage.length_encode_le`: the length of a message
-/

namespace SshMobile.Channel

open Library Delivery

/-- **The envelope of an application message**. -/
structure DataMessage where
  sessionId : String
  channelId : String
  messageId : Bytes
  sequence : UInt64
  recoveryEpoch : UInt64
  policy : Int32
  payload : Bytes
deriving DecidableEq

def maxDeliveryMessagePayloadBytes : ℕ := 48 * 1024 - 1024

/-! ## Policies -/

def policyCode : DeliveryPolicy → Int32
  | .bestEffort => 0
  | .latestState => 1
  | .acked => 2
  | .ackedDeduplicated => 3
  | .sessionBoundOrdered => 4
  | .resumableTransfer => 5

def decodePolicy (value : Int32) : Option DeliveryPolicy :=
  if value = 0 then some .bestEffort
  else if value = 1 then some .latestState
  else if value = 2 then some .acked
  else if value = 3 then some .ackedDeduplicated
  else if value = 4 then some .sessionBoundOrdered
  else if value = 5 then some .resumableTransfer
  else none

@[simp] theorem decodePolicy_policyCode (policy : DeliveryPolicy) :
    decodePolicy (policyCode policy) = some policy := by
  cases policy <;> rfl

/-! ## Validation -/

inductive MessageError
  | invalidEnvelope
deriving DecidableEq

def validateDataMessage (message : DataMessage) : Except MessageError Unit :=
  if message.sessionId.utf8ByteSize = 0 ∨ 128 < message.sessionId.utf8ByteSize ∨
      message.channelId.utf8ByteSize = 0 ∨ 128 < message.channelId.utf8ByteSize ∨
      message.messageId.length ≠ 16 ∨ maxDeliveryMessagePayloadBytes < message.payload.length ∨
      decodePolicy message.policy = none then .error .invalidEnvelope
  else .ok ()

/-! ## The wire form -/

namespace DataMessage

/-- The message all of whose fields have their default value. -/
def empty : DataMessage := ⟨"", "", [], 0, 0, 0, []⟩

/-- The number that an `int32` field carries: the value, extended with its sign. -/
def signExtend (value : Int32) : ℕ := value.toInt64.toUInt64.toNat

def fields (m : DataMessage) : List WireField :=
  optionalField (m.sessionId == "") 1 (.bytes (utf8 m.sessionId)) ++
  (optionalField (m.channelId == "") 2 (.bytes (utf8 m.channelId)) ++
  (optionalField (m.messageId == []) 3 (.bytes m.messageId) ++
  (optionalField (m.sequence == 0) 4 (.varint m.sequence.toNat) ++
  (optionalField (m.recoveryEpoch == 0) 5 (.varint m.recoveryEpoch.toNat) ++
  (optionalField (m.policy == 0) 6 (.varint (signExtend m.policy)) ++
    optionalField (m.payload == []) 7 (.bytes m.payload))))))

def encode (m : DataMessage) : Bytes := encodeFields m.fields

/-- The message with one more field read; a field of the wrong wire type is an error, an unknown
one is skipped. -/
def merge (m : DataMessage) : WireField → Option DataMessage
  | ⟨1, .bytes b⟩ => (decodeUtf8 b).map fun s => { m with sessionId := s }
  | ⟨2, .bytes b⟩ => (decodeUtf8 b).map fun s => { m with channelId := s }
  | ⟨3, .bytes b⟩ => some { m with messageId := b }
  | ⟨4, .varint n⟩ => some { m with sequence := UInt64.ofNat n }
  | ⟨5, .varint n⟩ => some { m with recoveryEpoch := UInt64.ofNat n }
  | ⟨6, .varint n⟩ => some { m with policy := (UInt64.ofNat n).toInt64.toInt32 }
  | ⟨7, .bytes b⟩ => some { m with payload := b }
  | ⟨tag, _⟩ => if 1 ≤ tag ∧ tag ≤ 7 then none else some m

def decode (bytes : Bytes) : Option DataMessage :=
  match decodeFields bytes with
  | none => none
  | some fields => fields.foldlM merge empty

/-! ### Round trip -/

theorem toInt32_signExtend (value : Int32) :
    (UInt64.ofNat (signExtend value)).toInt64.toInt32 = value := by
  rw [signExtend, UInt64.ofNat_toNat, Int64.toInt64_toUInt64, Int32.toInt32_toInt64]

/-- A message whose strings and byte strings have fewer than `2 ^ 64` bytes. -/
structure Sized (m : DataMessage) : Prop where
  sessionId : m.sessionId.utf8ByteSize < 2 ^ 64
  channelId : m.channelId.utf8ByteSize < 2 ^ 64
  messageId : m.messageId.length < 2 ^ 64
  payload : m.payload.length < 2 ^ 64

variable {m : DataMessage}

theorem Sized.encodable (h : m.Sized) : ∀ f ∈ m.fields, f.Encodable := by
  have hsession : (utf8 m.sessionId).length < 2 ^ 64 := (length_utf8 _).symm ▸ h.sessionId
  have hchannel : (utf8 m.channelId).length < 2 ^ 64 := (length_utf8 _).symm ▸ h.channelId
  simp only [fields, List.forall_mem_append]
  exact ⟨encodable_optionalField (by decide) (by decide) hsession,
    encodable_optionalField (by decide) (by decide) hchannel,
    encodable_optionalField (by decide) (by decide) h.messageId,
    encodable_optionalField (by decide) (by decide) m.sequence.toNat_lt,
    encodable_optionalField (by decide) (by decide) m.recoveryEpoch.toNat_lt,
    encodable_optionalField (by decide) (by decide) m.policy.toInt64.toUInt64.toNat_lt,
    encodable_optionalField (by decide) (by decide) h.payload⟩

/-- **A message is read back.** -/
theorem decode_encode (h : m.Sized) : decode m.encode = some m := by
  obtain ⟨sessionId, channelId, messageId, sequence, epoch, policy, payload⟩ := m
  rw [decode, encode, decodeFields_encodeFields h.encodable]
  dsimp only [empty, fields]
  -- each field is left out at its default, and then merging leaves the default in place
  rw [foldlM_optionalField_append (mk · "" [] 0 0 0 []) (by simp [merge]),
    foldlM_optionalField_append (mk sessionId · [] 0 0 0 []) (by simp [merge]),
    foldlM_optionalField_append (mk sessionId channelId · 0 0 0 []) rfl,
    foldlM_optionalField_append (mk sessionId channelId messageId · 0 0 []) (by simp [merge]),
    foldlM_optionalField_append (mk sessionId channelId messageId sequence · 0 [])
      (by simp [merge]),
    foldlM_optionalField_append (mk sessionId channelId messageId sequence epoch · [])
      (by simp only [merge, toInt32_signExtend])]
  exact foldlM_optionalField (mk sessionId channelId messageId sequence epoch policy ·) rfl

/-! ### Length -/

/-- **The length of a message** with a session id of at most 127 bytes, a channel id and a payload
of the accepted sizes, and one of the policies. -/
theorem length_encode_le {policy : DeliveryPolicy} (hsession : m.sessionId.utf8ByteSize < 128)
    (hchannel : m.channelId.utf8ByteSize ≤ 128) (hmessage : m.messageId.length < 128)
    (hpolicy : m.policy = policyCode policy) (hpayload : m.payload.length < 2 ^ 21) :
    m.encode.length ≤ m.sessionId.utf8ByteSize + m.channelId.utf8ByteSize + m.messageId.length +
      m.payload.length + 35 := by
  -- the codes of the policies are small, so their varint has one byte
  have hcode : signExtend m.policy < 128 := by
    rw [hpolicy]
    cases policy <;> decide
  have hlength : m.encode.length ≤ 0 + 2 + (utf8 m.sessionId).length +
      (1 + 2 + (utf8 m.channelId).length + (0 + 2 + m.messageId.length +
        (9 + 2 + (9 + 2 + (0 + 2 + (2 + 2 + m.payload.length)))))) := by
    refine length_optionalField_append_le
      (length_encodeField_bytes_le 0 (by decide) (by simpa)) ?_
    refine length_optionalField_append_le
      (length_encodeField_bytes_le 1 (by decide) (by rw [length_utf8]; omega)) ?_
    refine length_optionalField_append_le
      (length_encodeField_bytes_le 0 (by decide) (by simpa)) ?_
    refine length_optionalField_append_le
      (length_encodeField_varint_le 9 (by decide) (m.sequence.toNat_lt.trans (by decide))) ?_
    refine length_optionalField_append_le
      (length_encodeField_varint_le 9 (by decide) (m.recoveryEpoch.toNat_lt.trans (by decide))) ?_
    refine length_optionalField_append_le
      (length_encodeField_varint_le 0 (by decide) (by simpa)) ?_
    exact length_encodeFields_optionalField_le
      (length_encodeField_bytes_le 2 (by decide) (by omega))
  rw [length_utf8, length_utf8] at hlength
  omega

end DataMessage

end SshMobile.Channel
