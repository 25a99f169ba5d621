import SshMobile.Crypto.Context
import SshMobile.Library.Protobuf
import SshMobile.Relay.Envelope

/-!
# Relay data frames

The data plane of a relay carries protocol-buffer frames behind a length prefix. A device encodes
the payloads it sends into frames and the relay decodes them; both refuse a frame above one limit.
The device also limits its payloads, to the same number of bytes, and cuts files into chunks whose
encrypted envelopes reach that number. The limit on frames counts the keys, lengths and varints
around the payload as well, so the largest payloads do not fit.

## Main definitions

* `RelayDataFrame`, `RelayDataFrame.encode`, `RelayDataFrame.unmarshal`: the frames and their wire
  form
* `encodeDataFrame`, `send`: the device's side
* `stripPrefix`, `validateDataFrame`, `decodeData`: the relay's side
* `fileChunkEnvelope`: the envelope of an encrypted chunk of a file
* `Relayed sequence payload`: the device sends the payload and the relay reads it unchanged

## Main results

* `decodeData_encodeDataFrame`: the relay reads every frame back that a device encodes within its
  bounds
* `length_encode_payload`: the length of a frame with a payload
* `relayed_iff`: the payloads that get through, and the chunks of files among them
-/

namespace SshMobile.Relay

open Library Crypto

def relayV2Version : UInt32 := 2

def frameLengthPrefixBytes : ℕ := 4

def maxRelayDataFrameBytes : ℕ := frameLengthPrefixBytes + 512 * 1024

theorem maxRelayDataFrameBytes_eq : maxRelayDataFrameBytes = 524292 := rfl

def reservationIdHexChars : ℕ := 32

def reservationTokenBytes : ℕ := 32

/-! ## Frames -/

structure RelayDataConnect where
  reservationId : String
  localToken : Bytes
deriving DecidableEq

structure RelayDataPayload where
  sequence : UInt64
  encryptedPayload : Bytes
deriving DecidableEq

structure RelayDataAck where
  sequence : UInt64
deriving DecidableEq

structure RelayDataClose where
  reason : UInt32
  detail : String
deriving DecidableEq

inductive DataFrameKind
  | connect (connect : RelayDataConnect)
  | payload (payload : RelayDataPayload)
  | ack (ack : RelayDataAck)
  | close (close : RelayDataClose)
deriving DecidableEq

/-- **A frame of the data plane**. -/
structure RelayDataFrame where
  version : UInt32
  kind : Option DataFrameKind
deriving DecidableEq

/-! ### Encoding -/

def RelayDataConnect.fields (m : RelayDataConnect) : List WireField :=
  optionalField (m.reservationId == "") 1 (.bytes (utf8 m.reservationId)) ++
    optionalField (m.localToken == []) 2 (.bytes m.localToken)

def RelayDataPayload.fields (m : RelayDataPayload) : List WireField :=
  optionalField (m.sequence == 0) 1 (.varint m.sequence.toNat) ++
    optionalField (m.encryptedPayload == []) 2 (.bytes m.encryptedPayload)

def RelayDataAck.fields (m : RelayDataAck) : List WireField :=
  optionalField (m.sequence == 0) 1 (.varint m.sequence.toNat)

def RelayDataClose.fields (m : RelayDataClose) : List WireField :=
  optionalField (m.reason == 0) 1 (.varint m.reason.toNat) ++
    optionalField (m.detail == "") 2 (.bytes (utf8 m.detail))

/-- The fields of the message that a kind holds. -/
def DataFrameKind.fields : DataFrameKind → List WireField
  | .connect m => m.fields
  | .payload m => m.fields
  | .ack m => m.fields
  | .close m => m.fields

def DataFrameKind.tag : DataFrameKind → ℕ
  | .connect _ => 10
  | .payload _ => 11
  | .ack _ => 12
  | .close _ => 13

/-- The message of a kind, as a field of the frame. It is written even when it is empty. -/
def DataFrameKind.field (kind : DataFrameKind) : WireField :=
  ⟨kind.tag, .bytes (encodeFields kind.fields)⟩

def RelayDataFrame.fields (frame : RelayDataFrame) : List WireField :=
  optionalField (frame.version == 0) 1 (.varint frame.version.toNat) ++
    (frame.kind.map DataFrameKind.field).toList

def RelayDataFrame.encode (frame : RelayDataFrame) : Bytes := encodeFields frame.fields

/-! ### Decoding

The relay skips a known field of the wrong wire type like an unknown one; a string that is not
UTF-8 is an error. -/

def RelayDataConnect.merge (m : RelayDataConnect) : WireField → Option RelayDataConnect
  | ⟨1, .bytes b⟩ => (decodeUtf8 b).map fun s => { m with reservationId := s }
  | ⟨2, .bytes b⟩ => some { m with localToken := b }
  | _ => some m

def RelayDataPayload.merge (m : RelayDataPayload) : WireField → Option RelayDataPayload
  | ⟨1, .varint n⟩ => some { m with sequence := UInt64.ofNat n }
  | ⟨2, .bytes b⟩ => some { m with encryptedPayload := b }
  | _ => some m

def RelayDataAck.merge (m : RelayDataAck) : WireField → Option RelayDataAck
  | ⟨1, .varint n⟩ => some { m with sequence := UInt64.ofNat n }
  | _ => some m

def RelayDataClose.merge (m : RelayDataClose) : WireField → Option RelayDataClose
  | ⟨1, .varint n⟩ => some { m with reason := UInt32.ofNat n }
  | ⟨2, .bytes b⟩ => (decodeUtf8 b).map fun s => { m with detail := s }
  | _ => some m

/-- The message that a second field of the same kind is merged into: the one already there, or
one of default values. -/
def DataFrameKind.connectOf : Option DataFrameKind → RelayDataConnect
  | some (.connect m) => m
  | _ => ⟨"", []⟩

@[inherit_doc DataFrameKind.connectOf]
def DataFrameKind.payloadOf : Option DataFrameKind → RelayDataPayload
  | some (.payload m) => m
  | _ => ⟨0, []⟩

@[inherit_doc DataFrameKind.connectOf]
def DataFrameKind.ackOf : Option DataFrameKind → RelayDataAck
  | some (.ack m) => m
  | _ => ⟨0⟩

@[inherit_doc DataFrameKind.connectOf]
def DataFrameKind.closeOf : Option DataFrameKind → RelayDataClose
  | some (.close m) => m
  | _ => ⟨0, ""⟩

def RelayDataFrame.merge (frame : RelayDataFrame) : WireField → Option RelayDataFrame
  | ⟨1, .varint n⟩ => some { frame with version := UInt32.ofNat n }
  | ⟨10, .bytes b⟩ =>
    (mergeFields RelayDataConnect.merge (DataFrameKind.connectOf frame.kind) b).map fun m =>
      { frame with kind := some (.connect m) }
  | ⟨11, .bytes b⟩ =>
    (mergeFields RelayDataPayload.merge (DataFrameKind.payloadOf frame.kind) b).map fun m =>
      { frame with kind := some (.payload m) }
  | ⟨12, .bytes b⟩ =>
    (mergeFields RelayDataAck.merge (DataFrameKind.ackOf frame.kind) b).map fun m =>
      { frame with kind := some (.ack m) }
  | ⟨13, .bytes b⟩ =>
    (mergeFields RelayDataClose.merge (DataFrameKind.closeOf frame.kind) b).map fun m =>
      { frame with kind := some (.close m) }
  | _ => some frame

def RelayDataFrame.unmarshal (bytes : Bytes) : Option RelayDataFrame :=
  mergeFields RelayDataFrame.merge ⟨0, none⟩ bytes

/-! ## The device -/

def encodeFrame (payload : Bytes) (maxBytes : ℕ) : Except RelayError Bytes :=
  let total := frameLengthPrefixBytes + payload.length
  if maxBytes < total then
    .error (.invalidConfiguration s!"v2 frame is too large: {total} bytes exceeds {maxBytes}")
  else .ok (beBytes 4 payload.length ++ payload)

def encodeDataFrame (frame : RelayDataFrame) : Except RelayError Bytes :=
  if frame.version ≠ relayV2Version then
    .error (.protocol ("unsupported Relay v2 data frame version " ++ toString frame.version.toNat))
  else encodeFrame frame.encode maxRelayDataFrameBytes

/-- The frame that carries a payload. -/
def payloadFrame (sequence : UInt64) (encryptedPayload : Bytes) : RelayDataFrame :=
  ⟨relayV2Version, some (.payload ⟨sequence, encryptedPayload⟩)⟩

/-- **The frame a connected client puts on its socket** for a payload. -/
def send (sequence : UInt64) (encryptedPayload : Bytes) : Except RelayError Bytes :=
  (clientSend encryptedPayload).bind fun encryptedPayload =>
    encodeDataFrame (payloadFrame sequence encryptedPayload)

/-! ## The relay -/

inductive FrameError
  | frameTooShort (got : ℕ)
  | lengthMismatch (length payload : ℕ)
  | frameTooLarge (got : ℕ)
  | badVersion (got : UInt32)
  | malformedProto
  | invalidBounds (what : String) (got want : ℕ)
deriving DecidableEq

def stripPrefix (frame : Bytes) (maxFrameBytes : ℕ) : Except FrameError Bytes :=
  if frame.length < frameLengthPrefixBytes then .error (.frameTooShort frame.length)
  else if maxFrameBytes < frame.length then .error (.frameTooLarge frame.length)
  else
    let length := ofBeBytes (frame.take frameLengthPrefixBytes)
    let payload := frame.drop frameLengthPrefixBytes
    if length ≠ payload.length then .error (.lengthMismatch length payload.length)
    else .ok payload

def checkLen (what : String) (got want : ℕ) : Except FrameError Unit :=
  if got ≠ want then .error (.invalidBounds what got want) else .ok ()

def validateDataFrame (msg : RelayDataFrame) : Except FrameError Unit :=
  match msg.kind with
  | some (.connect c) =>
    match checkLen "reservation_id" c.reservationId.utf8ByteSize reservationIdHexChars with
    | .error error => .error error
    | .ok () => checkLen "local_token" c.localToken.length reservationTokenBytes
  | some (.payload _) | some (.ack _) | some (.close _) | none => .ok ()

def decodeData (frame : Bytes) : Except FrameError RelayDataFrame :=
  match stripPrefix frame maxRelayDataFrameBytes with
  | .error error => .error error
  | .ok pb =>
    match RelayDataFrame.unmarshal pb with
    | none => .error .malformedProto
    | some msg =>
      if msg.version ≠ relayV2Version then .error (.badVersion msg.version)
      else
        match validateDataFrame msg with
        | .error error => .error error
        | .ok () => .ok msg

/-! ## Round trip -/

theorem DataFrameKind.tag_bounds (kind : DataFrameKind) : 1 ≤ kind.tag ∧ kind.tag < 16 := by
  cases kind <;> simp [DataFrameKind.tag]

variable {kind : DataFrameKind} {frame : RelayDataFrame} {payload : Bytes} {maxBytes : ℕ}
  {sequence : UInt64}

/-- Whatever a kind holds can be written, if it is short enough for the frame's length prefix. -/
theorem DataFrameKind.encodable_fields (h : (encodeFields kind.fields).length < 2 ^ 64) :
    ∀ f ∈ kind.fields, f.Encodable := by
  -- A byte string in the message is no longer than the message.
  intro f hf
  have hbytes {tag : ℕ} {b : Bytes} (hb : ⟨tag, .bytes b⟩ ∈ kind.fields) : b.length < 2 ^ 64 :=
    (length_le_encodeFields hb).trans_lt h
  cases kind with
  | connect m =>
    rcases List.mem_append.mp hf with hmem | hmem
    · obtain ⟨_, rfl⟩ := mem_optionalField.mp hmem
      exact WireField.encodable_mk (by decide) (by decide) (hbytes hf)
    · obtain ⟨_, rfl⟩ := mem_optionalField.mp hmem
      exact WireField.encodable_mk (by decide) (by decide) (hbytes hf)
  | payload m =>
    rcases List.mem_append.mp hf with hmem | hmem
    · obtain ⟨_, rfl⟩ := mem_optionalField.mp hmem
      exact WireField.encodable_mk (by decide) (by decide) m.sequence.toNat_lt
    · obtain ⟨_, rfl⟩ := mem_optionalField.mp hmem
      exact WireField.encodable_mk (by decide) (by decide) (hbytes hf)
  | ack m =>
    obtain ⟨_, rfl⟩ := mem_optionalField.mp hf
    exact WireField.encodable_mk (by decide) (by decide) m.sequence.toNat_lt
  | close m =>
    rcases List.mem_append.mp hf with hmem | hmem
    · obtain ⟨_, rfl⟩ := mem_optionalField.mp hmem
      exact WireField.encodable_mk (by decide) (by decide) (m.reason.toNat_lt.trans (by decide))
    · obtain ⟨_, rfl⟩ := mem_optionalField.mp hmem
      exact WireField.encodable_mk (by decide) (by decide) (hbytes hf)

theorem RelayDataConnect.foldlM_fields (m : RelayDataConnect) :
    m.fields.foldlM RelayDataConnect.merge ⟨"", []⟩ = some m := by
  rw [RelayDataConnect.fields,
    foldlM_optionalField_append (RelayDataConnect.mk · []) (by simp [RelayDataConnect.merge])]
  exact foldlM_optionalField (RelayDataConnect.mk m.reservationId ·) rfl

theorem RelayDataPayload.foldlM_fields (m : RelayDataPayload) :
    m.fields.foldlM RelayDataPayload.merge ⟨0, []⟩ = some m := by
  rw [RelayDataPayload.fields,
    foldlM_optionalField_append (RelayDataPayload.mk · []) (by simp [RelayDataPayload.merge])]
  exact foldlM_optionalField (RelayDataPayload.mk m.sequence ·) rfl

theorem RelayDataAck.foldlM_fields (m : RelayDataAck) :
    m.fields.foldlM RelayDataAck.merge ⟨0⟩ = some m :=
  foldlM_optionalField RelayDataAck.mk (by simp [RelayDataAck.merge])

theorem RelayDataClose.foldlM_fields (m : RelayDataClose) :
    m.fields.foldlM RelayDataClose.merge ⟨0, ""⟩ = some m := by
  rw [RelayDataClose.fields,
    foldlM_optionalField_append (RelayDataClose.mk · "") (by simp [RelayDataClose.merge])]
  exact foldlM_optionalField (RelayDataClose.mk m.reason ·) (by simp [RelayDataClose.merge])

open RelayDataFrame

/-- The message of a kind, read into a frame that has none yet. -/
theorem RelayDataFrame.merge_field {version : UInt32}
    (h : (encodeFields kind.fields).length < 2 ^ 64) :
    merge ⟨version, none⟩ kind.field = some ⟨version, some kind⟩ := by
  have hread := DataFrameKind.encodable_fields h
  cases kind with
  | connect m | payload m | ack m | close m =>
    have hm := (mergeFields_encodeFields hread).trans m.foldlM_fields
    exact congrArg (Option.map _) hm

/-- **A frame is read back** from its wire form. -/
theorem RelayDataFrame.unmarshal_encode (h : frame.encode.length < 2 ^ 64) :
    unmarshal frame.encode = some frame := by
  obtain ⟨version, kind⟩ := frame
  have hkind (k : DataFrameKind) (hk : kind = some k) :
      (encodeFields k.fields).length < 2 ^ 64 := by
    refine (length_le_encodeFields (?_ : k.field ∈ _)).trans_lt h
    rw [fields, hk]
    exact List.mem_append_right _ List.mem_cons_self
  have hencodable : ∀ f ∈ fields ⟨version, kind⟩, f.Encodable := by
    intro f hf
    rcases List.mem_append.mp hf with hf | hf
    · obtain ⟨_, rfl⟩ := mem_optionalField.mp hf
      exact WireField.encodable_mk (by decide) (by decide) (version.toNat_lt.trans (by decide))
    · obtain ⟨k, hk, rfl⟩ := Option.map_eq_some_iff.mp (Option.mem_toList.mp hf)
      exact ⟨k.tag_bounds.1, k.tag_bounds.2.trans (by decide), hkind k hk⟩
  rw [unmarshal, encode, mergeFields_encodeFields hencodable, fields,
    foldlM_optionalField_append (mk · none) (by simp [merge])]
  cases kind with
  | none => rfl
  | some k =>
    have hmerge : merge ⟨version, none⟩ k.field = some ⟨version, some k⟩ :=
      merge_field (hkind k rfl)
    simp only [Option.bind_eq_bind, Option.bind_some, Option.map_some, Option.toList_some,
      List.foldlM_cons, List.foldlM_nil, hmerge]
    rfl

theorem encodeFrame_ok {frame : Bytes} :
    encodeFrame payload maxBytes = .ok frame ↔
      frameLengthPrefixBytes + payload.length ≤ maxBytes ∧
        frame = beBytes 4 payload.length ++ payload := by
  rw [encodeFrame]
  split_ifs with h
  · exact ⟨fun h' => (nomatch h'), fun h' => absurd h'.1 (Nat.not_le.mpr h)⟩
  · rw [Except.ok.injEq]
    exact ⟨fun h' => ⟨Nat.le_of_not_lt h, h'.symm⟩, fun h' => h'.2.symm⟩

theorem stripPrefix_encodeFrame {frame : Bytes} (hmax : maxBytes < 2 ^ 32)
    (h : encodeFrame payload maxBytes = .ok frame) : stripPrefix frame maxBytes = .ok payload := by
  obtain ⟨hle, rfl⟩ := encodeFrame_ok.mp h
  have hlength : (beBytes 4 payload.length ++ payload).length =
      frameLengthPrefixBytes + payload.length := by
    rw [List.length_append, length_beBytes, frameLengthPrefixBytes]
  rw [stripPrefix, hlength, if_neg (by omega), if_neg (by omega), frameLengthPrefixBytes,
    List.take_left' (length_beBytes _ _), List.drop_left' (length_beBytes _ _),
    ofBeBytes_beBytes (by omega)]
  exact if_neg (not_not_intro rfl)

/-- **The relay reads back** every frame that a device encodes and whose fields keep the bounds. -/
theorem decodeData_encodeDataFrame {bytes : Bytes} (h : encodeDataFrame frame = .ok bytes)
    (hvalid : validateDataFrame frame = .ok ()) : decodeData bytes = .ok frame := by
  rw [encodeDataFrame] at h
  split_ifs at h with hversion
  have hlength : frame.encode.length < 2 ^ 64 := by
    have hle := (encodeFrame_ok.mp h).1
    rw [maxRelayDataFrameBytes_eq] at hle
    omega
  have hmax : maxRelayDataFrameBytes < 2 ^ 32 := by
    rw [maxRelayDataFrameBytes_eq]
    omega
  rw [decodeData, stripPrefix_encodeFrame hmax h]
  dsimp only
  rw [unmarshal_encode hlength]
  dsimp only
  rw [if_neg hversion, hvalid]

/-! ## The length of a frame -/

/-- The bytes that the number of a payload takes in its frame; zero is left out. -/
def sequenceBytes (sequence : UInt64) : ℕ :=
  if sequence = 0 then 0 else 1 + (encodeVarint sequence.toNat).length

theorem sequenceBytes_le (sequence : UInt64) : sequenceBytes sequence ≤ 11 := by
  have hle := length_encodeVarint_le (n := sequence.toNat) 9
    (sequence.toNat_lt.trans (by decide))
  rw [sequenceBytes]
  split_ifs <;> omega

theorem length_encodeFields_sequence (sequence : UInt64) :
    (encodeFields (optionalField (sequence == 0) 1 (.varint sequence.toNat))).length =
      sequenceBytes sequence := by
  rw [optionalField, sequenceBytes]
  by_cases h : sequence = 0
  · rw [if_pos (beq_iff_eq.mpr h), if_pos h]
    rfl
  · have hkey : (encodeVarint (8 * 1)).length = 1 := by
      rw [encodeVarint_of_lt (by decide), List.length_singleton]
    rw [if_neg (fun h' => h (beq_iff_eq.mp h')), if_neg h, encodeFields, List.flatMap_singleton,
      encodeField, List.length_append, hkey]

/-- The length of the message with a payload. -/
theorem length_encodeFields_payload (hne : payload ≠ []) :
    (encodeFields (DataFrameKind.payload ⟨sequence, payload⟩).fields).length =
      sequenceBytes sequence + (1 + (encodeVarint payload.length).length + payload.length) := by
  have hkey : (encodeVarint (8 * 2 + 2)).length = 1 := by
    rw [encodeVarint_of_lt (by decide), List.length_singleton]
  have hbytes : (encodeFields (optionalField (payload == []) 2 (.bytes payload))).length =
      1 + (encodeVarint payload.length).length + payload.length := by
    rw [optionalField, if_neg (fun h => hne (beq_iff_eq.mp h)), encodeFields,
      List.flatMap_singleton, encodeField, List.length_append, List.length_append, hkey]
    omega
  rw [DataFrameKind.fields, RelayDataPayload.fields, encodeFields_append, List.length_append,
    length_encodeFields_sequence, hbytes]

/-- **The length of a frame with a payload**: the version, the key and the length of the message,
and the message. -/
theorem length_encode_payload :
    (payloadFrame sequence payload).encode.length =
      let length := (encodeFields (DataFrameKind.payload ⟨sequence, payload⟩).fields).length
      3 + (encodeVarint length).length + length := by
  have hversion : (encodeFields (optionalField (relayV2Version == 0) 1
      (.varint relayV2Version.toNat))).length = 2 := by
    have hfields : optionalField (relayV2Version == 0) 1 (.varint relayV2Version.toNat) =
        [⟨1, .varint 2⟩] := rfl
    rw [hfields, encodeFields, List.flatMap_singleton, encodeField, List.length_append,
      encodeVarint_of_lt (by decide), encodeVarint_of_lt (by decide)]
    rfl
  have hkey : (encodeVarint (8 * 11 + 2)).length = 1 := by
    rw [encodeVarint_of_lt (by decide), List.length_singleton]
  rw [payloadFrame, encode, fields, encodeFields_append,
    List.length_append, hversion]
  simp only [Option.map_some, Option.toList_some, encodeFields, List.flatMap_singleton,
    DataFrameKind.field, DataFrameKind.tag, encodeField, List.length_append, hkey]
  omega

/-- The bytes around a payload of at least `128 ^ 2` bytes, its number apart: the version, and for
the message and for the payload a key and a length of three bytes. -/
def framingBytes : ℕ := 2 + (1 + 3) + (1 + 3)

/-- A frame fits exactly if its payload leaves room for its number and the framing. -/
theorem length_encode_payload_le_iff (hne : payload ≠ [])
    (hle : payload.length ≤ maxDataPayloadBytes) :
    frameLengthPrefixBytes + (payloadFrame sequence payload).encode.length ≤
        maxRelayDataFrameBytes ↔
      payload.length + sequenceBytes sequence + framingBytes ≤ 512 * 1024 := by
  have hsequence := sequenceBytes_le sequence
  rw [maxDataPayloadBytes] at hle
  rw [length_encode_payload, length_encodeFields_payload hne, maxRelayDataFrameBytes_eq,
    frameLengthPrefixBytes, framingBytes]
  dsimp only
  by_cases hlarge : 128 ^ 2 ≤ payload.length
  · have hlength : (encodeVarint payload.length).length = 3 :=
      length_encodeVarint_eq 2 hlarge (by omega)
    rw [hlength]
    have hmessage : (encodeVarint (sequenceBytes sequence +
        (1 + 3 + payload.length))).length = 3 :=
      length_encodeVarint_eq 2 (by omega) (by omega)
    rw [hmessage]
    omega
  · -- A payload this short fits whatever its number is.
    have hlength := length_encodeVarint_le (n := payload.length) 2 (by omega)
    have hmessage := length_encodeVarint_le (n := sequenceBytes sequence +
      (1 + (encodeVarint payload.length).length + payload.length)) 2 (by omega)
    omega

/-! ## What gets through -/

/-- The device sends the payload, and the relay accepts the frame and reads the payload and its
number as they were. -/
def Relayed (sequence : UInt64) (payload : Bytes) : Prop :=
  ∃ frame, send sequence payload = .ok frame ∧
    decodeData frame = .ok (payloadFrame sequence payload)

theorem encodeDataFrame_payloadFrame (sequence : UInt64) (payload : Bytes) :
    encodeDataFrame (payloadFrame sequence payload) =
      encodeFrame (payloadFrame sequence payload).encode maxRelayDataFrameBytes :=
  if_neg (not_not_intro rfl)

theorem send_eq (hne : payload ≠ []) (hle : payload.length ≤ maxDataPayloadBytes) :
    send sequence payload =
      encodeFrame (payloadFrame sequence payload).encode maxRelayDataFrameBytes := by
  have hadmitted : clientSend payload = .ok payload := by
    rw [clientSend, if_neg]
    simpa [hne] using hle
  rw [send, hadmitted]
  exact encodeDataFrame_payloadFrame sequence payload

theorem relayed_payload_iff (hne : payload ≠ []) (hle : payload.length ≤ maxDataPayloadBytes) :
    Relayed sequence payload ↔
      payload.length + sequenceBytes sequence + framingBytes ≤ 512 * 1024 := by
  rw [← length_encode_payload_le_iff hne hle, Relayed]
  constructor
  · rintro ⟨frame, hsend, _⟩
    rw [send_eq hne hle] at hsend
    exact (encodeFrame_ok.mp hsend).1
  · intro hfits
    have hsend : send sequence payload = .ok _ :=
      (send_eq hne hle).trans (encodeFrame_ok.mpr ⟨hfits, rfl⟩)
    refine ⟨_, hsend, decodeData_encodeDataFrame ?_ rfl⟩
    rw [encodeDataFrame_payloadFrame, ← send_eq hne hle, hsend]

/-! ## Chunks of files -/

def defaultTransferBuffer : ℕ := 512 * 1024

/-- The bytes that the envelope of a chunk adds to it: the kind, the session id, the number of the
chunk, and the header and the tag of the encrypted chunk. -/
def relayFileChunkEnvelopeOverheadBytes : ℕ := 1 + 32 + 8 + 26 + 16

def relayFileChunkBytes : ℕ := defaultTransferBuffer - relayFileChunkEnvelopeOverheadBytes

/-- The envelope of an encrypted chunk. -/
def fileChunkEnvelope (sessionId : String) (sequence : UInt64) (ciphertext : Bytes) : Bytes :=
  dataEnvFileChunk :: (utf8 sessionId ++ (beBytes 8 sequence.toNat ++ ciphertext))

theorem fileChunkEnvelope_ne_nil (sessionId : String) (sequence : UInt64) (ciphertext : Bytes) :
    fileChunkEnvelope sessionId sequence ciphertext ≠ [] :=
  List.cons_ne_nil _ _

theorem length_fileChunkEnvelope {p : Primitives} (hp : p.Lawful) {ctx : CryptoContext}
    {aad chunk ciphertext : Bytes} (h : (encrypt p ctx aad chunk).2 = .ok ciphertext)
    {sessionId : String} (hsession : sessionId.utf8ByteSize = 32) (sequence : UInt64) :
    (fileChunkEnvelope sessionId sequence ciphertext).length =
      chunk.length + relayFileChunkEnvelopeOverheadBytes := by
  rw [fileChunkEnvelope, List.length_cons, List.length_append, List.length_append, length_utf8,
    length_beBytes, length_of_encrypt hp h, hsession, relayFileChunkEnvelopeOverheadBytes,
    envelopeHeaderBytes, gcmNonceBytes, gcmTagBytes]
  omega

/-- **The payloads that get through** are those that leave room in the frame for their number and
the framing; and among the chunks of files, which all keep the device's limit on payloads, those
whose envelopes do. The framing takes ten bytes more than the limits leave. -/
theorem relayed_iff (sequence : UInt64) :
    (∀ payload : Bytes, payload ≠ [] → payload.length ≤ maxDataPayloadBytes →
      (Relayed sequence payload ↔
        payload.length + sequenceBytes sequence + framingBytes ≤ 512 * 1024)) ∧
    (∀ (p : Primitives), p.Lawful → ∀ (ctx : CryptoContext) (aad chunk ciphertext : Bytes),
      chunk ≠ [] → chunk.length ≤ relayFileChunkBytes →
      (encrypt p ctx aad chunk).2 = .ok ciphertext →
      ∀ (sessionId : String) (chunkSequence : UInt64), sessionId.utf8ByteSize = 32 →
        (Relayed sequence (fileChunkEnvelope sessionId chunkSequence ciphertext) ↔
          chunk.length + sequenceBytes sequence + framingBytes ≤ relayFileChunkBytes)) := by
  refine ⟨fun payload hne hle => relayed_payload_iff hne hle, ?_⟩
  intro p hp ctx aad chunk ciphertext hne hle hencrypt sessionId chunkSequence hsession
  have hlength := length_fileChunkEnvelope hp hencrypt hsession chunkSequence
  have hchunk : relayFileChunkBytes + relayFileChunkEnvelopeOverheadBytes = 512 * 1024 := rfl
  have hmax : maxDataPayloadBytes = 512 * 1024 := rfl
  rw [relayed_payload_iff (fileChunkEnvelope_ne_nil _ _ _) (by omega), hlength]
  omega

/-- A chunk of one byte, and what the second part says about it. -/
theorem relayed_iff_oneByte :
    ([0x2a] : Bytes).length + sequenceBytes 0 + framingBytes ≤ relayFileChunkBytes ∧
      Relayed 0 (fileChunkEnvelope "00000000000000000000000000000000" 0
        (sealedEnvelope .hkdfSha256Aes256GcmV1 0 (structuredNonce samplePrefix 0)
          ([0x2a] ++ checksumTag sampleKey (structuredNonce samplePrefix 0) [] [0x2a]))) :=
  have hfits : ([0x2a] : Bytes).length + sequenceBytes 0 + framingBytes ≤ relayFileChunkBytes := by
    decide
  ⟨hfits, ((relayed_iff 0).2 checksumPrimitives checksumPrimitives_lawful
    (fromSessionRoot sampleRoot true) [] [0x2a] _ (by decide) (by decide)
    (encrypt_sample (by decide)) "00000000000000000000000000000000" 0 rfl).mpr hfits⟩

/-- **A full chunk is refused**: it is encrypted, the client's limit admits its envelope, and the
frame that carries it is too large. -/
theorem full_chunk_refused :
    ∃ ciphertext,
      (encrypt checksumPrimitives (fromSessionRoot sampleRoot true) []
        (List.replicate relayFileChunkBytes 0)).2 = .ok ciphertext ∧
      (fileChunkEnvelope "00000000000000000000000000000000" 0 ciphertext).length ≤
        maxDataPayloadBytes ∧
      ¬ Relayed 0 (fileChunkEnvelope "00000000000000000000000000000000" 0 ciphertext) := by
  have hchunk : (List.replicate relayFileChunkBytes (0 : UInt8)).length = relayFileChunkBytes :=
    List.length_replicate
  have hlimit : relayFileChunkBytes ≤ maxBytesPerKey := by decide
  have hencrypt : (encrypt checksumPrimitives (fromSessionRoot sampleRoot true) []
      (List.replicate relayFileChunkBytes 0)).2 = .ok _ := encrypt_sample (hchunk.trans_le hlimit)
  have hlength := length_fileChunkEnvelope checksumPrimitives_lawful hencrypt
    (rfl : ("00000000000000000000000000000000" : String).utf8ByteSize = 32) 0
  rw [hchunk] at hlength
  have hmax : relayFileChunkBytes + relayFileChunkEnvelopeOverheadBytes = maxDataPayloadBytes := rfl
  refine ⟨_, hencrypt, (hlength.trans hmax).le, ?_⟩
  rw [relayed_payload_iff (fileChunkEnvelope_ne_nil _ _ _) (hlength.trans hmax).le, hlength, hmax]
  decide

end SshMobile.Relay
