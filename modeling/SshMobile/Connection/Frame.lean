import SshMobile.Library.Bytes

/-!
# Generic frames

The frames of reliable generic routes: a header with the magic bytes, the protocol version, the
kind and the payload's length, then the payload. A route is a topology with a transport, and says
what it can carry.

## Main definitions

* `GenericFrameKind`, `encodeGenericFrame`, `decodeGenericFrame`: the frames
* `writeChannelFrame`: the frames of a QUIC stream
* `Route`, `Route.supports`: what a route can carry

## Main results

* `decodeGenericFrame_encode`: a frame is read back
* `decodeGenericFrame_iff`: the decoder accepts exactly the encoded frames
* `decodeGenericFrame_length`: a decoded payload is the header shorter than its frame
-/

namespace SshMobile.Connection

open Library

/-! ## Routes -/

inductive RouteTopology
  | direct
  | relay
deriving DecidableEq

inductive RouteTransport
  | quic
  | tcp
  | udp
  | webSocket
deriving DecidableEq

inductive ConnectionCapability
  | reliableStream
  | reliableMessage
  | unreliableDatagram
deriving DecidableEq

structure Route where
  topology : RouteTopology
  transport : RouteTransport
deriving DecidableEq

def Route.supports (route : Route) (capability : ConnectionCapability) : Bool :=
  match route.topology, route.transport, capability with
  | _, .tcp, .reliableStream | _, .quic, .reliableStream => true
  | _, .tcp, .reliableMessage | _, .quic, .reliableMessage => true
  | _, .webSocket, .reliableMessage => true
  -- The relay's data plane forwards opaque bytes, so it carries byte streams as well.
  | .relay, .webSocket, .reliableStream => true
  | _, .udp, .unreliableDatagram | _, .quic, .unreliableDatagram => true
  | _, _, _ => false

/-! ## Frames -/

def networkProtocolVersion : ℕ := 2

def maxChannelFrameBytes : ℕ := 48 * 1024

def genericFrameMagic : Bytes := utf8 "SMGF"

def genericFrameHeaderBytes : ℕ := 4 + 4 + 1 + 4

inductive GenericFrameKind
  | dataMessage
  | deliveryAck
  | streamBytes
  | streamOpen
  | streamClose
deriving DecidableEq

def GenericFrameKind.code : GenericFrameKind → UInt8
  | .dataMessage => 1
  | .deliveryAck => 2
  | .streamBytes => 3
  | .streamOpen => 4
  | .streamClose => 5

def GenericFrameKind.tryFrom (value : UInt8) : Option GenericFrameKind :=
  if value = 1 then some .dataMessage
  else if value = 2 then some .deliveryAck
  else if value = 3 then some .streamBytes
  else if value = 4 then some .streamOpen
  else if value = 5 then some .streamClose
  else none

def GenericFrameKind.isStream : GenericFrameKind → Bool
  | .streamBytes | .streamOpen | .streamClose => true
  | .dataMessage | .deliveryAck => false

@[simp] theorem GenericFrameKind.tryFrom_code (kind : GenericFrameKind) :
    tryFrom kind.code = some kind := by
  cases kind <;> rfl

inductive ConnectionError
  | invalidFrame
  | frameTooLarge
deriving DecidableEq

def ConnectionError.message : ConnectionError → String
  | .invalidFrame => "generic route frame is invalid"
  | .frameTooLarge => "generic route frame is too large"

/-- **The layout of a frame**: magic, version, kind, length and payload. -/
def genericFrame (kind : GenericFrameKind) (payload : Bytes) : Bytes :=
  genericFrameMagic ++ (beBytes 4 networkProtocolVersion ++ ([kind.code] ++
    (beBytes 4 payload.length ++ payload)))

def encodeGenericFrame (kind : GenericFrameKind) (payload : Bytes) :
    Except ConnectionError Bytes :=
  if payload.isEmpty ||
      decide (maxChannelFrameBytes < payload.length + genericFrameHeaderBytes) then
    .error .frameTooLarge
  else .ok (genericFrame kind payload)

def decodeGenericFrame (encoded : Bytes) : Except ConnectionError (GenericFrameKind × Bytes) :=
  if encoded.length < genericFrameHeaderBytes || encoded.take 4 != genericFrameMagic ||
      ofBeBytes ((encoded.drop 4).take 4) != networkProtocolVersion then .error .invalidFrame
  else
    match encoded[8]?.bind GenericFrameKind.tryFrom with
    | none => .error .invalidFrame
    | some kind =>
      let payloadLen := ofBeBytes ((encoded.drop 9).take 4)
      if payloadLen = 0 ∨ payloadLen + genericFrameHeaderBytes ≠ encoded.length ∨
          maxChannelFrameBytes < payloadLen + genericFrameHeaderBytes then .error .frameTooLarge
      else .ok (kind, encoded.drop genericFrameHeaderBytes)

variable {kind : GenericFrameKind} {payload encoded : Bytes}

theorem encodeGenericFrame_ok :
    encodeGenericFrame kind payload = .ok encoded ↔
      payload ≠ [] ∧ payload.length + genericFrameHeaderBytes ≤ maxChannelFrameBytes ∧
        encoded = genericFrame kind payload := by
  rw [encodeGenericFrame]
  split_ifs with h
  · simp only [Bool.or_eq_true, List.isEmpty_iff, decide_eq_true_eq] at h
    refine ⟨fun h' => (nomatch h'), fun ⟨hne, hle, _⟩ => ?_⟩
    rcases h with rfl | hlt
    · exact absurd rfl hne
    · exact absurd hle (Nat.not_le_of_lt hlt)
  · simp only [Bool.or_eq_true, List.isEmpty_iff, decide_eq_true_eq, not_or, Nat.not_lt] at h
    rw [Except.ok.injEq]
    exact ⟨fun h' => ⟨h.1, h.2, h'.symm⟩, fun h' => h'.2.2.symm⟩

theorem length_genericFrame (kind : GenericFrameKind) (payload : Bytes) :
    (genericFrame kind payload).length = payload.length + genericFrameHeaderBytes := by
  have hmagic : genericFrameMagic.length = 4 := rfl
  simp only [genericFrame, List.length_append, length_beBytes, List.length_singleton, hmagic,
    genericFrameHeaderBytes]
  omega

/-- A decoded payload is the header shorter than its frame. -/
theorem decodeGenericFrame_length (h : decodeGenericFrame encoded = .ok (kind, payload)) :
    payload.length + genericFrameHeaderBytes = encoded.length := by
  rw [decodeGenericFrame] at h
  split_ifs at h with hheader
  split at h
  · cases h
  · dsimp only at h
    split_ifs at h with hlength
    simp only [Except.ok.injEq, Prod.mk.injEq] at h
    simp only [not_or] at hlength
    rw [← h.2, List.length_drop]
    have := not_not.mp hlength.2.1
    omega

/-- **A frame is read back.** -/
theorem decodeGenericFrame_encode (h : encodeGenericFrame kind payload = .ok encoded) :
    decodeGenericFrame encoded = .ok (kind, payload) := by
  obtain ⟨hne, hle, rfl⟩ := encodeGenericFrame_ok.mp h
  have hlength := length_genericFrame kind payload
  have hlong : genericFrameHeaderBytes ≤ (genericFrame kind payload).length := by
    rw [hlength]
    exact Nat.le_add_left _ _
  -- the header is read back field by field: magic, version, kind, length
  have hmagic : (genericFrame kind payload).take 4 = genericFrameMagic := rfl
  have hversion : ofBeBytes (((genericFrame kind payload).drop 4).take 4) =
      networkProtocolVersion := by
    have htake : ((genericFrame kind payload).drop 4).take 4 =
        beBytes 4 networkProtocolVersion := List.take_left' (length_beBytes 4 _)
    rw [htake, ofBeBytes_beBytes (by decide)]
  have hkind : (genericFrame kind payload)[8]?.bind GenericFrameKind.tryFrom = some kind :=
    kind.tryFrom_code
  have hfits : payload.length < 256 ^ 4 := by
    rw [maxChannelFrameBytes] at hle
    omega
  have hread : ofBeBytes (((genericFrame kind payload).drop 9).take 4) = payload.length := by
    have htake : ((genericFrame kind payload).drop 9).take 4 = beBytes 4 payload.length :=
      List.take_left' (length_beBytes 4 _)
    rw [htake, ofBeBytes_beBytes hfits]
  have hrest : (genericFrame kind payload).drop genericFrameHeaderBytes = payload := by
    have hsplit : (genericFrame kind payload).drop genericFrameHeaderBytes =
        ((genericFrame kind payload).drop 9).drop 4 := List.drop_drop.symm
    rw [hsplit]
    exact List.drop_left' (length_beBytes 4 _)
  have hpos : payload.length ≠ 0 := fun h => hne (List.length_eq_zero_iff.mp h)
  rw [decodeGenericFrame, hmagic, hversion, hkind, hread, hrest, if_neg]
  · dsimp only
    rw [if_neg]
    simp only [not_or, not_not, Nat.not_lt]
    exact ⟨hpos, hlength.symm, hle⟩
  · simpa using hlong

theorem GenericFrameKind.code_of_tryFrom {value : UInt8} (h : tryFrom value = some kind) :
    value = kind.code := by
  unfold tryFrom at h
  split_ifs at h <;> cases h <;> assumption

/-- **The decoder accepts exactly the frames** that the encoder makes. -/
theorem decodeGenericFrame_iff :
    decodeGenericFrame encoded = .ok (kind, payload) ↔
      encodeGenericFrame kind payload = .ok encoded := by
  refine ⟨fun h => ?_, decodeGenericFrame_encode⟩
  rw [decodeGenericFrame] at h
  split_ifs at h with hheader
  split at h
  · cases h
  rename_i found hkind
  dsimp only at h
  split_ifs at h with hbounds
  obtain ⟨rfl, rfl⟩ := Prod.mk.inj (Except.ok.inj h)
  simp only [Bool.or_eq_true, decide_eq_true_eq, bne_iff_ne, not_or, not_not, Nat.not_lt]
    at hheader hbounds
  obtain ⟨⟨hlong, hmagic⟩, hversion⟩ := hheader
  obtain ⟨hpos, hlength, hmax⟩ := hbounds
  obtain ⟨value, hvalue, hfrom⟩ := Option.bind_eq_some_iff.mp hkind
  obtain rfl := GenericFrameKind.code_of_tryFrom hfrom
  obtain ⟨hlt, hget⟩ := List.getElem?_eq_some_iff.mp hvalue
  have hrest : encoded.drop 9 = beBytes 4 (ofBeBytes ((encoded.drop 9).take 4)) ++
      encoded.drop genericFrameHeaderBytes := (beBytes_of_ofBeBytes_drop hlong rfl).2
  have hpayload : (encoded.drop genericFrameHeaderBytes).length =
      ofBeBytes ((encoded.drop 9).take 4) := by
    rw [List.length_drop, ← hlength, Nat.add_sub_cancel]
  refine encodeGenericFrame_ok.mpr ⟨?_, hpayload ▸ hmax, ?_⟩
  · intro hnil
    rw [hnil] at hpayload
    exact hpos hpayload.symm
  -- the fields follow each other from the magic bytes on
  · have hfront := (beBytes_of_ofBeBytes_drop (i := 4) hlt.le hversion).2
    rw [genericFrame, hpayload, ← hrest, List.singleton_append, ← hget,
      ← List.drop_eq_getElem_cons hlt, ← hfront, ← hmagic, List.take_append_drop]

/-! ## Channel frames

The frames of a QUIC stream that carries one delivery message or acknowledgement. -/

def channelMagic : Bytes := utf8 "SMCH"

inductive ChannelFrameKind
  | dataMessage
  | deliveryAck
deriving DecidableEq

def ChannelFrameKind.code : ChannelFrameKind → UInt8
  | .dataMessage => 1
  | .deliveryAck => 2

inductive ChannelFrameError
  | payloadBounds
deriving DecidableEq

/-- The bytes that `write_channel_frame` puts on the stream. -/
def writeChannelFrame (kind : ChannelFrameKind) (payload : Bytes) :
    Except ChannelFrameError Bytes :=
  if payload.isEmpty || decide (maxChannelFrameBytes < payload.length) then .error .payloadBounds
  else
    .ok (channelMagic ++ (beBytes 4 networkProtocolVersion ++ ([kind.code] ++
      (beBytes 4 payload.length ++ payload))))

end SshMobile.Connection
