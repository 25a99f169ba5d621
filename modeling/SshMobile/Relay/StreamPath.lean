import SshMobile.Connect.Route
import SshMobile.Stream.Codec

/-!
# Byte streams over a relay

`send_route_view` hands a business frame to the carrier of a path. A generic route wraps the frame
in a generic frame, which names its kind. A relay path puts the bare frame in a token envelope; the
receiving device, however, takes the body of a stream envelope for a generic frame. What one side
sends and what the other side reads differ by the header of a generic frame, so no stream frame
arrives as it was sent.

## Main definitions

* `receiveRelayStreamFrame`, `receiveStreamEnvelope`: how a stream envelope is received; the result
  is the kind and the payload that `handle_inbound_stream_frame` is called with
* `ArrivesUnchanged`: a stream frame sent over a relay is dispatched as it was sent

## Main results

* `relay_stream_frame_never_arrives`: no stream frame is
* `receiveStreamEnvelope_generic`: the generic frame of a stream frame would be
-/

namespace SshMobile.Relay

open Library Connection Connect SshMobile.Stream

/-! ## Receiving -/

inductive ReceiveError
  | relay (error : RelayError)
  | unregisteredPeer
  | frame (error : ConnectionError)
  | notStreamFrame
  | stream (error : StreamError)
  | tokenMismatch
deriving DecidableEq

def receiveRelayStreamFrame (peers : Finset String) (peerId sessionToken : String)
    (payload : Bytes) : Except ReceiveError (GenericFrameKind × Bytes) :=
  if peerId ∉ peers then .error .unregisteredPeer
  else
    match decodeGenericFrame payload with
    | .error error => .error (.frame error)
    | .ok (kind, payload) =>
      if !kind.isStream then .error .notStreamFrame
      else
        match decodeStreamFrameIdentity kind payload with
        | .error error => .error (.stream error)
        | .ok (openerPeerId, streamId) =>
          if sessionToken ≠ streamRelayToken openerPeerId streamId then .error .tokenMismatch
          else .ok (kind, payload)

/-- The body of an envelope of the kind `dataEnvStream`, as the data plane's dispatch takes it. -/
def receiveStreamEnvelope (peers : Finset String) (peerId : String) (body : Bytes) :
    Except ReceiveError (GenericFrameKind × Bytes) :=
  match decodeTokenEnvelope body with
  | .error error => .error (.relay error)
  | .ok (token, payload) => receiveRelayStreamFrame peers peerId token payload

/-! ## What arrives -/

theorem isStream_kind (frame : StreamFrame) : frame.kind.isStream = true := by
  cases frame <;> rfl

variable {token : String} {frame : StreamFrame} {payload : Bytes} {openerPeerId : String}
  {streamId : UInt16} {peers : Finset String} {peerId : String}

/-- **A relay path** puts a stream frame in a stream envelope, as it is. -/
theorem sendRouteView_relay_stream :
    sendRouteView relayView token frame.kind payload =
      ((sendDataEnvelopeWithToken dataEnvStream token payload).map RouteFrame.relay).mapError
        .relay := by
  cases frame <;> rfl

theorem sendRouteView_relay_ok {envelope : Bytes} :
    sendRouteView relayView token frame.kind payload = .ok (.relay envelope) ↔
      sendDataEnvelopeWithToken dataEnvStream token payload = .ok envelope := by
  rw [sendRouteView_relay_stream]
  cases sendDataEnvelopeWithToken dataEnvStream token payload with
  | error error | ok bytes => simp [Except.map, Except.mapError]

/-- A stream frame is not empty. -/
theorem encode_ne_nil (h : frame.encode openerPeerId streamId = .ok payload) : payload ≠ [] := by
  rintro rfl
  have hidentity := frame.identity_encode (by decide) h
  cases frame <;> cases hidentity

/-- **What is dispatched** is the header of a generic frame shorter than what was sent. -/
theorem receiveStreamEnvelope_length {kind : GenericFrameKind} {sent received : Bytes}
    (htoken : token.utf8ByteSize ≤ 255) (hsent : sent ≠ [])
    (h : receiveStreamEnvelope peers peerId (tokenEnvelope token sent) = .ok (kind, received)) :
    received.length + genericFrameHeaderBytes = sent.length := by
  have hne : utf8 token ++ sent ≠ [] := fun h' => hsent (List.append_eq_nil_iff.mp h').2
  rw [receiveStreamEnvelope, decodeTokenEnvelope_tokenEnvelope htoken hne] at h
  dsimp only at h
  rw [receiveRelayStreamFrame] at h
  split_ifs at h with hpeer
  split at h
  · cases h
  · rename_i kind' payload hdecode
    split_ifs at h with hstream
    split at h
    · cases h
    · split_ifs at h with htoken'
      cases h
      exact decodeGenericFrame_length hdecode

/-- **The generic frame of a stream frame** in the same envelope is dispatched as it was sent. -/
theorem receiveStreamEnvelope_generic {encoded body : Bytes} (hpeer : peerId ∈ peers)
    (hencode : frame.encode openerPeerId streamId = .ok payload)
    (hgeneric : encodeGenericFrame frame.kind payload = .ok encoded)
    (hsend : sendDataEnvelopeWithToken dataEnvStream (streamRelayToken openerPeerId streamId)
      encoded = .ok (dataEnvStream :: body)) :
    receiveStreamEnvelope peers peerId body = .ok (frame.kind, payload) := by
  obtain ⟨htoken, -, henvelope⟩ := sendDataEnvelopeWithToken_ok.mp hsend
  obtain rfl : body = tokenEnvelope (streamRelayToken openerPeerId streamId) encoded :=
    (List.cons.inj henvelope).2
  obtain ⟨-, hle, rfl⟩ := encodeGenericFrame_ok.mp hgeneric
  have hne : utf8 (streamRelayToken openerPeerId streamId) ++ genericFrame frame.kind payload ≠
      [] := fun h => List.cons_ne_nil _ _ (List.append_eq_nil_iff.mp h).2
  have hfits : payload.length < 2 ^ 32 := by
    rw [maxChannelFrameBytes] at hle
    omega
  rw [receiveStreamEnvelope, decodeTokenEnvelope_tokenEnvelope htoken hne]
  dsimp only
  rw [receiveRelayStreamFrame, if_neg (not_not.mpr hpeer), decodeGenericFrame_encode hgeneric]
  dsimp only
  rw [isStream_kind, if_neg (by decide), frame.identity_encode hfits hencode]
  dsimp only
  rw [if_neg (not_not.mpr rfl)]

/-- **A stream frame arrives**: the envelope that a relay path carries for it is dispatched with
its kind and its payload. -/
def ArrivesUnchanged (peers : Finset String) (peerId openerPeerId : String) (streamId : UInt16)
    (frame : StreamFrame) : Prop :=
  ∃ payload body, frame.encode openerPeerId streamId = .ok payload ∧
    sendRouteView relayView (streamRelayToken openerPeerId streamId) frame.kind payload =
      .ok (.relay (dataEnvStream :: body)) ∧
    receiveStreamEnvelope peers peerId body = .ok (frame.kind, payload)

/-- **No stream frame arrives over a relay**, whatever its stream and its fields. -/
theorem relay_stream_frame_never_arrives (peers : Finset String) (peerId openerPeerId : String)
    (streamId : UInt16) (frame : StreamFrame) :
    ¬ ArrivesUnchanged peers peerId openerPeerId streamId frame := by
  rintro ⟨payload, body, hencode, hsend, hreceive⟩
  obtain ⟨htoken, -, henvelope⟩ :=
    sendDataEnvelopeWithToken_ok.mp (sendRouteView_relay_ok.mp hsend)
  obtain rfl : body = tokenEnvelope (streamRelayToken openerPeerId streamId) payload :=
    (List.cons.inj henvelope).2
  have hlength := receiveStreamEnvelope_length htoken (encode_ne_nil hencode) hreceive
  rw [genericFrameHeaderBytes] at hlength
  omega

/-- The opening frame of an SSH stream is sent, and refused as an invalid generic frame. -/
theorem relay_stream_open_refused :
    encodeStreamOpenFrame "peer-a" 1 "ssh" =
        .ok (6 :: (utf8 "peer-a" ++ [0, 1, 0, 3] ++ utf8 "ssh")) ∧
      sendRouteView relayView (streamRelayToken "peer-a" 1) .streamOpen
          (6 :: (utf8 "peer-a" ++ [0, 1, 0, 3] ++ utf8 "ssh")) =
        .ok (.relay (dataEnvStream :: tokenEnvelope "stream:peer-a:1"
          (6 :: (utf8 "peer-a" ++ [0, 1, 0, 3] ++ utf8 "ssh")))) ∧
      receiveStreamEnvelope {"peer-a"} "peer-a" (tokenEnvelope "stream:peer-a:1"
          (6 :: (utf8 "peer-a" ++ [0, 1, 0, 3] ++ utf8 "ssh"))) =
        .error (.frame .invalidFrame) := by
  decide

end SshMobile.Relay
