import SshMobile.Connection.Frame
import SshMobile.Relay.Envelope

/-!
# Routes and their carriers

`send_route_view` hands a business frame to the carrier of a path: a QUIC connection, a generic
route or a relay client. Each carrier has its own framing and its own limit.

## Main definitions

* `RouteView`, `RouteFrame`: the carrier of a path, and what it puts on the wire
* `sendRouteView`: what the carrier is handed for a frame
-/

namespace SshMobile.Connect

open Library Connection Relay

/-- The carrier of a path; a relay path may have lost its client. -/
inductive RouteViewCarrier
  | quic
  | generic
  | relay (connected : Bool)
deriving DecidableEq

structure RouteView where
  profile : Route
  carrier : RouteViewCarrier

/-- The view of a relay path with a connected client. -/
def relayView : RouteView := ⟨⟨.relay, .webSocket⟩, .relay true⟩

/-- What a carrier puts on the wire. -/
inductive RouteFrame
  | quic (bytes : Bytes)
  | generic (bytes : Bytes)
  | relay (envelope : Bytes)
deriving DecidableEq

inductive RouteError
  | lacksCapability
  | streamNeedsBidi
  | channel (error : ChannelFrameError)
  | generic (error : ConnectionError)
  | relay (error : RelayError)
  | relayUnavailable
deriving DecidableEq

def sendRouteView (view : RouteView) (relayToken : String) (kind : GenericFrameKind)
    (payload : Bytes) : Except RouteError RouteFrame :=
  if kind.isStream && !view.profile.supports .reliableStream ||
      !kind.isStream && !view.profile.supports .reliableMessage then .error .lacksCapability
  else
    match view.carrier with
    | .quic =>
      match kind with
      | .dataMessage =>
        ((writeChannelFrame .dataMessage payload).map RouteFrame.quic).mapError .channel
      | .deliveryAck =>
        ((writeChannelFrame .deliveryAck payload).map RouteFrame.quic).mapError .channel
      | .streamBytes | .streamOpen | .streamClose => .error .streamNeedsBidi
    | .generic => ((encodeGenericFrame kind payload).map RouteFrame.generic).mapError .generic
    | .relay true =>
      let envelopeKind :=
        match kind with
        | .dataMessage => dataEnvChannel
        | .deliveryAck => dataEnvChannelAck
        | .streamBytes | .streamOpen | .streamClose => dataEnvStream
      -- The relay's envelope names no frame kind: the payload is the bare frame.
      ((sendDataEnvelopeWithToken envelopeKind relayToken payload).map RouteFrame.relay).mapError
        .relay
    | .relay false => .error .relayUnavailable

end SshMobile.Connect
