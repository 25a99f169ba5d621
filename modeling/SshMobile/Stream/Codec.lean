import SshMobile.Connection.Frame

/-!
# Stream frames

The wire form of byte-stream frames. Every frame starts with its stream's identity, the peer that
opened the stream and the stream's number, because bytes flow in both directions and both peers may
open a stream under the same number. Decoders read a payload from its front: what the source keeps
as a cursor is the rest of the payload. The decoders with the cursor, where a read can be outside
of the payload, return the same.

## Main definitions

* `encodeStreamOpenFrame`, `encodeStreamBytesFrame`, `encodeStreamCloseFrame`, and their decoders
* `decodeStreamFrameIdentity`: the identity of any stream frame
* `streamRelayToken`: the token of a stream on a relay
* `StreamFrame`: the three frames of a stream, with their fields
* `decodeStreamOpenFrameAt`, `decodeStreamBytesFrameAt`, `decodeStreamCloseFrameAt`

## Main results

* `StreamFrame.identity_encode`: the identity of an encoded frame is read back
* `streamFrames_exact`: decoders read inside the payload, and accept what was encoded
-/

namespace SshMobile.Stream

open Library Connection

def maxServiceBytes : ℕ := 128

inductive StreamError
  | notFound
  | alreadyOpen
  | closed
  | invalidFrame
  | invalidArgument
  | capacityExceeded
  | notConnected
  | unsupportedTransport
  | send (detail : String)
deriving DecidableEq

/-! ## The opener -/

def appendStreamOpener (openerPeerId : String) : Except StreamError Bytes :=
  if openerPeerId.isEmpty || decide (128 < openerPeerId.utf8ByteSize) then .error .invalidArgument
  else .ok (UInt8.ofNat openerPeerId.utf8ByteSize :: utf8 openerPeerId)

/-- The opener at the front of a payload, and the rest. -/
def decodeStreamOpener : Bytes → Except StreamError (String × Bytes)
  | [] => .error .invalidFrame
  | openerLen :: payload =>
    if openerLen.toNat = 0 ∨ 128 < openerLen.toNat ∨ payload.length < openerLen.toNat then
      .error .invalidFrame
    else
      match decodeUtf8 (payload.take openerLen.toNat) with
      | none => .error .invalidFrame
      | some opener => .ok (opener, payload.drop openerLen.toNat)

/-! ## Frames -/

def streamGenericBytesHeaderBytes : ℕ := 1 + 2 + 8 + 4

def streamGenericOpenHeaderBytes : ℕ := 1 + 2 + 2

def streamGenericCloseHeaderBytes : ℕ := 1 + 2

def encodeStreamBytesFrame (openerPeerId : String) (streamId : UInt16) (seq : UInt64)
    (data : Bytes) : Except StreamError Bytes :=
  if data.isEmpty then .error .invalidArgument
  else
    (appendStreamOpener openerPeerId).map fun out =>
      out ++ (beBytes 2 streamId.toNat ++ (beBytes 8 seq.toNat ++ (beBytes 4 data.length ++ data)))

def decodeStreamBytesFrame (payload : Bytes) :
    Except StreamError (String × UInt16 × UInt64 × Bytes) :=
  if payload.length < streamGenericBytesHeaderBytes then .error .invalidFrame
  else
    match decodeStreamOpener payload with
    | .error error => .error error
    | .ok (opener, rest) =>
      if rest.length < 2 + 8 + 4 then .error .invalidFrame
      else
        let streamId := UInt16.ofNat (ofBeBytes (rest.take 2))
        let seq := UInt64.ofNat (ofBeBytes ((rest.drop 2).take 8))
        let len := ofBeBytes ((rest.drop 10).take 4)
        let data := rest.drop 14
        if len = 0 ∨ len ≠ data.length then .error .invalidFrame
        else .ok (opener, streamId, seq, data)

def encodeStreamOpenFrame (openerPeerId : String) (streamId : UInt16) (service : String) :
    Except StreamError Bytes :=
  if service.isEmpty || decide (maxServiceBytes < service.utf8ByteSize) then .error .invalidArgument
  else
    (appendStreamOpener openerPeerId).map fun out =>
      out ++ (beBytes 2 streamId.toNat ++ (beBytes 2 service.utf8ByteSize ++ utf8 service))

def decodeStreamOpenFrame (payload : Bytes) : Except StreamError (String × UInt16 × String) :=
  if payload.length < streamGenericOpenHeaderBytes then .error .invalidFrame
  else
    match decodeStreamOpener payload with
    | .error error => .error error
    | .ok (opener, rest) =>
      if rest.length < 2 + 2 then .error .invalidFrame
      else
        let streamId := UInt16.ofNat (ofBeBytes (rest.take 2))
        let serviceLen := ofBeBytes ((rest.drop 2).take 2)
        let service := rest.drop 4
        if serviceLen = 0 ∨ maxServiceBytes < serviceLen ∨ serviceLen ≠ service.length then
          .error .invalidFrame
        else
          match decodeUtf8 service with
          | none => .error .invalidFrame
          | some service => .ok (opener, streamId, service)

def encodeStreamCloseFrame (openerPeerId : String) (streamId : UInt16) : Except StreamError Bytes :=
  (appendStreamOpener openerPeerId).map fun out => out ++ beBytes 2 streamId.toNat

def decodeStreamCloseFrame (payload : Bytes) : Except StreamError (String × UInt16) :=
  if payload.length < streamGenericCloseHeaderBytes then .error .invalidFrame
  else
    match decodeStreamOpener payload with
    | .error error => .error error
    | .ok (opener, rest) =>
      if rest.length ≠ 2 then .error .invalidFrame
      else .ok (opener, UInt16.ofNat (ofBeBytes rest))

/-- The identity of any stream frame. -/
def decodeStreamFrameIdentity (kind : GenericFrameKind) (payload : Bytes) :
    Except StreamError (String × UInt16) :=
  match kind with
  | .streamOpen => (decodeStreamOpenFrame payload).map fun frame => (frame.1, frame.2.1)
  | .streamBytes => (decodeStreamBytesFrame payload).map fun frame => (frame.1, frame.2.1)
  | .streamClose => decodeStreamCloseFrame payload
  | .dataMessage | .deliveryAck => .error .invalidFrame

/-- The token of a stream on a relay: its opener and its number. -/
def streamRelayToken (openerPeerId : String) (streamId : UInt16) : String :=
  "stream:" ++ openerPeerId ++ ":" ++ toString streamId.toNat

/-- **The frames of a stream** that `openerPeerId` opened as `streamId`, with their fields. -/
inductive StreamFrame
  | streamOpen (service : String)
  | streamBytes (seq : UInt64) (data : Bytes)
  | streamClose

namespace StreamFrame

def kind : StreamFrame → GenericFrameKind
  | streamOpen _ => .streamOpen
  | streamBytes _ _ => .streamBytes
  | streamClose => .streamClose

def encode (openerPeerId : String) (streamId : UInt16) : StreamFrame → Except StreamError Bytes
  | streamOpen service => encodeStreamOpenFrame openerPeerId streamId service
  | streamBytes seq data => encodeStreamBytesFrame openerPeerId streamId seq data
  | streamClose => encodeStreamCloseFrame openerPeerId streamId

end StreamFrame

/-! ## Round trips -/

theorem isEmpty_or_lt_eq_false {s : String} {bound : ℕ} :
    (s.isEmpty || decide (bound < s.utf8ByteSize)) = false ↔
      1 ≤ s.utf8ByteSize ∧ s.utf8ByteSize ≤ bound := by
  simp only [String.isEmpty, Bool.or_eq_false_iff, beq_eq_false_iff_ne, decide_eq_false_iff_not,
    Nat.not_lt, Nat.one_le_iff_ne_zero]

variable {openerPeerId : String} {out : Bytes} {streamId : UInt16} {payload : Bytes}

/-- **The opener** of 1 to 128 bytes, encoded. -/
theorem appendStreamOpener_ok :
    appendStreamOpener openerPeerId = .ok out ↔
      1 ≤ openerPeerId.utf8ByteSize ∧ openerPeerId.utf8ByteSize ≤ 128 ∧
        out = UInt8.ofNat openerPeerId.utf8ByteSize :: utf8 openerPeerId := by
  rw [appendStreamOpener]
  split_ifs with h
  · refine ⟨fun h' => (nomatch h'), fun h' => ?_⟩
    rw [isEmpty_or_lt_eq_false.mpr ⟨h'.1, h'.2.1⟩] at h
    exact absurd h Bool.false_ne_true
  · rw [Bool.not_eq_true, isEmpty_or_lt_eq_false] at h
    rw [Except.ok.injEq]
    exact ⟨fun h' => ⟨h.1, h.2, h'.symm⟩, fun h' => h'.2.2.symm⟩

theorem length_appendStreamOpener (h : appendStreamOpener openerPeerId = .ok out) :
    out.length = openerPeerId.utf8ByteSize + 1 ∧ 2 ≤ out.length := by
  obtain ⟨hpos, -, rfl⟩ := appendStreamOpener_ok.mp h
  rw [List.length_cons, length_utf8]
  omega

/-- **The opener read** is the one whose bytes are in front of the rest. -/
theorem decodeStreamOpener_ok {rest : Bytes} :
    decodeStreamOpener payload = .ok (openerPeerId, rest) ↔
      ∃ out, appendStreamOpener openerPeerId = .ok out ∧ payload = out ++ rest := by
  constructor
  · intro h
    cases payload with
    | nil => cases h
    | cons openerLen payload =>
      rw [decodeStreamOpener] at h
      split_ifs at h with hrange
      split at h
      · cases h
      next opener hdecode =>
      cases h
      have hutf8 := utf8_of_decodeUtf8 hdecode
      have hsize : openerPeerId.utf8ByteSize = openerLen.toNat := by
        rw [← length_utf8, hutf8, List.length_take]
        omega
      refine ⟨openerLen :: utf8 openerPeerId,
        appendStreamOpener_ok.mpr ⟨by omega, by omega, ?_⟩, ?_⟩
      · rw [hsize, UInt8.ofNat_toNat]
      · rw [hutf8, List.cons_append, List.take_append_drop]
  · rintro ⟨out, hout, rfl⟩
    obtain ⟨hpos, hle, rfl⟩ := appendStreamOpener_ok.mp hout
    have hlen : (UInt8.ofNat openerPeerId.utf8ByteSize).toNat = openerPeerId.utf8ByteSize := by
      rw [UInt8.toNat_ofNat']
      omega
    rw [List.cons_append, decodeStreamOpener, hlen, if_neg, List.take_left' (length_utf8 _),
      decodeUtf8_utf8, List.drop_left' (length_utf8 _)]
    rw [List.length_append, length_utf8]
    omega

theorem except_map_ok {ε α β : Type} {f : α → β} {e : Except ε α} {b : β}
    (h : e.map f = .ok b) : ∃ a, e = .ok a ∧ f a = b := by
  cases e with
  | error error => cases h
  | ok a => exact ⟨a, rfl, Except.ok.inj h⟩

/-- **Valid arguments** of a frame. -/
def StreamFrame.Valid (openerPeerId : String) (frame : StreamFrame) : Prop :=
  (1 ≤ openerPeerId.utf8ByteSize ∧ openerPeerId.utf8ByteSize ≤ 128) ∧
    match frame with
    | .streamOpen service => 1 ≤ service.utf8ByteSize ∧ service.utf8ByteSize ≤ maxServiceBytes
    | .streamBytes _ data => data ≠ [] ∧ data.length < 2 ^ 32
    | .streamClose => True

variable {α : Type} {header : ℕ} {rest : String → Bytes → Except StreamError α}

/-- **A frame is accepted** with `a` when its opener is in front of the fields that say `a`. -/
theorem header_ok {a : α} {valid : Prop} {fields : Bytes} (hheader : header ≤ 2 + fields.length)
    (hrest : ∀ opener bytes, rest opener bytes = .ok a ↔
      opener = openerPeerId ∧ valid ∧ bytes = fields) :
    (if payload.length < header then Except.error .invalidFrame
      else match decodeStreamOpener payload with
        | .error error => .error error
        | .ok (opener, bytes) => rest opener bytes) = .ok a ↔
      ((1 ≤ openerPeerId.utf8ByteSize ∧ openerPeerId.utf8ByteSize ≤ 128) ∧ valid) ∧
        ((appendStreamOpener openerPeerId).map fun out => out ++ fields) = .ok payload := by
  constructor
  · intro h
    split_ifs at h
    split at h
    · cases h
    next opener bytes hopener =>
    obtain ⟨rfl, hvalid, rfl⟩ := (hrest opener bytes).mp h
    obtain ⟨out, hout, rfl⟩ := decodeStreamOpener_ok.mp hopener
    obtain ⟨hpos, hle, -⟩ := appendStreamOpener_ok.mp hout
    rw [hout]
    exact ⟨⟨⟨hpos, hle⟩, hvalid⟩, rfl⟩
  · rintro ⟨⟨-, hvalid⟩, h⟩
    obtain ⟨out, hout, rfl⟩ := except_map_ok h
    have hlength := (length_appendStreamOpener hout).2
    rw [if_neg, decodeStreamOpener_ok.mpr ⟨out, hout, rfl⟩]
    · exact (hrest openerPeerId fields).mpr ⟨rfl, hvalid, rfl⟩
    · rw [List.length_append]
      omega

/-- The stream's number in front of the rest. -/
theorem streamId_iff {bytes rest : Bytes} :
    2 ≤ bytes.length ∧ UInt16.ofNat (ofBeBytes (bytes.take 2)) = streamId ∧ bytes.drop 2 = rest ↔
      bytes = beBytes 2 streamId.toNat ++ rest := by
  constructor
  · rintro ⟨hle, rfl, hrest⟩
    obtain ⟨hlt, hbytes⟩ := ofBeBytes_take_iff.mp ⟨hle, rfl, hrest⟩
    rwa [UInt16.toNat_ofNat_of_lt' hlt]
  · intro h
    obtain ⟨hle, hid, hrest⟩ := ofBeBytes_take_iff.mpr ⟨streamId.toNat_lt, h⟩
    exact ⟨hle, by rw [hid, UInt16.ofNat_toNat], hrest⟩

theorem decodeStreamCloseFrame_iff :
    decodeStreamCloseFrame payload = .ok (openerPeerId, streamId) ↔
      StreamFrame.streamClose.Valid openerPeerId ∧
        encodeStreamCloseFrame openerPeerId streamId = .ok payload := by
  have hheader : streamGenericCloseHeaderBytes ≤ 2 + (beBytes 2 streamId.toNat).length := by
    rw [length_beBytes]
    decide
  refine header_ok hheader fun opener bytes => ?_
  split_ifs with hlength
  · refine ⟨fun h => (nomatch h), fun ⟨_, _, h⟩ => hlength ?_⟩
    rw [h, length_beBytes]
  · rw [Except.ok.injEq, Prod.mk.injEq, true_and, ← List.append_nil (beBytes 2 streamId.toNat),
      ← streamId_iff, List.take_of_length_le (by omega), List.drop_of_length_le (by omega)]
    exact and_congr_right fun _ => ⟨fun h => ⟨by omega, h, rfl⟩, fun h => h.2.1⟩

theorem decodeStreamOpenFrame_iff {service : String} :
    decodeStreamOpenFrame payload = .ok (openerPeerId, streamId, service) ↔
      (StreamFrame.streamOpen service).Valid openerPeerId ∧
        encodeStreamOpenFrame openerPeerId streamId service = .ok payload := by
  have hheader : streamGenericOpenHeaderBytes ≤ 2 + (beBytes 2 streamId.toNat ++
      (beBytes 2 service.utf8ByteSize ++ utf8 service)).length := by
    simp only [streamGenericOpenHeaderBytes, List.length_append, length_beBytes]
    omega
  refine (header_ok hheader fun opener bytes => ⟨fun h => ?_, ?_⟩).trans
    (and_congr_right fun hvalid => ?_)
  · split_ifs at h with hlength
    dsimp only at h
    split_ifs at h with hlen
    split at h
    · cases h
    next service' hdecode =>
    cases h
    have hutf8 := utf8_of_decodeUtf8 hdecode
    have hsize : ofBeBytes ((bytes.drop 2).take 2) = service.utf8ByteSize := by
      rw [← length_utf8, hutf8]
      omega
    have hle : 2 ≤ (bytes.drop 2).length := by
      rw [List.length_drop]
      omega
    have hfields := (ofBeBytes_take_iff.mp ⟨hle, hsize, List.drop_drop.trans hutf8.symm⟩).2
    exact ⟨rfl, ⟨by omega, by omega⟩, streamId_iff.mp ⟨by omega, rfl, hfields⟩⟩
  · rintro ⟨rfl, ⟨hpos, hmax⟩, hbytes⟩
    have hfits : service.utf8ByteSize < 256 ^ 2 := hmax.trans_lt (by decide)
    obtain ⟨hle, hid, hrest⟩ := streamId_iff.mpr hbytes
    obtain ⟨hle', hsize, hservice⟩ := ofBeBytes_take_iff.mpr ⟨hfits, hrest⟩
    rw [List.length_drop] at hle'
    rw [List.drop_drop] at hservice
    rw [if_neg (by omega)]
    dsimp only
    rw [hid, hsize, hservice, length_utf8, if_neg (by omega), decodeUtf8_utf8]
  · rw [encodeStreamOpenFrame, isEmpty_or_lt_eq_false.mpr hvalid.2]
    rfl

theorem decodeStreamBytesFrame_iff {seq : UInt64} {data : Bytes} :
    decodeStreamBytesFrame payload = .ok (openerPeerId, streamId, seq, data) ↔
      (StreamFrame.streamBytes seq data).Valid openerPeerId ∧
        encodeStreamBytesFrame openerPeerId streamId seq data = .ok payload := by
  have hheader : streamGenericBytesHeaderBytes ≤ 2 + (beBytes 2 streamId.toNat ++
      (beBytes 8 seq.toNat ++ (beBytes 4 data.length ++ data))).length := by
    simp only [streamGenericBytesHeaderBytes, List.length_append, length_beBytes]
    omega
  refine (header_ok hheader fun opener bytes => ⟨fun h => ?_, ?_⟩).trans
    (and_congr_right fun hvalid => ?_)
  · split_ifs at h with hlength
    dsimp only at h
    split_ifs at h with hlen
    cases h
    have hsize : ofBeBytes ((bytes.drop 10).take 4) = (bytes.drop 14).length := by omega
    have hle : 8 ≤ (bytes.drop 2).length ∧ 4 ≤ (bytes.drop 10).length := by
      rw [List.length_drop, List.length_drop]
      omega
    obtain ⟨hlt, hdata⟩ := ofBeBytes_take_iff.mp ⟨hle.2, hsize, List.drop_drop⟩
    obtain ⟨hseq, hfields⟩ := ofBeBytes_take_iff.mp ⟨hle.1, rfl, List.drop_drop.trans hdata⟩
    have hpos : 0 < (bytes.drop 14).length := by omega
    refine ⟨rfl, ⟨List.length_pos_iff.mp hpos, hlt⟩, streamId_iff.mp ⟨by omega, rfl, ?_⟩⟩
    rwa [UInt64.toNat_ofNat_of_lt' hseq]
  · rintro ⟨rfl, ⟨hdata, hlt⟩, hbytes⟩
    have hpos := List.length_pos_iff.mpr hdata
    obtain ⟨hle, hid, hrest⟩ := streamId_iff.mpr hbytes
    obtain ⟨hle', hseq, hrest'⟩ := ofBeBytes_take_iff.mpr ⟨seq.toNat_lt, hrest⟩
    rw [List.drop_drop] at hrest'
    obtain ⟨hle'', hlen, hrest''⟩ := ofBeBytes_take_iff.mpr ⟨hlt, hrest'⟩
    rw [List.length_drop] at hle' hle''
    rw [List.drop_drop] at hrest''
    rw [if_neg (by omega)]
    rw [hid, hseq, UInt64.ofNat_toNat, hlen, hrest'', if_neg (by omega)]
  · rw [encodeStreamBytesFrame, List.isEmpty_eq_false_iff.mpr hvalid.2.1]
    rfl

/-- **Encoders refuse** invalid arguments, data of 2³² bytes apart. -/
theorem StreamFrame.valid_of_encode (frame : StreamFrame) (hlength : payload.length < 2 ^ 32)
    (h : frame.encode openerPeerId streamId = .ok payload) : frame.Valid openerPeerId := by
  have hopener {fields : Bytes}
      (h : ((appendStreamOpener openerPeerId).map fun out => out ++ fields) = .ok payload) :
      (1 ≤ openerPeerId.utf8ByteSize ∧ openerPeerId.utf8ByteSize ≤ 128) ∧
        fields.length ≤ payload.length := by
    obtain ⟨out, hout, rfl⟩ := except_map_ok h
    obtain ⟨hpos, hle, -⟩ := appendStreamOpener_ok.mp hout
    rw [List.length_append]
    exact ⟨⟨hpos, hle⟩, Nat.le_add_left _ _⟩
  cases frame with
  | streamOpen service =>
    rw [encode, encodeStreamOpenFrame] at h
    split_ifs at h with hservice
    rw [Bool.not_eq_true, isEmpty_or_lt_eq_false] at hservice
    exact ⟨(hopener h).1, hservice⟩
  | streamBytes seq data =>
    rw [encode, encodeStreamBytesFrame] at h
    split_ifs at h with hdata
    obtain ⟨hvalid, hle⟩ := hopener h
    simp only [List.length_append] at hle
    exact ⟨hvalid, fun h => hdata (List.isEmpty_iff.mpr h), by omega⟩
  | streamClose => exact ⟨(hopener h).1, trivial⟩

/-- **The identity of an encoded frame** is read back. -/
theorem StreamFrame.identity_encode {frame : StreamFrame} (hlength : payload.length < 2 ^ 32)
    (h : frame.encode openerPeerId streamId = .ok payload) :
    decodeStreamFrameIdentity frame.kind payload = .ok (openerPeerId, streamId) := by
  have hvalid := frame.valid_of_encode hlength h
  cases frame with
  | streamOpen service =>
    rw [kind, decodeStreamFrameIdentity, decodeStreamOpenFrame_iff.mpr ⟨hvalid, h⟩]
    rfl
  | streamBytes seq data =>
    rw [kind, decodeStreamFrameIdentity, decodeStreamBytesFrame_iff.mpr ⟨hvalid, h⟩]
    rfl
  | streamClose => exact decodeStreamCloseFrame_iff.mpr ⟨hvalid, h⟩

/-! ## Cursors -/

/-- What a decoder returns: nothing if it would index outside the payload. -/
abbrev Reading := ExceptT StreamError Option

/-- `payload[cursor..cursor + length]`. -/
def slice (payload : Bytes) (cursor length : ℕ) : Reading Bytes :=
  if cursor + length ≤ payload.length then pure ((payload.drop cursor).take length)
  else ExceptT.mk none

/-- The opener behind a cursor, and the cursor after it. -/
def decodeStreamOpenerAt (payload : Bytes) (cursor : ℕ) : Reading (String × ℕ) :=
  if payload.length < cursor + 1 then throw .invalidFrame
  else do
    let openerLen := ofBeBytes (← slice payload cursor 1)
    if openerLen = 0 ∨ 128 < openerLen ∨ payload.length < cursor + 1 + openerLen then
      throw .invalidFrame
    else
      match decodeUtf8 (← slice payload (cursor + 1) openerLen) with
      | none => throw .invalidFrame
      | some opener => return (opener, cursor + 1 + openerLen)

def decodeStreamBytesFrameAt (payload : Bytes) : Reading (String × UInt16 × UInt64 × Bytes) :=
  if payload.length < streamGenericBytesHeaderBytes then throw .invalidFrame
  else do
    let (opener, cursor) ← decodeStreamOpenerAt payload 0
    if payload.length < cursor + 2 + 8 + 4 then throw .invalidFrame
    else
      let streamId := UInt16.ofNat (ofBeBytes (← slice payload cursor 2))
      let seq := UInt64.ofNat (ofBeBytes (← slice payload (cursor + 2) 8))
      let len := ofBeBytes (← slice payload (cursor + 2 + 8) 4)
      if len = 0 ∨ cursor + 2 + 8 + 4 + len ≠ payload.length then throw .invalidFrame
      else return (opener, streamId, seq, ← slice payload (cursor + 2 + 8 + 4) len)

def decodeStreamOpenFrameAt (payload : Bytes) : Reading (String × UInt16 × String) :=
  if payload.length < streamGenericOpenHeaderBytes then throw .invalidFrame
  else do
    let (opener, cursor) ← decodeStreamOpenerAt payload 0
    if payload.length < cursor + 2 + 2 then throw .invalidFrame
    else
      let streamId := UInt16.ofNat (ofBeBytes (← slice payload cursor 2))
      let serviceLen := ofBeBytes (← slice payload (cursor + 2) 2)
      if serviceLen = 0 ∨ maxServiceBytes < serviceLen ∨
          cursor + 2 + 2 + serviceLen ≠ payload.length then throw .invalidFrame
      else
        match decodeUtf8 (← slice payload (cursor + 2 + 2) serviceLen) with
        | none => throw .invalidFrame
        | some service => return (opener, streamId, service)

def decodeStreamCloseFrameAt (payload : Bytes) : Reading (String × UInt16) :=
  if payload.length < streamGenericCloseHeaderBytes then throw .invalidFrame
  else do
    let (opener, cursor) ← decodeStreamOpenerAt payload 0
    if payload.length ≠ cursor + 2 then throw .invalidFrame
    else return (opener, UInt16.ofNat (ofBeBytes (← slice payload cursor 2)))

variable {cursor length : ℕ}

theorem slice_of_le (h : cursor + length ≤ payload.length) :
    slice payload cursor length = pure ((payload.drop cursor).take length) :=
  if_pos h

theorem slice_to_end (h : cursor + length = payload.length) :
    slice payload cursor length = pure (payload.drop cursor) := by
  rw [slice_of_le h.le, List.take_of_length_le]
  rw [List.length_drop]
  omega

/-- The opener and a cursor, for the opener and the rest of the payload. -/
theorem decodeStreamOpenerAt_zero (payload : Bytes) :
    (decodeStreamOpener payload = .error .invalidFrame ∧
      decodeStreamOpenerAt payload 0 = throw .invalidFrame) ∨
      ∃ opener cursor, cursor ≤ payload.length ∧
        decodeStreamOpener payload = .ok (opener, payload.drop cursor) ∧
        decodeStreamOpenerAt payload 0 = pure (opener, cursor) := by
  cases payload with
  | nil => exact .inl ⟨rfl, rfl⟩
  | cons openerLen payload =>
    have hlen : ofBeBytes (((openerLen :: payload).drop 0).take 1) = openerLen.toNat := by
      simp only [List.drop_zero, List.take_succ_cons, List.take_zero, ofBeBytes, List.length_nil,
        Nat.pow_zero, Nat.mul_one, Nat.add_zero]
    have hlength : (openerLen :: payload).length = payload.length + 1 := rfl
    rw [decodeStreamOpenerAt, if_neg (by omega), slice_of_le (by omega), decodeStreamOpener]
    simp only [pure_bind, hlen, Nat.zero_add]
    by_cases hrange : openerLen.toNat = 0 ∨ 128 < openerLen.toNat ∨
      payload.length < openerLen.toNat
    · rw [if_pos hrange, if_pos (by omega)]
      exact .inl ⟨rfl, rfl⟩
    rw [if_neg hrange, if_neg (by omega), slice_of_le (by omega)]
    simp only [List.drop_one, List.tail_cons, pure_bind]
    cases decodeUtf8 (payload.take openerLen.toNat) with
    | none => exact .inl ⟨rfl, rfl⟩
    | some opener =>
      refine .inr ⟨opener, 1 + openerLen.toNat, by omega, ?_, rfl⟩
      rw [Nat.add_comm, List.drop_succ_cons]

/-- **Behind the opener** the cursor and the rest of the payload are at the same place. -/
theorem header_eq {at' : String × ℕ → Reading α}
    (h : ∀ opener cursor, cursor ≤ payload.length →
      at' (opener, cursor) = ExceptT.mk (some (rest opener (payload.drop cursor)))) :
    (if payload.length < header then throw .invalidFrame
      else decodeStreamOpenerAt payload 0 >>= at') =
      ExceptT.mk (some (if payload.length < header then .error .invalidFrame
        else match decodeStreamOpener payload with
          | .error error => .error error
          | .ok (opener, bytes) => rest opener bytes)) := by
  split_ifs
  · rfl
  rcases decodeStreamOpenerAt_zero payload with ⟨hopener, hat⟩ | ⟨opener, cursor, hle, hopener, hat⟩
  · rw [hopener, hat]
    rfl
  · rw [hopener, hat, pure_bind, h opener cursor hle]

theorem decodeStreamCloseFrameAt_eq (payload : Bytes) :
    decodeStreamCloseFrameAt payload = ExceptT.mk (some (decodeStreamCloseFrame payload)) := by
  refine header_eq fun opener cursor hle => ?_
  simp only [List.length_drop]
  split_ifs with hend
  · rfl
  · omega
  · omega
  · rw [slice_to_end (by omega)]
    rfl

theorem decodeStreamOpenFrameAt_eq (payload : Bytes) :
    decodeStreamOpenFrameAt payload = ExceptT.mk (some (decodeStreamOpenFrame payload)) := by
  refine header_eq fun opener cursor hle => ?_
  simp only [List.length_drop, List.drop_drop]
  by_cases hheader : payload.length < cursor + 2 + 2
  · rw [if_pos hheader, if_pos (by omega)]
    rfl
  rw [if_neg hheader, if_neg (by omega), slice_of_le (by omega), slice_of_le (by omega)]
  simp only [pure_bind]
  split_ifs with hlen hlen'
  · rfl
  · omega
  · omega
  rw [slice_to_end (by omega)]
  simp only [pure_bind, Nat.add_assoc, Nat.reduceAdd]
  cases decodeUtf8 (payload.drop (cursor + 4)) with
  | none => rfl
  | some service => rfl

theorem decodeStreamBytesFrameAt_eq (payload : Bytes) :
    decodeStreamBytesFrameAt payload = ExceptT.mk (some (decodeStreamBytesFrame payload)) := by
  refine header_eq fun opener cursor hle => ?_
  simp only [List.length_drop, List.drop_drop]
  by_cases hheader : payload.length < cursor + 2 + 8 + 4
  · rw [if_pos hheader, if_pos (by omega)]
    rfl
  rw [if_neg hheader, if_neg (by omega), slice_of_le (by omega), slice_of_le (by omega),
    slice_of_le (by omega)]
  simp only [pure_bind, Nat.add_assoc, Nat.reduceAdd]
  split_ifs with hlen hlen'
  · rfl
  · omega
  · omega
  rw [slice_to_end (by omega)]
  rfl

/-- **Stream frames are read exactly.** For each kind, the decoder never indexes outside its
payload, it accepts exactly the encodings of valid arguments, with those arguments, and the identity
of the frame is the one it returns. -/
theorem streamFrames_exact (payload : Bytes) :
    (decodeStreamOpenFrameAt payload = ExceptT.mk (some (decodeStreamOpenFrame payload)) ∧
      (∀ openerPeerId streamId service,
        decodeStreamOpenFrame payload = .ok (openerPeerId, streamId, service) ↔
          (StreamFrame.streamOpen service).Valid openerPeerId ∧
            encodeStreamOpenFrame openerPeerId streamId service = .ok payload) ∧
      decodeStreamFrameIdentity .streamOpen payload =
        (decodeStreamOpenFrame payload).map fun frame => (frame.1, frame.2.1)) ∧
    (decodeStreamBytesFrameAt payload = ExceptT.mk (some (decodeStreamBytesFrame payload)) ∧
      (∀ openerPeerId streamId seq data,
        decodeStreamBytesFrame payload = .ok (openerPeerId, streamId, seq, data) ↔
          (StreamFrame.streamBytes seq data).Valid openerPeerId ∧
            encodeStreamBytesFrame openerPeerId streamId seq data = .ok payload) ∧
      decodeStreamFrameIdentity .streamBytes payload =
        (decodeStreamBytesFrame payload).map fun frame => (frame.1, frame.2.1)) ∧
    decodeStreamCloseFrameAt payload = ExceptT.mk (some (decodeStreamCloseFrame payload)) ∧
      (∀ openerPeerId streamId, decodeStreamCloseFrame payload = .ok (openerPeerId, streamId) ↔
        StreamFrame.streamClose.Valid openerPeerId ∧
          encodeStreamCloseFrame openerPeerId streamId = .ok payload) ∧
      decodeStreamFrameIdentity .streamClose payload = decodeStreamCloseFrame payload :=
  ⟨⟨decodeStreamOpenFrameAt_eq payload, fun _ _ _ => decodeStreamOpenFrame_iff, rfl⟩,
    ⟨decodeStreamBytesFrameAt_eq payload, fun _ _ _ _ => decodeStreamBytesFrame_iff, rfl⟩,
    decodeStreamCloseFrameAt_eq payload, fun _ _ => decodeStreamCloseFrame_iff, rfl⟩

end SshMobile.Stream
