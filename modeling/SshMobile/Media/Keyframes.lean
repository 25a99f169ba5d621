import SshMobile.Library.Machine
import SshMobile.Library.Word

/-!
# Keyframe requests of a screen video

The receive side holds one pending keyframe request. A flush takes it out and sends it as a picture
loss indication, at most one in `minPliInterval` on one connection. Where it cannot be sent it is
put back through `requestKeyframe`, which counts it once more.

## Main definitions

* `VideoQueue`, `H264ScreenVideo`: the request with its counter, and what a flush reads
* `keyframeMachine`: the calls on the receive side, with the indications they send
* `CannotSend`: when a flush puts its request back
* `Accounted`: no request is lost or counted twice, and the indications are spaced

## Main results

* `accounted_iff`: which runs account for their requests
* `idle_flush_counted`: a flush before the first packet counts its request again
-/

namespace SshMobile.Media

open Library

inductive KeyframeRequestReason
  | disconnected
  | decoderReset
  | iceRestart
  | packetLoss

/-- The keyframe request of a queue. No call on it reads the queued frames. -/
structure VideoQueue where
  pendingKeyframeRequest : Option KeyframeRequestReason := none
  keyframeRequests : ℕ := 0

namespace VideoQueue

variable (queue : VideoQueue)

def requestKeyframe (reason : KeyframeRequestReason) : VideoQueue :=
  match queue.pendingKeyframeRequest with
  | some _ => queue
  | none => ⟨some reason, saturatingAdd u64Max queue.keyframeRequests 1⟩

def takeKeyframeRequest : Option KeyframeRequestReason × VideoQueue :=
  (queue.pendingKeyframeRequest, { queue with pendingKeyframeRequest := none })

def clear : VideoQueue := { queue with pendingKeyframeRequest := none }

def onDisconnect : VideoQueue := queue.requestKeyframe .disconnected

def onDecoderReset : VideoQueue :=
  { queue with pendingKeyframeRequest := none }.requestKeyframe .decoderReset

end VideoQueue

/-- One second, in nanoseconds. -/
def minPliInterval : ℕ := 1000000000

structure PictureLossIndication where
  senderSsrc : UInt32
  mediaSsrc : UInt32

/-- What the receive side keeps for its keyframe requests. -/
structure H264ScreenVideo where
  inbound : VideoQueue := {}
  inboundReceiverId : Option ℕ := none
  inboundMediaSsrc : Option UInt32 := none
  lastPliEmit : Option ℕ := none

/-- The calls on the receive side. The peer connection decides whether it still has the receiver
and whether it takes the RTCP packet. -/
inductive KeyframeOp
  | requestKeyframe (reason : KeyframeRequestReason)
  | onConnectionLost
  | onDecoderReset
  | clear
  | onTrackOpen (receiverId : ℕ)
  | onTrackClose
  | receiveRtp (ssrc : UInt32)
  | flush (now : ℕ) (hasReceiver written : Bool)

namespace H264ScreenVideo

variable (video : H264ScreenVideo)

/-- The flush, with the time and the indication it sends. -/
def flushKeyframeRequests (now : ℕ) (hasReceiver written : Bool) :
    H264ScreenVideo × Option (ℕ × PictureLossIndication) :=
  match video.inbound.takeKeyframeRequest with
  | (none, _) => (video, none)
  | (some reason, inbound) =>
    let putBack := ({ video with inbound := inbound.requestKeyframe reason }, none)
    match video.inboundMediaSsrc with
    | none => putBack
    | some mediaSsrc =>
      if video.lastPliEmit.any (fun last => now - last < minPliInterval) then putBack
      else if video.inboundReceiverId.isNone then putBack
      else if !hasReceiver then putBack
      else if written then
        ({ video with inbound, lastPliEmit := some now }, some (now, ⟨0, mediaSsrc⟩))
      else putBack

def step : KeyframeOp → H264ScreenVideo × Option (ℕ × PictureLossIndication)
  | .requestKeyframe reason =>
    ({ video with inbound := video.inbound.requestKeyframe reason }, none)
  | .onConnectionLost => ({ inbound := video.inbound.onDisconnect }, none)
  | .onDecoderReset => ({ video with inbound := video.inbound.onDecoderReset }, none)
  | .clear => ({ video with inbound := video.inbound.clear }, none)
  | .onTrackOpen id => ({ video with inboundReceiverId := some id, inboundMediaSsrc := none }, none)
  | .onTrackClose => ({ video with inboundReceiverId := none, inboundMediaSsrc := none }, none)
  | .receiveRtp ssrc =>
    ({ video with inboundMediaSsrc := video.inboundMediaSsrc.or (some ssrc) }, none)
  | .flush now hasReceiver written => video.flushKeyframeRequests now hasReceiver written

end H264ScreenVideo

def keyframeMachine : Machine H264ScreenVideo KeyframeOp (Option (ℕ × PictureLossIndication)) where
  start := {}
  step := H264ScreenVideo.step

/-! ## What the calls should do -/

section Calls

variable (video : H264ScreenVideo)

/-- A flush sends the pending request once or leaves it pending. -/
def KeepsRequest : KeyframeOp → Prop
  | .flush now hasReceiver written =>
    ∀ reason, video.inbound.pendingKeyframeRequest = some reason →
      let result := video.flushKeyframeRequests now hasReceiver written
      result.2.isSome ∧ result.1.inbound.pendingKeyframeRequest = none ∨
        result.2 = none ∧ result.1.inbound.pendingKeyframeRequest = some reason
  | _ => True

/-- The requests of a call that find none pending. -/
def newRequests : KeyframeOp → ℕ
  | .requestKeyframe _ | .onConnectionLost =>
    if video.inbound.pendingKeyframeRequest.isNone then 1 else 0
  | .onDecoderReset => 1
  | _ => 0

def CountsRequests (op : KeyframeOp) : Prop :=
  (video.step op).1.inbound.keyframeRequests =
    video.inbound.keyframeRequests + newRequests video op

instance (op : KeyframeOp) : Decidable (CountsRequests video op) :=
  inferInstanceAs (Decidable (_ = _))

/-- **A flush cannot send**: no packet of the stream has arrived, the interval since the last
indication is not over, the receiver is not known or gone, or the RTCP packet is not taken. -/
def CannotSend (now : ℕ) (hasReceiver written : Bool) : Prop :=
  video.inboundMediaSsrc = none ∨
    (∃ last, video.lastPliEmit = some last ∧ now - last < minPliInterval) ∨
    video.inboundReceiverId = none ∨ hasReceiver = false ∨ written = false

/-- A flush that cannot send the pending request, unless the counter is full. -/
def PutsBack : KeyframeOp → Prop
  | .flush now hasReceiver written =>
    video.inbound.pendingKeyframeRequest ≠ none ∧ video.inbound.keyframeRequests ≠ u64Max ∧
      CannotSend video now hasReceiver written
  | _ => False

/-- A new request when the counter is full. -/
def Saturates (op : KeyframeOp) : Prop :=
  newRequests video op ≠ 0 ∧ u64Max ≤ video.inbound.keyframeRequests

end Calls

/-- **Accounting of a run**: its flushes lose no request, two indications of one connection are
`minPliInterval` apart, and the counter counts the requests that find none pending. -/
structure Accounted (ops : List KeyframeOp) : Prop where
  kept : keyframeMachine.Along KeepsRequest ops
  spaced : ∀ before op between op' after t t' pli pli',
    ops = before ++ op :: (between ++ op' :: after) → .onConnectionLost ∉ between →
    (keyframeMachine.step (keyframeMachine.run before) op).2 = some (t, pli) →
    (keyframeMachine.step (keyframeMachine.run (before ++ op :: between)) op').2 = some (t', pli') →
    t + minPliInterval ≤ t'
  counted : keyframeMachine.Along CountsRequests ops

/-! ## What one call does -/

variable {video : H264ScreenVideo} {op : KeyframeOp} {reason : KeyframeRequestReason}

/-- **A flush with a pending request** puts it back and counts it if it cannot send; else it sends
the request, and the interval is over. -/
theorem flush_cases (now : ℕ) (hasReceiver written : Bool)
    (h : video.inbound.pendingKeyframeRequest = some reason) :
    CannotSend video now hasReceiver written ∧
      video.flushKeyframeRequests now hasReceiver written = ({ video with
        inbound := ⟨some reason, saturatingAdd u64Max video.inbound.keyframeRequests 1⟩ }, none) ∨
    ¬ CannotSend video now hasReceiver written ∧
      (∀ last, video.lastPliEmit = some last → last + minPliInterval ≤ now) ∧ ∃ pli,
      video.flushKeyframeRequests now hasReceiver written =
        ({ video with inbound := video.inbound.clear, lastPliEmit := some now },
          some (now, pli)) := by
  rw [H264ScreenVideo.flushKeyframeRequests, VideoQueue.takeKeyframeRequest, h]
  dsimp only
  -- the checks of the flush, in the order of its branches
  rcases hssrc : video.inboundMediaSsrc with _ | mediaSsrc
  · exact .inl ⟨.inl hssrc, rfl⟩
  dsimp only
  split_ifs with hinterval hid hreceiver hwritten
  · obtain ⟨last, hlast, hshort⟩ := (Option.any_eq_true _ _).mp hinterval
    exact .inl ⟨.inr (.inl ⟨last, hlast, of_decide_eq_true hshort⟩), rfl⟩
  · exact .inl ⟨.inr (.inr (.inl (Option.isNone_iff_eq_none.mp hid))), rfl⟩
  · exact .inl ⟨.inr (.inr (.inr (.inl (by simpa using hreceiver)))), rfl⟩
  · have hover : ∀ last, video.lastPliEmit = some last → ¬ now - last < minPliInterval := by
      intro last hlast hshort
      simp [hlast, hshort] at hinterval
    refine .inr ⟨?_, fun last hlast => ?_, ⟨0, mediaSsrc⟩, rfl⟩
    · rintro (hnone | ⟨last, hlast, hshort⟩ | hnone | hgone | hrefused)
      · cases hssrc.symm.trans hnone
      · exact hover last hlast hshort
      · exact hid (Option.isNone_iff_eq_none.mpr hnone)
      · simp [hgone] at hreceiver
      · exact Bool.false_ne_true (hrefused.symm.trans hwritten)
    · have hlong := hover last hlast
      have : 0 < minPliInterval := by decide
      omega
  · exact .inl ⟨.inr (.inr (.inr (.inr (by simpa using hwritten)))), rfl⟩

theorem flush_of_none (now : ℕ) (hasReceiver written : Bool)
    (h : video.inbound.pendingKeyframeRequest = none) :
    video.flushKeyframeRequests now hasReceiver written = (video, none) := by
  rw [H264ScreenVideo.flushKeyframeRequests, VideoQueue.takeKeyframeRequest, h]

theorem keepsRequest : KeepsRequest video op := by
  cases op with
  | flush now hasReceiver written =>
    intro reason hpending
    rcases flush_cases now hasReceiver written hpending with ⟨-, h⟩ | ⟨-, -, pli, h⟩
    · rw [h]
      exact .inr ⟨rfl, rfl⟩
    · rw [h]
      exact .inl ⟨rfl, rfl⟩
  | _ => trivial

/-- **One call**: while the connection lasts it keeps the time of the last indication, or it sends
one after the interval and notes the time. -/
theorem step_cases (hop : op ≠ .onConnectionLost) :
    (video.step op).2 = none ∧ (video.step op).1.lastPliEmit = video.lastPliEmit ∨
      ∃ t pli, (video.step op).2 = some (t, pli) ∧ (video.step op).1.lastPliEmit = some t ∧
        ∀ last, video.lastPliEmit = some last → last + minPliInterval ≤ t := by
  cases op with
  | onConnectionLost => exact absurd rfl hop
  | flush now hasReceiver written =>
    rw [H264ScreenVideo.step]
    cases hpending : video.inbound.pendingKeyframeRequest with
    | none =>
      rw [flush_of_none _ _ _ hpending]
      exact .inl ⟨rfl, rfl⟩
    | some reason =>
      rcases flush_cases now hasReceiver written hpending with
        ⟨-, hflush⟩ | ⟨-, hlast, pli, hflush⟩
      · rw [hflush]
        exact .inl ⟨rfl, rfl⟩
      · rw [hflush]
        exact .inr ⟨now, pli, rfl, rfl, hlast⟩
  | _ => exact .inl ⟨rfl, rfl⟩

theorem step_sent {t : ℕ} {pli : PictureLossIndication} (h : (video.step op).2 = some (t, pli)) :
    (video.step op).1.lastPliEmit = some t ∧
      ∀ last, video.lastPliEmit = some last → last + minPliInterval ≤ t := by
  have hop : op ≠ .onConnectionLost := by
    rintro rfl
    cases h
  rcases step_cases hop with ⟨hnone, -⟩ | ⟨t', pli', hsent, hrest⟩
  · cases hnone.symm.trans h
  · cases hsent.symm.trans h
    exact hrest

theorem requestKeyframe_counts (queue : VideoQueue) (reason : KeyframeRequestReason) :
    (queue.requestKeyframe reason).keyframeRequests = queue.keyframeRequests +
      (if queue.pendingKeyframeRequest.isNone then 1 else 0) ↔
    ¬ ((if queue.pendingKeyframeRequest.isNone then 1 else 0) ≠ 0 ∧
      u64Max ≤ queue.keyframeRequests) := by
  rw [VideoQueue.requestKeyframe]
  cases queue.pendingKeyframeRequest with
  | none =>
    simp only [saturatingAdd, Option.isNone_none, if_true]
    omega
  | some r => simp

theorem countsRequests_iff :
    CountsRequests video op ↔ ¬ PutsBack video op ∧ ¬ Saturates video op := by
  cases op with
  | flush now hasReceiver written =>
    rw [CountsRequests, PutsBack, H264ScreenVideo.step]
    cases hpending : video.inbound.pendingKeyframeRequest with
    | none => simp [flush_of_none _ _ _ hpending, newRequests, Saturates]
    | some reason =>
      rcases flush_cases now hasReceiver written hpending with
        ⟨hcannot, hflush⟩ | ⟨hcan, -, pli, hflush⟩
      · rw [hflush]
        simp only [newRequests, Saturates, saturatingAdd, hcannot]
        simp
        omega
      · simp [hflush, VideoQueue.clear, newRequests, Saturates, hcan]
  | requestKeyframe reason | onConnectionLost =>
    exact (requestKeyframe_counts ..).trans (and_iff_right not_false).symm
  | onDecoderReset =>
    exact (requestKeyframe_counts ⟨none, _⟩ _).trans (and_iff_right not_false).symm
  | _ => simp [CountsRequests, PutsBack, Saturates, newRequests, H264ScreenVideo.step,
      VideoQueue.clear]

/-! ## Runs -/

/-- **Two indications of one connection** are `minPliInterval` apart: the time of the last one does
not decrease until the connection is lost. -/
theorem keyframeMachine_spaced {before between : List KeyframeOp} {op op' : KeyframeOp} {t t' : ℕ}
    {pli pli' : PictureLossIndication} (hbetween : .onConnectionLost ∉ between)
    (h : (keyframeMachine.step (keyframeMachine.run before) op).2 = some (t, pli))
    (h' : (keyframeMachine.step (keyframeMachine.run (before ++ op :: between)) op').2 =
      some (t', pli')) : t + minPliInterval ≤ t' := by
  obtain ⟨last, hlast, hle⟩ : ∃ last,
      (keyframeMachine.run (before ++ op :: between)).lastPliEmit = some last ∧ t ≤ last := by
    rw [Machine.run_append, Machine.runFrom_cons]
    refine keyframeMachine.runFrom_invariant (P := fun _ x => x ≠ .onConnectionLost)
      (I := fun video => ∃ last, video.lastPliEmit = some last ∧ t ≤ last)
      ⟨t, (step_sent h).1, le_rfl⟩ ?_
      (keyframeMachine.alongFrom_of_forall _ fun x hx heq => hbetween (heq ▸ hx))
    rintro video x ⟨last, hlast, hle⟩ hx
    rcases step_cases hx with ⟨-, hsame⟩ | ⟨t', -, -, hnoted, hafter⟩
    · exact ⟨last, hsame.trans hlast, hle⟩
    · exact ⟨t', hnoted, hle.trans ((Nat.le_add_right ..).trans (hafter last hlast))⟩
  exact (Nat.add_le_add_right hle _).trans ((step_sent h').2 last hlast)

/-- **Keyframe requests are accounted for** exactly when no flush puts a request back and no new
request meets a full counter. No request is lost and the indications are spaced on every run. -/
theorem accounted_iff (ops : List KeyframeOp) :
    Accounted ops ↔ keyframeMachine.Along
      (fun video op => ¬ PutsBack video op ∧ ¬ Saturates video op) ops := by
  constructor
  · intro h
    exact keyframeMachine.along_mono (fun _ _ => countsRequests_iff.mp) h.counted
  · intro h
    refine ⟨keyframeMachine.along_mono (fun _ _ _ => keepsRequest) h, ?_,
      keyframeMachine.along_mono (fun _ _ => countsRequests_iff.mpr) h⟩
    rintro before op between op' after t t' pli pli' - hbetween hop hop'
    exact keyframeMachine_spaced hbetween hop hop'

/-- One request, and a flush before the first packet of the stream. -/
def idleFlush : List KeyframeOp := [.requestKeyframe .packetLoss, .flush 0 true true]

theorem idle_flush_counted :
    (keyframeMachine.run idleFlush).inbound.keyframeRequests = 2 ∧ ¬ Accounted idleFlush := by
  refine ⟨by decide, fun h => ?_⟩
  exact absurd h.counted (by decide)

end SshMobile.Media
