import SshMobile.Channel.Progress
import SshMobile.Delivery.Sequence

/-!
# Ordered delivery from end to end

A sender accepts messages on one channel, under any policies, and numbers them with one counter. Its
frames reach the receiver in any order, any number of times; handlers admit them, and the
application acknowledges what is published to it. At rest, when every ordered frame has arrived, no
handler is left and every published ordered message is completed, every ordered message has been
published exactly once and the reorder buffer is empty, if and only if no ordered message was
accepted after one of another policy. The receiver advances its expected sequence for ordered
messages only, so a sequence that went to another policy is never released, and every later ordered
message waits for it.

## Main definitions

* `EndToEnd`: the invariant of the runs
* `AtRest`, `DeliveryComplete`: a run that has come to rest, and what it should have delivered
* `dataFrame`: the message as it reaches the receiver
* `OrderedFirst`: no ordered message comes after one of another policy

## Main results

* `end_to_end_ordered_delivery`: delivery at rest is complete exactly when ordered messages come
  first
* `mixed_policies_stall`: an ordered message after another one is never published
-/

namespace SshMobile.Channel

open Library Delivery

/-! ## Runs -/

/-- The messages that have arrived in a run. -/
def arrivals (log : List (InboundInput × InboundOutput)) : List OrderedMessage :=
  log.filterMap fun
    | (.arrive message _ _, _) => some message
    | _ => none

/-- The events of the channel in a run. -/
def channelLog (scope : Scope) (log : List (InboundInput × InboundOutput)) : List ReceiveEvent :=
  scopeLog scope (log.flatMap inboundLog)

/-- **The invariant of the runs.** -/
structure EndToEnd (config : DeliveryConfig) (scope : Scope) (frames : List OrderedMessage)
    (seqOf : DedupKey → ℕ) (s : Inbound) (log : List (InboundInput × InboundOutput)) : Prop where
  consistent : InboundConsistent config seqOf s
  release : ReleaseState config scope s.store.receive (channelLog scope log)
  progress : Progress scope (orderedFrames frames) s.store.receive s.tasks (arrivals log)
    (channelLog scope log)

variable {config : DeliveryConfig} {scope : Scope} {frames : List OrderedMessage}
  {seqOf : DedupKey → ℕ} {inputs : List InboundInput}

section Runs

variable {s : Inbound} {log : List (InboundInput × InboundOutput)} {x : InboundInput}

section

variable (h : EndToEnd config scope frames seqOf s log)

include h

theorem EndToEnd.tracked : (s.store.receive.view scope).Tracked (s.store.receive.records scope) :=
  (h.consistent.consistent.agrees scope).tracked

/-- A message that a handler takes back is not on its channel. -/
theorem EndToEnd.detached (hframes : Frames scope frames) (x : InboundInput) :
    DetachedReject s x := by
  cases x with
  | resume index now =>
    intro task htask
    cases task with
    | rejecting m result =>
      have hheld : m ∈ held s.tasks :=
        List.mem_filterMap.mpr ⟨_, List.mem_of_getElem? htask, rfl⟩
      have hscope : m.key.scope = scope :=
        (frames_ordered hframes).scope_eq (h.progress.admission.frame hheld)
      refine (detached_iff _ _).mpr ⟨?_, ?_⟩
      · rw [Receive.inFlight_iff, hscope]
        exact h.progress.admission.not_inFlight hheld
      · rw [Receive.waiting_iff, hscope]
        exact h.progress.admission.not_holds hheld
    | accepting | acking => trivial
  | arrive | acknowledge | abandon | expire | close => trivial

/-- The insertions of the handlers meet the guard of the release order. -/
theorem EndToEnd.releaseGuard (hframes : Frames scope frames) (hx : FromSender frames x)
    {op : ReceiveOp} (hop : inboundOp s x = some op) : Guarded (ReleaseGuard scope) s.store op := by
  -- a message reaches the channel through a handler that holds it, so it is a frame of the sender
  have hinsert : ∀ {message now}, inboundOp s x = some (.accept message now) →
      ReleaseGuard scope s.store.receive (.ready message) := by
    intro message now haccept _
    obtain ⟨index, htask⟩ := inboundOp_accept haccept
    have hheld : message ∈ held s.tasks :=
      List.mem_filterMap.mpr ⟨_, List.mem_of_getElem? htask, rfl⟩
    have hmem := h.progress.admission.frame hheld
    refine ⟨(frames_ordered hframes).sequence_lt hmem, fun hflight => ?_⟩
    exact absurd hflight (h.progress.admission.not_inFlight hheld)
  intro a ha
  cases a with
  | internal | enroll | fail => exact Or.inl trivial
  | reject | finish | stall => exact Or.inr trivial
  | ready message | buffer message =>
    obtain ⟨now, rfl⟩ := ha
    exact Or.inr (hinsert hop)
  | close peerId =>
    -- only a close of the peer closes, and the runs have none
    cases ha
    cases x with
    | close | abandon | expire => cases hx
    | resume index now | arrive | acknowledge =>
      grind [inboundOp]

/-- The releases after one section, on a channel that stays open. -/
theorem EndToEnd.release_step (hframes : Frames scope frames) (hx : FromSender frames x)
    (hopen : scope ∉ (inboundStep config s x).1.store.receive.failed) :
    ReleaseState config scope (inboundStep config s x).1.store.receive
      (channelLog scope (log ++ [(x, (inboundStep config s x).2)])) := by
  rw [inboundStep_store] at hopen ⊢
  rw [channelLog, List.flatMap_append, List.flatMap_singleton, scopeLog_append,
    scopeLog_inboundStep]
  cases hop : inboundOp s x with
  | none =>
    simp only [List.append_nil]
    exact h.release
  | some op =>
    rw [hop] at hopen
    rw [← scopeLog_append]
    exact ((releaseInvariant config scope).receiveStep (log.flatMap inboundLog)
      ⟨h.consistent.wellFormed, fun _ => h.release⟩ (h.releaseGuard hframes hx hop)).2 hopen

end

theorem channelLog_snoc (entry : InboundInput × InboundOutput) :
    channelLog scope (log ++ [entry]) =
      scopeLog scope (log.flatMap inboundLog ++ inboundLog entry) := by
  grind [channelLog]

/-- The events of a handler are releases of ordered frames. -/
theorem scopeLog_resume (hframes : Frames scope frames) {index now : ℕ} {output : InboundOutput}
    (h : ∀ m, .released m ∈ inboundLog (.resume index now, output) → m ∈ frames) :
    scopeLog scope (inboundLog (.resume index now, output)) =
      inboundLog (.resume index now, output) := by
  refine scopeLog_of_eq fun event hevent => ?_
  cases event with
  | released m => exact congrArg some (hframes.scope_eq (h m hevent))
  | admitted | completed =>
    cases output with
    | emitted m => cases List.mem_singleton.mp hevent
    | _ => cases hevent

section

variable (h : EndToEnd config scope frames seqOf s log) (hframes : Frames scope frames)

include h hframes

/-- The progress after one section. -/
theorem EndToEnd.progress_step (hx : FromSender frames x) (hundisturbed : Undisturbed s x)
    (hlimit : LimitFailure (inboundStep config s x).2 = false) :
    Progress scope (orderedFrames frames) (inboundStep config s x).1.store.receive
      (inboundStep config s x).1.tasks (arrivals (log ++ [(x, (inboundStep config s x).2)]))
      (channelLog scope (log ++ [(x, (inboundStep config s x).2)])) := by
  have hordered := frames_ordered hframes
  rw [channelLog_snoc, arrivals, List.filterMap_append]
  cases x with
  -- an arrival releases nothing: the handler that it starts does
  | arrive f epoch now =>
    have hnone : inboundLog (.arrive f epoch now,
        (inboundStep config s (.arrive f epoch now)).2) = [] := rfl
    rw [hnone, List.append_nil]
    exact progress_arrive hframes h.progress h.tracked hx hundisturbed hlimit
  | resume index now =>
    -- a handler may release a message of this channel only
    have hnext := progress_resume hordered h.progress index now hlimit
    have hevents := scopeLog_resume hordered
      fun m hm => hnext.released (List.mem_append_right (channelLog scope log) hm)
    rw [scopeLog_append, hevents]
    exact (List.append_nil (arrivals log)).symm ▸ hnext
  | acknowledge key now order =>
    have harrivals : arrivals log ++ [] = arrivals log := List.append_nil _
    change Progress _ _ _ _ (arrivals log ++ []) _
    rw [harrivals, inboundStep_log config s _ (by simp)]
    simp only [inboundStep, acknowledgeMessage, inboundOp, completeIncomingChecked] at hlimit ⊢
    split_ifs at hlimit ⊢ with hvalid
    · cases hlimit
    · obtain heq | ⟨a, ha, hlog, hstep⟩ :=
        completeIncomingAt_steps config s.store order key now
      -- an acknowledgement that finds no record changes nothing
      · simp only [receiveStep, heq]
        exact (List.append_nil (log.flatMap inboundLog)).symm ▸ h.progress
      · have hnext := progress_complete hordered h.consistent.wellFormed h.progress h.release
          h.tracked hundisturbed ha hstep
        rw [hlog] at hnext
        exact hnext
  | abandon | expire | close => cases hx

/-- The frames have the sequences that `seqOf` gives their keys. -/
theorem EndToEnd.step (hseq : ∀ f ∈ frames, f.sequence = seqOf f.key) (hx : FromSender frames x)
    (hundisturbed : Undisturbed s x) (hlimit : LimitFailure (inboundStep config s x).2 = false) :
    EndToEnd config scope frames seqOf (inboundStep config s x).1
      (log ++ [(x, (inboundStep config s x).2)]) := by
  have hprogress := h.progress_step hframes hx hundisturbed hlimit
  have hhonest : HonestInput seqOf x := by
    cases x with
    | arrive f epoch now => exact hseq f hx
    | resume | acknowledge | abandon | expire | close => trivial
  exact ⟨h.consistent.step hhonest (h.detached hframes x),
    h.release_step hframes hx hprogress.isOpen, hprogress⟩

end

/-- **The invariant holds after every run** of frames of the sender that no limit and no timeout
disturbs. -/
theorem endToEnd_run (config : DeliveryConfig) (hframes : Frames scope frames)
    (hseq : ∀ f ∈ frames, f.sequence = seqOf f.key)
    (hsender : ∀ x ∈ inputs, FromSender frames x)
    (hundisturbed : (inboundMachine config).Along Undisturbed inputs)
    (hlimits : ∀ entry ∈ (inboundMachine config).transcript inputs,
      LimitFailure entry.2 = false) :
    EndToEnd config scope frames seqOf ((inboundMachine config).run inputs)
      ((inboundMachine config).transcript inputs) := by
  have hguards := (inboundMachine config).alongFrom_and
    ((inboundMachine config).alongFrom_and
      ((inboundMachine config).alongFrom_of_forall _ hsender) hundisturbed)
    ((inboundMachine config).alongFrom_iff_transcript.mpr hlimits)
  refine (inboundMachine config).transcript_invariant ?_
    (fun s log x h hx => h.step hframes hseq hx.1.1 hx.1.2 hx.2) hguards
  refine ⟨⟨.new config, consistent_new seqOf, fun _ h => by cases h⟩,
    ⟨.nil config scope, fun h => by cases h⟩, ?_⟩
  constructor
  · exact fun h => by cases h
  · exact (Admission.nil _).frame_records (fun _ _ => Iff.rfl) fun _ _ h => by cases h
  · exact fun h => by cases h
  · exact fun _ h => by cases h
  · exact fun _ h => by cases h
  · exact fun h => by cases h

/-- The publications of an ordered frame are its releases. -/
theorem count_published {f : OrderedMessage} (hf : f.policy = .sessionBoundOrdered)
    (hscope : f.scope = scope) (inputs : List InboundInput) :
    (published ((inboundMachine config).transcript inputs)).count f =
      (channelLog scope ((inboundMachine config).transcript inputs)).count (.released f) := by
  have hentries : ∀ e ∈ (inboundMachine config).transcript inputs,
      (publishedBy e.2).count f = (inboundLog e).count (.released f) := by
    refine (inboundMachine config).alongFrom_iff_transcript.mp ?_
    refine (inboundMachine config).alongFrom_mono
      (fun s x (_ : True) => count_publishedBy config s x hf) ?_
    exact (inboundMachine config).alongFrom_of_forall _ fun _ _ => trivial
  have hfilter : (channelLog scope ((inboundMachine config).transcript inputs)).count
      (.released f) = (((inboundMachine config).transcript inputs).flatMap inboundLog).count
        (.released f) :=
    List.count_filter (p := fun event : ReceiveEvent => decide (event.scope = some scope))
      (decide_eq_true (congrArg some hscope))
  grind [published, List.map_congr_left]

/-- The messages whose completion succeeded. -/
def completedKeys (log : List (InboundInput × InboundOutput)) : List DedupKey :=
  log.filterMap fun
    | (_, .completed key _) => some key
    | _ => none

variable {key : DedupKey} {completion : IncomingCompletion}

theorem afterBegin_ne_completed {message : OrderedMessage}
    (decision : Except DeliveryError DedupDecision) :
    (afterBegin message decision).2 ≠ .completed key completion := by
  unfold afterBegin
  grind

theorem completed_mem_inboundLog (config : DeliveryConfig)
    (h : (inboundStep config s x).2 = .completed key completion) :
    .completed key ∈ inboundLog (x, (inboundStep config s x).2) := by
  rw [h]
  cases x with
  | acknowledge => exact List.mem_cons_self
  | arrive message epoch now =>
    grind [inboundStep, handleDataMessage, afterBegin_ne_completed]
  | resume index now =>
    simp only [inboundStep] at h
    cases htask : s.tasks[index]? with
    | none =>
      rw [htask] at h
      cases h
    | some task =>
      -- handlers emit, and never complete
      rw [htask] at h
      cases task with
      | accepting message =>
        simp only [HandlerTask.run, afterAccept] at h
        split at h <;> cases h
      | rejecting message result =>
        grind [HandlerTask.run, afterReject]
      | acking message =>
        grind [HandlerTask.run]
  | abandon | expire | close => cases h

/-- A completed key of the channel is an event of the channel. -/
theorem completed_mem_channelLog (hscope : key.scope = scope)
    (h : key ∈ completedKeys ((inboundMachine config).transcript inputs)) :
    .completed key ∈ channelLog scope ((inboundMachine config).transcript inputs) := by
  have hentries : ∀ e ∈ (inboundMachine config).transcript inputs,
      ∀ completion, e.2 = .completed key completion → .completed key ∈ inboundLog e := by
    refine (inboundMachine config).alongFrom_iff_transcript.mp ?_
    refine (inboundMachine config).alongFrom_mono
      (fun s x (_ : True) _ h => completed_mem_inboundLog config h) ?_
    exact (inboundMachine config).alongFrom_of_forall _ fun _ _ => trivial
  obtain ⟨⟨x, output⟩, hmem, heq⟩ := List.mem_filterMap.mp h
  refine List.mem_filter.mpr ⟨List.mem_flatMap.mpr ⟨_, hmem, ?_⟩, ?_⟩
  · grind
  · exact decide_eq_true (congrArg some hscope)

end Runs

/-! ## Delivery at rest -/

/-- **A run that has come to rest**: only frames of the sender arrived, no timeout and no limit
disturbed them, every ordered frame has arrived, no handler is left, and every published ordered
message was completed. -/
structure AtRest (config : DeliveryConfig) (frames : List OrderedMessage)
    (inputs : List InboundInput) : Prop where
  fromSender : ∀ x ∈ inputs, FromSender frames x
  undisturbed : (inboundMachine config).Along Undisturbed inputs
  limits : ∀ entry ∈ (inboundMachine config).transcript inputs, LimitFailure entry.2 = false
  delivered : ∀ f ∈ orderedFrames frames, f ∈ arrivals ((inboundMachine config).transcript inputs)
  handled : ((inboundMachine config).run inputs).tasks = []
  completed : ∀ f ∈ orderedFrames frames,
    f ∈ published ((inboundMachine config).transcript inputs) →
      f.key ∈ completedKeys ((inboundMachine config).transcript inputs)

/-- Every ordered frame was published exactly once, and the reorder buffer is empty. -/
def DeliveryComplete (config : DeliveryConfig) (scope : Scope) (frames : List OrderedMessage)
    (inputs : List InboundInput) : Prop :=
  (∀ f ∈ orderedFrames frames,
    (published ((inboundMachine config).transcript inputs)).count f = 1) ∧
  ∀ ch ∈ ((inboundMachine config).run inputs).store.ordered.get? scope,
    ch.reorderBuffer.toList = []

section Rest

/-- A sequence of the log is that of a released message. -/
theorem mem_releasedSequences {events : List ReceiveEvent} {k : ℕ} :
    k ∈ releasedSequences events ↔ ∃ m, .released m ∈ events ∧ m.sequence = k := by
  grind [releasedSequences]

theorem count_released_le (events : List ReceiveEvent) (f : OrderedMessage) :
    events.count (.released f) ≤ (releasedSequences events).count f.sequence := by
  induction events with
  | nil => exact Nat.zero_le _
  | cons event events ih =>
    grind [releasedSequences]

variable (hframes : Frames scope frames)
  (h : EndToEnd config scope frames seqOf ((inboundMachine config).run inputs)
    ((inboundMachine config).transcript inputs))

include hframes h

/-- An ordered frame is published once when its sequence was released, and else not at all. -/
theorem count_published_eq_one {f : OrderedMessage} (hf : f ∈ orderedFrames frames) :
    (published ((inboundMachine config).transcript inputs)).count f = 1 ↔
      f.sequence ∈ releasedSequences (channelLog scope
        ((inboundMachine config).transcript inputs)) := by
  have hordered := frames_ordered hframes
  have hnodup : (releasedSequences (channelLog scope
      ((inboundMachine config).transcript inputs))).Nodup := by
    rw [h.release.release.channelLog.sequences]
    exact List.nodup_range
  have hle := (count_released_le (channelLog scope
    ((inboundMachine config).transcript inputs)) f).trans (List.nodup_iff_count_le_one.mp hnodup _)
  rw [count_published (mem_orderedFrames.mp hf).2 (hordered.scope_eq hf), mem_releasedSequences]
  constructor
  · grind
  · rintro ⟨m, hm, hseq⟩
    obtain rfl := hordered.sequence_inj (h.progress.released hm) hf hseq
    grind

variable (hrest : AtRest config frames inputs)

include hrest

/-- Nothing is in flight at rest. -/
theorem AtRest.idle :
    (((inboundMachine config).run inputs).store.receive.view scope).inFlight = none := by
  refine Option.eq_none_iff_forall_ne_some.mpr fun messageId hflight => ?_
  obtain ⟨f, hf, hreleased, -, hseq⟩ := exists_inFlight h.progress h.release hflight
  have hscope := (frames_ordered hframes).scope_eq hf
  have hpublished : f ∈ published ((inboundMachine config).transcript inputs) := by
    rw [← List.count_pos_iff, count_published (mem_orderedFrames.mp hf).2 hscope]
    exact List.count_pos_iff.mpr hreleased
  have hkey : f.key.scope = scope := hscope
  have hcompleted := completed_mem_channelLog hkey (hrest.completed f hf hpublished)
  have hdone := h.progress.completed hf hcompleted
  omega

/-- At rest every ordered frame is released and the buffer is empty, when no sequence is missing
among the ordered frames. -/
theorem AtRest.complete
    (hgap : ∀ f ∈ orderedFrames frames, ∀ k < f.sequence,
      ∃ g ∈ orderedFrames frames, g.sequence = k) :
    DeliveryComplete config scope frames inputs := by
  have hidle := hrest.idle hframes h
  have hheld : held ((inboundMachine config).run inputs).tasks = [] := by
    rw [hrest.handled]
    rfl
  obtain ⟨hdone, hempty⟩ := Arrived.finished (frames_ordered hframes)
    (hheld ▸ h.progress.admission) (h.consistent.wellFormed.view scope) hidle
    (fun f hf => hheld ▸ h.progress.arrived hf (hrest.delivered f hf)) hgap
  refine ⟨fun f hf => ?_, fun ch hch => ?_⟩
  · rw [count_published_eq_one hframes h hf, h.release.release.channelLog.sequences,
      List.mem_range]
    simp_all
  · refine List.eq_nil_iff_forall_not_mem.mpr fun entry hmem => ?_
    have hview : ((inboundMachine config).run inputs).store.receive.view scope = ch := by
      have hchannel : ((inboundMachine config).run inputs).store.receive.channel scope = some ch :=
        hch
      grind [Receive.view]
    grind

end Rest

/-! ## The frames of a sender -/

/-- The message as the receiver gets it, on a session with the sender. -/
def dataFrame (sender session : String) (m : PendingMessage) : OrderedMessage :=
  ⟨sender, session, m.channelId, m.messageId, m.sequence, m.policy, m.payload⟩

/-- No ordered message comes after one of another policy. -/
def OrderedFirst (messages : List PendingMessage) : Prop :=
  messages.Pairwise fun a b =>
    b.policy = .sessionBoundOrdered → a.policy = .sessionBoundOrdered

instance : DecidablePred OrderedFirst := fun messages => by
  unfold OrderedFirst
  infer_instance

section Sender

variable {messages : List PendingMessage} {store : DeliveryStore} {sender session : String}

/-- The frames of the accepted messages differ in identifiers and sequences. -/
theorem frames_of_numbered (h : Numbered scope store messages)
    (hids : (messages.map PendingMessage.messageId).Nodup) (hcount : messages.length ≤ u64Max) :
    Frames (sender, scope.2) (messages.map (dataFrame sender session)) where
  scope_eq := by
    intro f hf
    obtain ⟨m, hm, rfl⟩ := List.mem_map.mp hf
    exact congrArg (Prod.mk sender) (h.channel m hm)
  id_inj := by
    intro f g hf hg hid
    obtain ⟨m, hm, rfl⟩ := List.mem_map.mp hf
    obtain ⟨m', hm', rfl⟩ := List.mem_map.mp hg
    rw [List.inj_on_of_nodup_map hids hm hm' hid]
  sequence_inj := by
    intro f g hf hg hseq
    obtain ⟨m, hm, rfl⟩ := List.mem_map.mp hf
    obtain ⟨m', hm', rfl⟩ := List.mem_map.mp hg
    obtain ⟨i, hi, rfl⟩ := List.mem_iff_getElem.mp hm
    obtain ⟨j, hj, rfl⟩ := List.mem_iff_getElem.mp hm'
    have hij : i = j := by
      rw [← sequence_getElem h hcount hi, ← sequence_getElem h hcount hj]
      exact hseq
    subst hij
    rfl
  sequence_lt := by
    intro f hf
    obtain ⟨m, hm, rfl⟩ := List.mem_map.mp hf
    obtain ⟨i, hi, rfl⟩ := List.mem_iff_getElem.mp hm
    exact (sequence_getElem h hcount hi).trans_lt (hi.trans_le hcount)

/-- The sequence of a key is that of its frame. -/
def frameSequence (frames : List OrderedMessage) (key : DedupKey) : ℕ :=
  ((frames.find? fun f => decide (f.key = key)).map OrderedMessage.sequence).getD 0

theorem frameSequence_eq (hframes : Frames scope frames)
    {f : OrderedMessage} (hf : f ∈ frames) : f.sequence = frameSequence frames f.key := by
  unfold frameSequence
  cases hfind : frames.find? fun g => decide (g.key = f.key) with
  | none => simpa using List.find?_eq_none.mp hfind f hf
  | some g =>
    have hkey : g.key = f.key := by simpa using List.find?_some hfind
    rw [hframes.id_inj (List.mem_of_find?_eq_some hfind) hf (congrArg DedupKey.messageId hkey)]
    rfl

theorem getElem_mem_orderedFrames {i : ℕ} (hi : i < messages.length) :
    dataFrame sender session messages[i] ∈
        orderedFrames (messages.map (dataFrame sender session)) ↔
      messages[i].policy = .sessionBoundOrdered := by
  rw [mem_orderedFrames, and_iff_right (List.mem_map_of_mem (List.getElem_mem hi))]
  rfl

/-- Ordered messages come first exactly when no sequence is missing among their frames. -/
theorem orderedFirst_iff (h : Numbered scope store messages) (hcount : messages.length ≤ u64Max) :
    OrderedFirst messages ↔
      ∀ f ∈ orderedFrames (messages.map (dataFrame sender session)), ∀ k < f.sequence,
        ∃ g ∈ orderedFrames (messages.map (dataFrame sender session)), g.sequence = k := by
  have hmember : ∀ {f}, f ∈ orderedFrames (messages.map (dataFrame sender session)) →
      ∃ (i : ℕ) (hi : i < messages.length), f.sequence = i ∧
        messages[i].policy = .sessionBoundOrdered := by
    intro f hf
    obtain ⟨hf, hpolicy⟩ := mem_orderedFrames.mp hf
    obtain ⟨m, hm, rfl⟩ := List.mem_map.mp hf
    obtain ⟨i, hi, rfl⟩ := List.mem_iff_getElem.mp hm
    exact ⟨i, hi, sequence_getElem h hcount hi, hpolicy⟩
  unfold OrderedFirst
  rw [List.pairwise_iff_getElem]
  constructor
  · intro hfirst f hf k hk
    obtain ⟨i, hi, hseq, hpolicy⟩ := hmember hf
    have hki : k < i := hseq ▸ hk
    refine ⟨_, (getElem_mem_orderedFrames (hki.trans hi)).mpr ?_,
      sequence_getElem h hcount (hki.trans hi)⟩
    grind
  · grind [dataFrame, sequence_getElem, getElem_mem_orderedFrames]

end Sender

/-- **Ordered delivery from end to end**: the messages accepted on a channel have different
identifiers, and a run of their frames has come to rest. Then every ordered message was published
exactly once and the reorder buffer is empty if and only if no ordered message was accepted after
one of another policy. -/
theorem end_to_end_ordered_delivery (sendConfig config : DeliveryConfig)
    (peerId channelId sender session : String) (calls : List EnqueueCall)
    (messages : List PendingMessage)
    (hmessages : messages = acceptedMessages sendConfig (peerId, channelId) calls)
    (hids : (messages.map PendingMessage.messageId).Nodup) (hcount : messages.length ≤ u64Max)
    (inputs : List InboundInput)
    (hrest : AtRest config (messages.map (dataFrame sender session)) inputs) :
    DeliveryComplete config (sender, channelId) (messages.map (dataFrame sender session)) inputs ↔
      OrderedFirst messages := by
  have hnumbered := acceptedMessages_numbered sendConfig (peerId, channelId) calls
  rw [← hmessages] at hnumbered
  have hframes : Frames (sender, channelId) (messages.map (dataFrame sender session)) :=
    frames_of_numbered hnumbered hids hcount
  have hrun := endToEnd_run config hframes (fun f hf => frameSequence_eq hframes hf)
    hrest.fromSender hrest.undisturbed hrest.limits
  rw [orderedFirst_iff hnumbered hcount]
  refine ⟨fun hcomplete f hf k hk => ?_, hrest.complete hframes hrun⟩
  -- the released sequences have no gap, so the sequence before an ordered one is ordered
  have hreleased := (count_published_eq_one hframes hrun hf).mp (hcomplete.1 f hf)
  rw [hrun.release.release.channelLog.sequences, List.mem_range] at hreleased
  have hbefore : k ∈ releasedSequences (channelLog (sender, channelId)
      ((inboundMachine config).transcript inputs)) := by
    rw [hrun.release.release.channelLog.sequences, List.mem_range]
    exact hk.trans hreleased
  obtain ⟨g, hg, hseq⟩ := mem_releasedSequences.mp hbefore
  exact ⟨g, hrun.progress.released hg, hseq⟩

/-- Calls that each accept a message of one byte. -/
def oneByteCalls (policies : List DeliveryPolicy) : List EnqueueCall :=
  policies.zipIdx.map fun (policy, n) =>
    ⟨[n.toUInt8], policy, .default, 0, [.fill n.toUInt8], .zero⟩

/-- The frames of these messages. -/
def oneByteFrames (policies : List DeliveryPolicy) : List OrderedMessage :=
  (acceptedMessages .default ("peer", "chat") (oneByteCalls policies)).map
    (dataFrame "sender" "session")

/-- A frame of one byte, with its place as its sequence. -/
def oneByteFrame (n : ℕ) (policy : DeliveryPolicy) : OrderedMessage :=
  ⟨"sender", "session", "chat", .fill n.toUInt8, n, policy, [n.toUInt8]⟩

/-- Two ordered messages arrive in the wrong order, one of them twice, and a third message follows
them. -/
def reorderedRun : List InboundInput :=
  [.arrive (oneByteFrame 1 .sessionBoundOrdered) 0 0, .resume 0 0,
    .arrive (oneByteFrame 0 .sessionBoundOrdered) 0 0, .resume 0 0,
    .arrive (oneByteFrame 1 .sessionBoundOrdered) 0 0,
    .acknowledge (oneByteFrame 0 .sessionBoundOrdered).key 1 fun _ => 0,
    .acknowledge (oneByteFrame 1 .sessionBoundOrdered).key 2 fun _ => 0,
    .arrive (oneByteFrame 2 .acked) 0 3]

theorem end_to_end_ordered_delivery_reorderedRun :
    DeliveryComplete .default ("sender", "chat")
      (oneByteFrames [.sessionBoundOrdered, .sessionBoundOrdered, .acked]) reorderedRun :=
  (end_to_end_ordered_delivery .default .default "peer" "chat" "sender" "session"
    (oneByteCalls [.sessionBoundOrdered, .sessionBoundOrdered, .acked]) _ rfl (by decide)
    (by decide) reorderedRun
    ⟨by decide, by decide, by decide, by decide, by decide, by decide⟩).mpr (by decide)

/-- An acknowledged message takes the sequence `0`, and an ordered one the sequence `1`. -/
def mixedRun : List InboundInput :=
  [.arrive (oneByteFrame 0 .acked) 0 0,
    .acknowledge (oneByteFrame 0 .acked).key 1 fun _ => 0,
    .arrive (oneByteFrame 1 .sessionBoundOrdered) 0 2, .resume 0 2]

/-- **Mixed policies stall a channel**: the run has come to rest, and the ordered message waits for
a sequence that is not an ordered one. -/
theorem mixed_policies_stall :
    AtRest .default (oneByteFrames [.acked, .sessionBoundOrdered]) mixedRun ∧
      published ((inboundMachine .default).transcript mixedRun) = [oneByteFrame 0 .acked] ∧
      ¬ DeliveryComplete .default ("sender", "chat")
        (oneByteFrames [.acked, .sessionBoundOrdered]) mixedRun := by
  refine ⟨⟨by decide, by decide, by decide, by decide, by decide, by decide⟩, by decide, ?_⟩
  intro h
  exact absurd (h.1 (oneByteFrame 1 .sessionBoundOrdered) (by decide)) (by decide)

end SshMobile.Channel
