import SshMobile.Channel.Inbound
import SshMobile.Delivery.Admission

/-!
# The progress of ordered messages

The frames of one sender reach the receiver in any order, any number of times. Handlers admit them
in steps of their own, and the application acknowledges what is published to it. `Progress` says
where each ordered frame is on its way: with a handler, in the reorder buffer, in flight or
finished. Each section of a handler and each acknowledgement moves frames along and loses none.

## Main definitions

* `FromSender`, `Undisturbed`, `LimitFailure`: what the runs may assume
* `published`: the messages published to the application
* `Progress`: where the ordered frames are

## Main results

* `progress_arrive`, `progress_resume`, `progress_complete`: every section keeps the progress
* `inboundStep_log`: the events of one section are those of the store
-/

namespace SshMobile.Channel

open Library Delivery

/-! ## The frames and the runs -/

/-- The ordered messages among the frames. -/
def orderedFrames (frames : List OrderedMessage) : List OrderedMessage :=
  frames.filter fun f => decide (f.policy = .sessionBoundOrdered)

theorem mem_orderedFrames {frames : List OrderedMessage} {f : OrderedMessage} :
    f ∈ orderedFrames frames ↔ f ∈ frames ∧ f.policy = .sessionBoundOrdered := by
  simp [orderedFrames]

/-- The message that a handler is admitting or taking back. -/
def HandlerTask.held : HandlerTask → Option OrderedMessage
  | .accepting message => some message
  | .rejecting message _ => some message
  | .acking _ => none

/-- The messages that the handlers are admitting. -/
def held (tasks : List HandlerTask) : List OrderedMessage := tasks.filterMap HandlerTask.held

/-- Only frames of the sender arrive, and nothing is abandoned or closed. -/
def FromSender (frames : List OrderedMessage) : InboundInput → Prop
  | .arrive message _ _ => message ∈ frames
  | .resume .. | .acknowledge .. => True
  | .abandon _ | .expire .. | .close _ => False

instance (frames : List OrderedMessage) : DecidablePred (FromSender frames)
  | .arrive message _ _ => inferInstanceAs (Decidable (message ∈ frames))
  | .resume .. | .acknowledge .. => .isTrue trivial
  | .abandon _ | .expire .. | .close _ => .isFalse id

/-- No acknowledgement of the application is late, and the application acknowledges no message that
a handler is still admitting. -/
def Undisturbed (s : Inbound) : InboundInput → Prop
  | .arrive message _ now => timedOutRecords s.store now (some message.peerId) = []
  | .acknowledge key _ _ => ∀ m ∈ held s.tasks, m.key ≠ key
  | _ => True

instance (s : Inbound) : DecidablePred (Undisturbed s)
  | .arrive message _ now =>
    inferInstanceAs (Decidable (timedOutRecords s.store now (some message.peerId) = []))
  | .acknowledge key _ _ => inferInstanceAs (Decidable (∀ m ∈ held s.tasks, m.key ≠ key))
  | .resume .. | .abandon _ | .expire .. | .close _ => .isTrue trivial

/-- A limit of the receiver refused a message. -/
def LimitFailure : InboundOutput → Bool
  | .failed (.delivery _) | .failed .handlerCapacity | .failed .reorderLimits => true
  | _ => false

/-- The messages that one section publishes to the application. -/
def publishedBy : InboundOutput → List OrderedMessage
  | .emitted message => [message]
  | .completed _ completion => completion.nextOrdered.toList
  | _ => []

/-- The messages published in a run, in order. -/
def published (log : List (InboundInput × InboundOutput)) : List OrderedMessage :=
  log.flatMap fun entry => publishedBy entry.2

/-- The events of one section, as the store reports them. -/
def inboundLog : InboundInput × InboundOutput → List ReceiveEvent
  | (.resume .., .emitted message) => [.released message]
  | (.acknowledge .., .completed key completion) => completionLog key completion.nextOrdered
  | _ => []

variable {f : OrderedMessage}

section Log

variable (config : DeliveryConfig) (s : Inbound) (x : InboundInput)

/-- The events of a section but an arrival are those of its operation. -/
theorem inboundStep_log (hx : ∀ message epoch now, x ≠ .arrive message epoch now) :
    inboundLog (x, (inboundStep config s x).2) =
      match inboundOp s x with
      | some op => receiveLog (op, (receiveStep config s.store op).2)
      | none => [] := by
  cases x with
  | arrive message epoch now => exact absurd rfl (hx message epoch now)
  | resume index now =>
    simp only [inboundStep, inboundOp]
    cases s.tasks[index]? with
    | none => rfl
    | some task =>
      cases task with
      | accepting message =>
        simp only [HandlerTask.run, receiveStep, Prod.map_snd]
        cases (acceptOrderedAt config s.store message now).2 <;> rfl
      | rejecting message result => cases result <;> rfl
      | acking message =>
        simp only [HandlerTask.run]
        split <;> rfl
  | acknowledge key now order =>
    simp only [inboundStep, acknowledgeMessage, inboundOp, completeIncomingChecked]
    split_ifs
    · rfl
    · simp only [receiveStep, Prod.map_snd]
      cases (completeIncomingAt config order s.store key now).2 <;> rfl
  | abandon | expire | close => rfl

/-- On a channel the events of every section are those of its operation: an arrival only admits. -/
theorem scopeLog_inboundStep (scope : Scope) :
    scopeLog scope (inboundLog (x, (inboundStep config s x).2)) =
      match inboundOp s x with
      | some op => scopeLog scope (receiveLog (op, (receiveStep config s.store op).2))
      | none => [] := by
  by_cases hx : ∀ message epoch now, x ≠ .arrive message epoch now
  · rw [inboundStep_log config s x hx]
    cases inboundOp s x <;> rfl
  · push Not at hx
    obtain ⟨message, epoch, now, rfl⟩ := hx
    simp only [inboundOp]
    split_ifs
    · rfl
    · rfl
    · simp only [receiveStep, Prod.map_snd]
      cases (beginIncoming config s.store message.key epoch now).2 <;> rfl

theorem count_released {m : OrderedMessage} :
    [ReceiveEvent.released m].count (.released f) = [m].count f := by
  grind

theorem count_completionLog (key : DedupKey) (next : Option OrderedMessage) :
    (completionLog key next).count (.released f) = next.toList.count f := by
  cases next with
  | none => simp [completionLog]
  | some m => simpa [completionLog] using count_released

/-- A section that publishes an ordered message reports its release. -/
theorem count_publishedBy (hf : f.policy = .sessionBoundOrdered) :
    (publishedBy (inboundStep config s x).2).count f =
      (inboundLog (x, (inboundStep config s x).2)).count (.released f) := by
  cases x with
  | arrive message epoch now =>
    -- what an arrival publishes at once is not ordered, so it is not `f`
    have hother : message.policy ≠ .sessionBoundOrdered → [message].count f = 0 := by
      grind
    simp only [inboundStep, handleDataMessage]
    split_ifs with hbest
    · exact hother (by simp [hbest])
    · simp only [afterBegin]
      split <;> try rfl
      split_ifs with hpolicy
      · rfl
      · exact hother hpolicy
  | resume index now =>
    simp only [inboundStep]
    cases s.tasks[index]? with
    | none => rfl
    | some task =>
      cases task with
      | accepting message =>
        simp only [HandlerTask.run]
        cases (acceptOrderedAt config s.store message now).2 with
        | ready => exact count_released.symm
        | buffered | duplicate | rejected => rfl
      | rejecting message result => cases result <;> rfl
      | acking message =>
        simp only [HandlerTask.run]
        split <;> rfl
  | acknowledge key now order =>
    simp only [inboundStep, acknowledgeMessage]
    split
    · exact (count_completionLog _ _).symm
    · rfl
    · rfl
  | abandon | expire | close => rfl

end Log

/-! ## The progress of the ordered messages -/

theorem held_append (tasks tasks' : List HandlerTask) :
    held (tasks ++ tasks') = held tasks ++ held tasks' := List.filterMap_append

/-- **The progress of the ordered messages `frames`**: the handlers admit them, those that arrived
are somewhere, and the events are those of finished and released messages. -/
structure Progress (scope : Scope) (frames : List OrderedMessage) (r : Receive)
    (tasks : List HandlerTask) (arrivals : List OrderedMessage) (events : List ReceiveEvent) :
    Prop where
  isOpen : scope ∉ r.failed
  admission : Admission frames (r.records scope) {id | scope.key id ∈ r.processed} (r.view scope)
    (held tasks)
  rejecting : ∀ {m result}, .rejecting m result ∈ tasks →
    result = .rejected ∨ result = .duplicate ∧ m.sequence < (r.view scope).expectedSequence
  arrived : ∀ {f}, f ∈ frames → f ∈ arrivals → Arrived (r.view scope) (held tasks) f
  completed : ∀ {f}, f ∈ frames → .completed f.key ∈ events →
    f.sequence < (r.view scope).expectedSequence
  released : ∀ {m}, .released m ∈ events → m ∈ frames

open Receive

variable {scope : Scope} {frames arrivals : List OrderedMessage} {r : Receive}
  {tasks : List HandlerTask} {events : List ReceiveEvent} {kept : Set DedupKey}
  {record : ActiveIncomingRecord}

namespace Progress

variable {r' : Receive} {tasks' : List HandlerTask} {m : OrderedMessage}

section

variable (h : Progress scope frames r tasks arrivals events)

include h

/-- The channel stays, and no record of `frames` comes or goes. -/
theorem frame (hfailed : r'.failed = r.failed) (hview : r'.view scope = r.view scope)
    (hrecords : ∀ f ∈ frames, r'.records scope f.messageId = none ↔
      r.records scope f.messageId = none)
    (hprocessed : ∀ f ∈ frames, scope.key f.messageId ∈ r'.processed →
      scope.key f.messageId ∈ r.processed) :
    Progress scope frames r' tasks arrivals events where
  isOpen := hfailed ▸ h.isOpen
  admission := hview ▸ h.admission.frame_records hrecords hprocessed
  rejecting := hview ▸ h.rejecting
  arrived := hview ▸ h.arrived
  completed := hview ▸ h.completed
  released := h.released

/-- The handlers change, and hold the same messages. -/
theorem retask (hheld : (held tasks).Perm (held tasks'))
    (hrejecting : ∀ {m result}, .rejecting m result ∈ tasks' →
      .rejecting m result ∈ tasks ∨ result = .rejected ∨
        result = .duplicate ∧ m.sequence < (r.view scope).expectedSequence) :
    Progress scope frames r tasks' arrivals events where
  isOpen := h.isOpen
  admission := h.admission.perm hheld
  rejecting := fun hmem => (hrejecting hmem).elim h.rejecting id
  arrived := fun hf harrived => (h.arrived hf harrived).mono hheld.subset
  completed := h.completed
  released := h.released

theorem arrive (hf : f ∈ frames → Arrived (r.view scope) (held tasks) f) :
    Progress scope frames r tasks (arrivals ++ [f]) events where
  isOpen := h.isOpen
  admission := h.admission
  rejecting := h.rejecting
  arrived := by
    intro g hg hmem
    obtain hold | hnew := List.mem_append.mp hmem
    · exact h.arrived hg hold
    · simp_all
  completed := h.completed
  released := h.released

/-- A message that is not ordered is completed. -/
theorem completeOther {key : DedupKey} (hkey : ∀ f ∈ frames, f.key ≠ key) :
    Progress scope frames r tasks arrivals (events ++ [.completed key]) where
  isOpen := h.isOpen
  admission := h.admission
  rejecting := h.rejecting
  arrived := h.arrived
  completed := by
    intro f hf hmem
    obtain hold | hnew := List.mem_append.mp hmem
    · exact h.completed hf hold
    · simp_all
  released := by
    intro m hmem
    obtain hold | hnew := List.mem_append.mp hmem
    · exact h.released hold
    · cases List.mem_singleton.mp hnew

section

variable (hframes : Frames scope frames)

include hframes

/-- The record of a message is renewed, or that of a message outside `frames` is added. -/
theorem put (hkept : kept ⊆ r.processed) {key : DedupKey}
    (hkey : ∀ f ∈ frames, f.key = key → r.active key ≠ none) :
    Progress scope frames ((r.remember kept).put key record) tasks arrivals events := by
  refine h.frame rfl rfl (fun f hf => ?_) fun _ _ hmem => hkept hmem
  by_cases heq : f.key = key
  · have hactive : r.records scope f.messageId ≠ none := by
      rw [records, ← hframes.scope_eq hf, ← f.key_eq, heq]
      exact hkey f hf heq
    refine iff_of_false ?_ hactive
    rw [records, ← hframes.scope_eq hf, ← f.key_eq, heq]
    simp
  · rw [records, records, ← hframes.scope_eq hf, ← f.key_eq, put_active,
      if_neg heq]
    rfl

/-- A new ordered message gets a record and a handler. -/
theorem enroll (htracked : (r.view scope).Tracked (r.records scope)) (hkept : kept ⊆ r.processed)
    (hf : f ∈ frames) (hnone : r.active f.key = none) :
    Progress scope frames ((r.remember kept).put f.key record) (tasks ++ [.accepting f]) arrivals
      events := by
  have hscope := hframes.scope_eq hf
  have hheld : (f :: held tasks).Perm (held (tasks ++ [.accepting f])) := by
    rw [held_append]
    exact (List.perm_append_singleton f (held tasks)).symm
  have hnone' : r.records scope f.messageId = none := by
    rw [records, ← hscope, ← f.key_eq]
    exact hnone
  have hrecords : ((r.remember kept).put f.key record).records scope =
      Function.update (r.records scope) f.messageId (some record) := by
    subst hscope
    exact records_put_self
  constructor
  · exact h.isOpen
  · rw [hrecords]
    -- the new handler stands at the end of the tasks, and admission counts it first
    refine (Admission.enroll ?_ hframes htracked hf hnone').perm hheld
    exact h.admission.frame_records (fun _ _ => Iff.rfl) fun _ _ hmem => hkept hmem
  · intro m result hmem
    obtain hold | hnew := List.mem_append.mp hmem
    · exact h.rejecting hold
    · cases List.mem_singleton.mp hnew
  · exact fun hg hmem => (h.arrived hg hmem).mono fun g hg =>
      hheld.subset (List.mem_cons_of_mem f hg)
  · exact h.completed
  · exact h.released

end

end

/-- The channel takes a message from its handler. -/
theorem settle (h : Progress scope frames r (.accepting m :: tasks) arrivals events)
    (hframes : Frames scope frames) (hfailed : r'.failed = r.failed)
    (hprocessed : r'.processed = r.processed)
    (hplaced : Placed frames m (r.view scope) (r'.view scope)) (hrecords : r'.records scope =
      Function.update (r.records scope) m.messageId (some record)) {log : List ReceiveEvent}
    (hlog : log = [] ∨ log = [.released m]) :
    Progress scope frames r' tasks arrivals (events ++ log) := by
  have hm : m ∈ frames := h.admission.frame List.mem_cons_self
  constructor
  · exact hfailed ▸ h.isOpen
  · rw [hrecords, hprocessed]
    exact Admission.settle h.admission hframes hplaced
  · intro m' result hmem
    rw [hplaced.expected_eq]
    exact h.rejecting (List.mem_cons_of_mem _ hmem)
  · exact fun hf hmem => Arrived.settle (h.arrived hf hmem) hf hplaced
  · intro f hf hmem
    rw [hplaced.expected_eq]
    -- the new events, if any, are releases
    refine h.completed hf ((List.mem_append.mp hmem).resolve_right fun hnew => ?_)
    grind
  · intro m' hmem
    obtain hold | hnew := List.mem_append.mp hmem
    · exact h.released hold
    · grind

/-- A handler takes back a finished message. -/
theorem reject (h : Progress scope frames r (.rejecting m .duplicate :: tasks) arrivals events)
    (hframes : Frames scope frames) :
    Progress scope frames (r.drop m.key) tasks arrivals events := by
  have hm : m ∈ frames := h.admission.frame List.mem_cons_self
  have hdone : m.sequence < (r.view scope).expectedSequence := by
    obtain heq | ⟨-, hlt⟩ := h.rejecting List.mem_cons_self
    · cases heq
    · exact hlt
  have hrecords : (r.drop m.key).records scope =
      Function.update (r.records scope) m.messageId none := by
    obtain rfl := hframes.scope_eq hm
    exact records_drop_self
  constructor
  · exact h.isOpen
  · rw [hrecords]
    exact Admission.reject h.admission hframes
  · exact fun hmem => h.rejecting (List.mem_cons_of_mem _ hmem)
  · exact fun hf hmem => Arrived.reject (h.arrived hf hmem) hdone
  · exact h.completed
  · exact h.released

/-- The in-flight message `f` is completed. -/
theorem acknowledge (h : Progress scope frames r tasks arrivals events)
    (hframes : Frames scope frames) (hf : f ∈ frames)
    (hflight : (r.view scope).inFlight = some f.messageId)
    (hseq : f.sequence = (r.view scope).expectedSequence) (hfailed : r'.failed = r.failed)
    (hview : r'.view scope = ((r.view scope).acknowledge f.messageId).1)
    (hnone : r'.records scope f.messageId = none)
    (hrecords : ∀ g ∈ frames, g ≠ f →
      (r'.records scope g.messageId = none ↔ r.records scope g.messageId = none))
    (hprocessed : r'.processed ⊆ insert f.key r.processed) {next : Option OrderedMessage}
    (hnext : ∀ m ∈ next, m ∈ frames) :
    Progress scope frames r' tasks arrivals (events ++ completionLog f.key next) := by
  have hexpected : (r'.view scope).expectedSequence = (r.view scope).expectedSequence + 1 := by
    rw [hview, OrderedChannelState.expectedSequence_acknowledge hflight]
    exact saturatingAdd_of_le (hseq ▸ hframes.sequence_lt hf)
  -- the expected sequence moves past `f`, and everything below it stays below
  have hgrows : ∀ {k : ℕ}, k < (r.view scope).expectedSequence →
      k < (r'.view scope).expectedSequence := fun hk => by omega
  constructor
  · exact hfailed ▸ h.isOpen
  · rw [hview]
    refine h.admission.acknowledge hframes hf hflight hseq hnone hrecords fun g hg hgf hmem => ?_
    -- of the frames only `f` may have become a processed one
    refine (hprocessed hmem).resolve_left fun hkey => hgf ?_
    exact hframes.id_inj hg hf (congrArg DedupKey.messageId hkey)
  · exact fun hmem => (h.rejecting hmem).imp_right fun hlt => ⟨hlt.1, hgrows hlt.2⟩
  · intro g hg hmem
    rw [hview]
    exact (h.arrived hg hmem).acknowledge hframes hg hf hflight hseq
  · intro g hg hmem
    obtain hold | hnew := List.mem_append.mp hmem
    · exact hgrows (h.completed hg hold)
    · have hkey : g.key = f.key := by
        obtain heq | hin := List.mem_cons.mp hnew
        · exact ReceiveEvent.completed.inj heq
        · simp_all
      rw [hframes.id_inj hg hf (congrArg DedupKey.messageId hkey)]
      omega
  · intro m hmem
    obtain hold | hnew := List.mem_append.mp hmem
    · exact h.released hold
    · obtain heq | hin := List.mem_cons.mp hnew
      · cases heq
      · simp_all

end Progress

/-! ## One section -/

section Sections

variable {config : DeliveryConfig} {s : Inbound}

theorem frames_ordered (h : Frames scope frames) : Frames scope (orderedFrames frames) where
  scope_eq := fun hf => h.scope_eq (mem_orderedFrames.mp hf).1
  id_inj := fun hf hg => h.id_inj (mem_orderedFrames.mp hf).1 (mem_orderedFrames.mp hg).1
  sequence_inj := fun hf hg =>
    h.sequence_inj (mem_orderedFrames.mp hf).1 (mem_orderedFrames.mp hg).1
  sequence_lt := fun hf => h.sequence_lt (mem_orderedFrames.mp hf).1

/-- A frame that is not ordered shares no key with an ordered one. -/
theorem key_ne_of_not_ordered (h : Frames scope frames) (hf : f ∈ frames)
    (hpolicy : f.policy ≠ .sessionBoundOrdered) :
    ∀ g ∈ orderedFrames frames, g.key ≠ f.key := by
  intro g hg heq
  obtain ⟨hg, hordered⟩ := mem_orderedFrames.mp hg
  cases h.id_inj hg hf (congrArg DedupKey.messageId heq)
  exact hpolicy hordered

/-- A message with a record is somewhere. -/
theorem arrived_of_record
    (h : Progress scope frames r tasks arrivals events) (hframes : Frames scope frames)
    (hf : f ∈ frames) (hactive : r.active f.key ≠ none) :
    Arrived (r.view scope) (held tasks) f := by
  have hrecord : r.records scope f.messageId ≠ none := by
    rw [records, ← hframes.scope_eq hf, ← f.key_eq]
    exact hactive
  obtain hheld | hflight | hholds := h.admission.known hf hrecord
  · exact Or.inr (Or.inr (Or.inr hheld))
  · exact Or.inr (Or.inl hflight)
  · exact Or.inr (Or.inr (Or.inl hholds))

theorem progress_arrive (hframes : Frames scope frames)
    (h : Progress scope (orderedFrames frames) s.store.receive s.tasks arrivals events)
    (htracked : (s.store.receive.view scope).Tracked (s.store.receive.records scope))
    (hf : f ∈ frames) {epoch now : ℕ} (hlive : timedOutRecords s.store now (some f.peerId) = [])
    (hlimit : LimitFailure (inboundStep config s (.arrive f epoch now)).2 = false) :
    Progress scope (orderedFrames frames)
      (inboundStep config s (.arrive f epoch now)).1.store.receive
      (inboundStep config s (.arrive f epoch now)).1.tasks (arrivals ++ [f]) events := by
  have hscope : f.key.scope = scope := hframes.scope_eq hf
  have hordered := frames_ordered hframes
  simp only [inboundStep, handleDataMessage] at hlimit ⊢
  by_cases hbest : f.policy = .bestEffort
  · simp only [if_pos hbest, Option.toList_none, List.append_nil]
    refine h.arrive fun hmem => ?_
    grind [mem_orderedFrames]
  simp only [if_neg hbest] at hlimit ⊢
  by_cases hvalid : (!isValidPeerId f.key.peerId || !isValidScopeId f.key.channelId) = true
  · simp only [beginIncomingChecked, if_pos hvalid] at hlimit
    cases hlimit
  simp only [beginIncomingChecked, if_neg hvalid] at hlimit ⊢
  obtain ⟨kept, hkept, hadmitted⟩ := beginIncoming_live config s.store f.key epoch now hlive
  generalize beginIncoming config s.store f.key epoch now = result at hlimit hadmitted ⊢
  obtain ⟨store', decision⟩ := result
  generalize store'.receive = after at hadmitted ⊢
  cases hadmitted with
  -- a failed channel refuses, but this one is open
  | channelFailed hfailed => exact absurd (hscope ▸ hfailed) h.isOpen
  | duplicateInFlight hactive =>
    -- a handler or the channel has the message already
    simp only [afterBegin, Option.toList_none, List.append_nil]
    have hsome : s.store.receive.active f.key ≠ none := fun hnone => by
      cases hactive.symm.trans hnone
    refine Progress.arrive (h.put hordered hkept fun _ _ _ => hsome) fun hmem => ?_
    exact (arrived_of_record h hordered hmem hsome :)
  | @duplicateProcessed kept' hkept' hprocessed =>
    -- the message is finished
    simp only [afterBegin, Option.toList_some]
    have hold : Progress scope (orderedFrames frames) (s.store.receive.remember kept') s.tasks
        arrivals events :=
      h.frame rfl rfl (fun _ _ => Iff.rfl) fun _ _ hmem => hkept (hkept' hmem)
    refine Progress.arrive (hold.retask ?_ ?_) fun hmem => Or.inl ?_
    · rw [held_append]
      exact (List.append_nil _).symm ▸ .refl _
    · simp_all
    · refine h.admission.finished hmem ?_
      subst hscope
      exact hkept hprocessed
  | capacityExceeded => cases hlimit
  | new deadline _ hnone =>
    simp only [afterBegin]
    split_ifs with hpolicy
    · have hmem : f ∈ orderedFrames frames := mem_orderedFrames.mpr ⟨hf, hpolicy⟩
      refine Progress.arrive (h.enroll hordered htracked hkept hmem hnone) fun _ => ?_
      refine Or.inr (Or.inr (Or.inr ?_))
      rw [Option.toList_some, held_append]
      exact List.mem_append_right _ List.mem_cons_self
    · rw [Option.toList_none, List.append_nil]
      have hother := key_ne_of_not_ordered hframes hf hpolicy
      refine Progress.arrive (h.put hordered hkept fun g hg hkey => ?_) fun hmem => ?_
      · exact absurd hkey (hother g hg)
      · grind

/-- A handler among the others. -/
theorem perm_of_getElem? {index : ℕ} {task : HandlerTask}
    (h : tasks[index]? = some task) : tasks.Perm (task :: tasks.eraseIdx index) := by
  grind [List.getElem_cons_eraseIdx_perm]

theorem Progress.perm {tasks' : List HandlerTask}
    (h : Progress scope frames r tasks arrivals events) (hperm : tasks.Perm tasks') :
    Progress scope frames r tasks' arrivals events :=
  h.retask (hperm.filterMap _) fun hmem => Or.inl (hperm.mem_iff.mpr hmem)

/-- The handler of `m` goes on to take it back. -/
theorem Progress.refuse {m : OrderedMessage}
    (h : Progress scope frames r (.accepting m :: tasks) arrivals events)
    {result : OrderedInsertResult} (hresult : result = .rejected ∨
      result = .duplicate ∧ m.sequence < (r.view scope).expectedSequence) :
    Progress scope frames r (tasks ++ [.rejecting m result]) arrivals events := by
  refine h.retask ?_ fun {m' result'} hmem => ?_
  · rw [held_append]
    exact (List.perm_append_singleton m (held tasks)).symm
  · grind

/-- The insertion of an admitted message. -/
theorem progress_accept (hframes : Frames scope frames) {store : DeliveryStore} {m : OrderedMessage}
    (h : Progress scope frames store.receive (.accepting m :: tasks) arrivals events) (now : ℕ) :
    Progress scope frames (acceptOrderedAt config store m now).1.receive
      (tasks ++ (afterAccept m (acceptOrderedAt config store m now).2).1.toList) arrivals
      (events ++ receiveLog (.accept m now, .inserted (acceptOrderedAt config store m now).2)) := by
  have hm : m ∈ frames := h.admission.frame List.mem_cons_self
  obtain rfl := hframes.scope_eq hm
  -- the store refuses, or the channel takes the message as ready, into its buffer, or not at all
  obtain heq | ⟨ch, result, hinsert, hresult, ⟨rfl, hstep⟩ | ⟨rfl, hstep⟩ | ⟨hrefused, -, heq⟩⟩ :=
    acceptOrderedAt_steps config store m now
  · rw [heq]
    exact (List.append_nil events).symm ▸ h.refuse (Or.inl rfl)
  · rw [hresult]
    generalize (acceptOrderedAt config store m now).1.receive = r' at hstep ⊢
    cases hstep with
    | ready deadline _ _ hinsert' =>
      cases hinsert.symm.trans hinsert'
      simp only [afterAccept, Option.toList_none, List.append_nil]
      refine h.settle hframes ?_ ?_ ?_ Receive.records_put_self (Or.inr rfl)
      · rfl
      · rfl
      · change Placed frames m _ (Receive.view (Receive.setChannel _ _ _) _)
        grind [Receive.view_setChannel_self, placed_of_ready]
  · rw [hresult]
    generalize (acceptOrderedAt config store m now).1.receive = r' at hstep ⊢
    cases hstep with
    | buffer _ _ hinsert' =>
      cases hinsert.symm.trans hinsert'
      simp only [afterAccept, Option.toList_none, List.append_nil]
      refine h.settle hframes ?_ ?_ ?_ Receive.records_put_self (Or.inl rfl)
      · rfl
      · rfl
      · change Placed frames m _ (Receive.view (Receive.setChannel _ _ _) _)
        grind [Receive.view_setChannel_self, placed_of_buffered]
  · rw [hresult, heq]
    have hsame : Progress m.scope frames (store.receive.setChannel m.scope
        (store.receive.view m.scope)) (.accepting m :: tasks) arrivals events := by
      refine h.frame rfl ?_ (fun _ _ => Iff.rfl) fun _ _ hmem => hmem
      rw [Receive.view_setChannel_self]
    obtain rfl | rfl := hrefused
    -- a handler holds the message, so the channel does not: the duplicate is a finished one
    · have hdone : m.sequence < (store.receive.view m.scope).expectedSequence := by
        obtain hlt | hflight | ⟨m', hget, hid⟩ := OrderedChannelState.insert_duplicate hinsert
        · exact hlt
        · exact absurd hflight (h.admission.not_inFlight List.mem_cons_self)
        · exact absurd ⟨_, m', hget, hid⟩ (h.admission.not_holds List.mem_cons_self)
      refine (List.append_nil events).symm ▸ hsame.refuse (Or.inr ⟨rfl, ?_⟩)
      simp_all
    · exact (List.append_nil events).symm ▸ hsame.refuse (Or.inl rfl)

/-- A suspended handler goes on. -/
theorem progress_resume (hframes : Frames scope frames)
    (h : Progress scope frames s.store.receive s.tasks arrivals events) (index now : ℕ)
    (hlimit : LimitFailure (inboundStep config s (.resume index now)).2 = false) :
    Progress scope frames (inboundStep config s (.resume index now)).1.store.receive
      (inboundStep config s (.resume index now)).1.tasks arrivals
      (events ++ inboundLog (.resume index now, (inboundStep config s (.resume index now)).2)) := by
  rw [inboundStep_log config s _ (by simp)]
  simp only [inboundStep, inboundOp] at hlimit ⊢
  cases htask : s.tasks[index]? with
  | none => exact (List.append_nil events).symm ▸ h
  | some task =>
    have hfirst := h.perm (perm_of_getElem? htask)
    rw [htask] at hlimit
    cases task with
    | accepting m => exact progress_accept hframes hfirst now
    | rejecting m result =>
      obtain rfl | ⟨rfl, -⟩ := hfirst.rejecting List.mem_cons_self
      · cases hlimit
      · simp only [HandlerTask.run, Option.toList_none, List.append_nil]
        rw [rejectIncoming, receive_eraseActive]
        exact (List.append_nil events).symm ▸ hfirst.reject hframes
    | acking m =>
      have hrest : Progress scope frames s.store.receive (s.tasks.eraseIdx index) arrivals events :=
        hfirst.retask (.refl _) fun hmem => Or.inl (List.mem_cons_of_mem _ hmem)
      grind [HandlerTask.run]

/-- The in-flight message of the channel is one of `frames`, with the expected sequence. -/
theorem exists_inFlight (h : Progress scope frames r tasks arrivals events)
    (hrelease : ReleaseState config scope r events) {messageId : MessageId}
    (hflight : (r.view scope).inFlight = some messageId) :
    ∃ f ∈ frames, .released f ∈ events ∧ f.messageId = messageId ∧
      f.sequence = (r.view scope).expectedSequence := by
  obtain ⟨before, f, after, hlog, hkey, hseq⟩ :=
    hrelease.release.channelLog.current messageId hflight
  have hmem : ReceiveEvent.released f ∈ events := by
    rw [hlog]
    simp
  exact ⟨f, h.released hmem, hmem, congrArg DedupKey.messageId hkey, hseq⟩

variable {key : DedupKey}

/-- A completion on another channel. -/
theorem Progress.elsewhere {r' : Receive}
    (h : Progress scope frames r tasks arrivals events)
    (hscope : scope ≠ key.scope) (hfailed : r'.failed = r.failed)
    (hview : r'.view scope = r.view scope) (hrecords : r'.records scope = r.records scope)
    (hprocessed : r'.processed ⊆ insert key r.processed) :
    Progress scope frames r' tasks arrivals events := by
  refine h.frame hfailed hview (fun f _ => by rw [hrecords]) fun f _ hmem => ?_
  refine (hprocessed hmem).resolve_left fun heq => hscope ?_
  exact congrArg DedupKey.scope heq

variable {next : Option OrderedMessage}

theorem scopeLog_elsewhere (hscope : scope ≠ key.scope)
    (hnext : ∀ m ∈ next, m.scope = key.scope)
    (log : List ReceiveEvent) :
    scopeLog scope (log ++ completionLog key next) = scopeLog scope log := by
  have hnil : scopeLog scope (completionLog key next) = [] := by
    refine scopeLog_of_ne fun event hevent => ?_
    obtain rfl | hmem := List.mem_cons.mp hevent
    · exact fun heq => hscope (Option.some.inj heq).symm
    · obtain ⟨m, hm, rfl⟩ := List.mem_map.mp hmem
      exact fun heq =>
        hscope ((Option.some.inj heq).symm.trans (hnext m (Option.mem_toList.mp hm)))
  rw [scopeLog_append, hnil, List.append_nil]

theorem scopeLog_here (hscope : key.scope = scope)
    (hnext : ∀ m ∈ next, m.scope = key.scope)
    (log : List ReceiveEvent) :
    scopeLog scope (log ++ completionLog key next) =
      scopeLog scope log ++ completionLog key next := by
  rw [scopeLog_append]
  congr 1
  refine scopeLog_of_eq fun event hevent => ?_
  obtain rfl | hmem := List.mem_cons.mp hevent
  · exact congrArg some hscope
  · obtain ⟨m, hm, rfl⟩ := List.mem_map.mp hmem
    exact congrArg some ((hnext m (Option.mem_toList.mp hm)).trans hscope)

section Complete

variable {ordered : List OrderedMessage} {log : List ReceiveEvent} {ch : OrderedChannelState}

section

variable (hframes : Frames scope ordered)
  (h : Progress scope ordered r tasks arrivals (scopeLog scope log))

include hframes h

/-- A message outside the ordered ones is completed on an idle channel. -/
theorem progress_finish (htracked : (r.view scope).Tracked (r.records scope))
    (hfree : ∀ m ∈ held tasks, m.key ≠ key) (hactive : r.active key = some record)
    (hstate : record.state ≠ .orderedBuffered)
    (hidle : ∀ ch, r.channel key.scope = some ch → ch.inFlight = none)
    (hkept : kept ⊆ insert key r.processed) :
    Progress scope ordered ((r.drop key).remember kept) tasks arrivals
      (scopeLog scope (log ++ completionLog key none)) := by
  by_cases hscope : scope = key.scope
  · subst hscope
    have hview : (r.view key.scope).inFlight = none := by
      unfold view
      cases hch : r.channel key.scope with
      | none => rfl
      | some ch => exact hidle ch hch
    -- an ordered message with a record is held, in flight or buffered; this one is none of these
    have hother : ∀ f ∈ ordered, f.key ≠ key := by
      rintro f hf rfl
      have hrecord : r.records f.key.scope f.messageId = some record := hactive
      obtain hheld | hflight | hholds := h.admission.known hf (by rw [hrecord]; exact nofun)
      · exact hfree f hheld rfl
      · cases hview.symm.trans hflight
      · obtain ⟨found, hfound, hbuffered⟩ := htracked.buffered_iff.mpr hholds
        simp_all
    rw [scopeLog_here rfl (by simp)]
    have hframe : Progress key.scope ordered ((r.drop key).remember kept) tasks arrivals
        (scopeLog key.scope log) := by
      refine h.frame rfl rfl (fun f hf => ?_) fun f hf hmem => ?_
      · have hne : key.scope.key f.messageId ≠ key := by
          rw [← hframes.scope_eq hf]
          exact hother f hf
        simp [Receive.records, hne]
      · refine (hkept hmem).resolve_left fun heq => hother f hf ?_
        rw [f.key_eq, hframes.scope_eq hf]
        exact heq
    exact hframe.completeOther hother
  · rw [scopeLog_elsewhere hscope (by simp)]
    exact h.elsewhere hscope rfl rfl (Receive.records_drop_of_ne hscope) hkept

/-- The in-flight message of the channel is completed. -/
theorem progress_inFlight (hrelease : ReleaseState config scope r (scopeLog scope log))
    (hscope : key.scope = scope) (hflight : (r.view scope).inFlight = some key.messageId)
    {r' : Receive} (hfailed : r'.failed = r.failed)
    (hview : r'.view scope = ((r.view scope).acknowledge key.messageId).1)
    (hnone : r'.active key = none)
    (hrecords : ∀ g ∈ ordered, g.key ≠ key → (r'.active g.key = none ↔ r.active g.key = none))
    (hprocessed : r'.processed ⊆ insert key r.processed) (hnext : ∀ m ∈ next, m ∈ ordered) :
    Progress scope ordered r' tasks arrivals (scopeLog scope (log ++ completionLog key next)) := by
  obtain ⟨f, hf, -, hid, hseq⟩ := exists_inFlight h hrelease hflight
  have hkey : f.key = key := by
    rw [f.key_eq, hframes.scope_eq hf, hid, ← hscope, DedupKey.scope_key]
  have hrecord : ∀ g ∈ ordered, ∀ r : Receive,
      r.records scope g.messageId = r.active g.key := by
    intro g hg r
    rw [g.key_eq, hframes.scope_eq hg]
    rfl
  rw [scopeLog_here hscope fun m hm => (hframes.scope_eq (hnext m hm)).trans hscope.symm, ← hkey]
  refine h.acknowledge hframes hf (hid ▸ hflight) hseq hfailed (hid ▸ hview) ?_ ?_ ?_ hnext
  · rw [hrecord f hf, hkey]
    exact hnone
  · intro g hg hgf
    rw [hrecord g hg, hrecord g hg]
    refine hrecords g hg fun heq => hgf ?_
    exact hframes.id_inj hg hf (congrArg DedupKey.messageId (heq.trans hkey.symm))
  · rw [hkey]
    exact hprocessed

end

/-- **The application completes a message** that no handler holds. -/
theorem progress_complete (hframes : Frames scope ordered) (hwf : r.WellFormed config)
    (h : Progress scope ordered r tasks arrivals (scopeLog scope log))
    (hrelease : ReleaseState config scope r (scopeLog scope log))
    (htracked : (r.view scope).Tracked (r.records scope))
    (hfree : ∀ m ∈ held tasks, m.key ≠ key) {a : ReceiveAction} {r' : Receive}
    (ha : (∃ next, a = .finish key next) ∨ a = .stall key) (hstep : Step config r a r') :
    Progress scope ordered r' tasks arrivals (scopeLog scope (log ++ a.log)) := by
  have hview : ∀ {ch}, r.channel key.scope = some ch → r.view key.scope = ch := by
    grind [view]
  obtain ⟨next, rfl⟩ | rfl := ha
  · cases hstep with
    | finish hactive hstate hidle hkept =>
      exact progress_finish hframes h htracked hfree hactive hstate hidle hkept
    | @advance _ _ ch kept hactive hch hflight hnext hkept =>
      by_cases hscope : scope = key.scope
      · subst hscope
        refine progress_inFlight hframes h hrelease rfl ?_ ?_ ?_ ?_ ?_ hkept (by simp)
        · rw [hview hch]
          exact hflight
        · rfl
        · rw [hview hch]
          exact view_setChannel_self r key.scope _
        · simp
        · intro g _ hg
          simp [hg]
      · rw [ReceiveAction.log, scopeLog_elsewhere hscope (by simp)]
        exact h.elsewhere hscope rfl (view_setChannel_of_ne hscope r _)
          (records_drop_of_ne hscope) hkept
    | @promote _ _ next ch message kept deadline hactive hch hflight hnext hrecord hstate hne
        hkept =>
      have hmessage : message.scope = key.scope := (hwf _ _ hch).scope_eq hnext
      by_cases hscope : scope = key.scope
      · subst hscope
        refine progress_inFlight hframes h hrelease rfl ?_ ?_ ?_ ?_ ?_ hkept ?_
        · rw [hview hch]
          exact hflight
        · rfl
        · rw [hview hch]
          exact view_setChannel_self r key.scope _
        · simp [Ne.symm hne]
        · intro g _ hg
          by_cases hgm : g.key = message.key
          · simp [hgm, hrecord]
          · simp [hg, hgm]
        · rintro m ⟨⟩
          exact h.admission.buffered (hview hch ▸ hnext)
      · rw [ReceiveAction.log, scopeLog_elsewhere hscope (by simpa using hmessage)]
        refine h.elsewhere hscope rfl (view_setChannel_of_ne hscope r _) ?_ hkept
        funext id
        have hkey : scope.key id ≠ key := fun heq => hscope (congrArg DedupKey.scope heq)
        have hnew : scope.key id ≠ message.key := by
          intro heq
          exact hscope ((congrArg DedupKey.scope heq).trans hmessage)
        simp [records, hkey, hnew]
  · cases hstep with
    | @stall _ record ch message hactive hch hflight hnext heq hstate =>
      by_cases hscope : scope = key.scope
      · subst hscope
        -- a message in flight is not marked as buffered, so this channel never stalls
        exact absurd hstate
          (hrelease.record (hview hch ▸ hflight) (DedupKey.scope_key key ▸ hactive))
      · have hlog : log ++ (ReceiveAction.stall key).log = log := List.append_nil log
        rw [hlog]
        exact h.elsewhere hscope rfl (Receive.view_setChannel_of_ne hscope r _)
          (Receive.records_drop_of_ne hscope) (Set.subset_insert _ _)

end Complete

end Sections

end SshMobile.Channel
