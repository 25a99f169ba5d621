import SshMobile.Delivery.Consistency

/-!
# The admission of ordered messages

One ordered channel, the messages its sender has for it, and the handlers that are admitting some of
them. A handler holds a message that has a record and that the channel does not hold yet. Every
message that has arrived is finished, in flight, in the buffer or held by a handler, and a message
that was completed is finished. So when no handler is left and nothing is in flight, the messages
that are not finished wait in the buffer.

## Main definitions

* `Frames`: the ordered messages of a sender, with different identifiers and sequences
* `Admission`: the agreement of the channel, the records and the handlers
* `Arrived`: where a message is that has arrived

## Main results

* `Admission.enroll`, `Admission.settle`, `Admission.reject`, `Admission.acknowledge`: the steps of
  a channel keep the agreement
* `Arrived.finished`: at rest every arrived message is finished, unless its predecessor never came
-/

namespace SshMobile.Delivery

open Library

/-- Messages of one channel that differ in their identifiers and in their sequences. -/
structure Frames (scope : Scope) (frames : List OrderedMessage) : Prop where
  scope_eq : ∀ {f}, f ∈ frames → f.scope = scope
  id_inj : ∀ {f g}, f ∈ frames → g ∈ frames → f.messageId = g.messageId → f = g
  sequence_inj : ∀ {f g}, f ∈ frames → g ∈ frames → f.sequence = g.sequence → f = g
  sequence_lt : ∀ {f}, f ∈ frames → f.sequence < u64Max

/-- **The admission of the messages `frames`**: `held` are the messages of the handlers. -/
structure Admission (frames : List OrderedMessage)
    (records : MessageId → Option ActiveIncomingRecord) (processed : Set MessageId)
    (ch : OrderedChannelState) (held : List OrderedMessage) : Prop where
  frame : ∀ {m}, m ∈ held → m ∈ frames
  nodup : held.Nodup
  record : ∀ {m}, m ∈ held → records m.messageId ≠ none
  not_inFlight : ∀ {m}, m ∈ held → ch.inFlight ≠ some m.messageId
  not_holds : ∀ {m}, m ∈ held → ¬ ch.Holds m.messageId
  known : ∀ {f}, f ∈ frames → records f.messageId ≠ none →
    f ∈ held ∨ ch.inFlight = some f.messageId ∨ ch.Holds f.messageId
  finished : ∀ {f}, f ∈ frames → f.messageId ∈ processed → f.sequence < ch.expectedSequence
  buffered : ∀ {seq m}, ch.reorderBuffer.get? seq = some m → m ∈ frames

/-- Where an arrived message is: finished, in flight, in the buffer, or held by a handler. -/
def Arrived (ch : OrderedChannelState) (held : List OrderedMessage) (f : OrderedMessage) : Prop :=
  f.sequence < ch.expectedSequence ∨ ch.inFlight = some f.messageId ∨ ch.Holds f.messageId ∨
    f ∈ held

/-- The channel takes the message `m`, and nothing changes for the others. -/
structure Placed (frames : List OrderedMessage) (m : OrderedMessage)
    (ch ch' : OrderedChannelState) : Prop where
  expected_eq : ch'.expectedSequence = ch.expectedSequence
  inFlight_iff : ∀ {f}, f ∈ frames → f ≠ m →
    (ch'.inFlight = some f.messageId ↔ ch.inFlight = some f.messageId)
  holds_iff : ∀ {f}, f ∈ frames → f ≠ m → (ch'.Holds f.messageId ↔ ch.Holds f.messageId)
  placed : ch'.inFlight = some m.messageId ∨ ch'.Holds m.messageId
  buffered : ∀ {seq f}, ch'.reorderBuffer.get? seq = some f →
    ch.reorderBuffer.get? seq = some f ∨ f = m

variable {scope : Scope} {frames : List OrderedMessage} {ch ch' : OrderedChannelState}
  {m : OrderedMessage} {maxMessages maxBytes maxGap : ℕ}

section Placed

theorem placed_of_ready (hframes : Frames scope frames) (hm : m ∈ frames)
    (hinsert : ch.insert m maxMessages maxBytes maxGap = (ch', .ready)) :
    Placed frames m ch ch' := by
  obtain ⟨-, hnone, rfl⟩ := OrderedChannelState.insert_ready hinsert
  constructor
  · rfl
  · intro f hf hfm
    rw [hnone]
    refine iff_of_false (fun hid => hfm ?_) nofun
    exact (hframes.id_inj hm hf (Option.some.inj hid)).symm
  · exact fun _ _ => Iff.rfl
  · exact Or.inl rfl
  · exact Or.inl

theorem placed_of_buffered (hframes : Frames scope frames) (hm : m ∈ frames)
    (hinsert : ch.insert m maxMessages maxBytes maxGap = (ch', .buffered)) :
    Placed frames m ch ch' := by
  have hholds := fun id => OrderedChannelState.holds_of_buffered id hinsert
  obtain ⟨-, -, rfl⟩ := OrderedChannelState.insert_buffered hinsert
  constructor
  · rfl
  · exact fun _ _ => Iff.rfl
  · intro f hf hfm
    rw [hholds, or_iff_right]
    exact fun hid => hfm (hframes.id_inj hf hm hid)
  · exact Or.inr ((hholds _).mpr (Or.inl rfl))
  · intro seq f hget
    rw [Table.get?_insert] at hget
    split_ifs at hget
    · cases hget
      exact Or.inr rfl
    · exact Or.inl hget

end Placed

variable {held rest : List OrderedMessage} {records : MessageId → Option ActiveIncomingRecord}
  {processed : Set MessageId} {f : OrderedMessage}

namespace Admission

variable {records' : MessageId → Option ActiveIncomingRecord} {processed' : Set MessageId}
  {record : ActiveIncomingRecord}

theorem nil (frames : List OrderedMessage) :
    Admission frames (fun _ => none) ∅ .default [] where
  frame := fun h => by cases h
  nodup := .nil
  record := fun h => by cases h
  not_inFlight := fun h => by cases h
  not_holds := fun h => by cases h
  known := fun _ h => absurd rfl h
  finished := fun _ h => by cases h
  buffered := fun h => by simp [OrderedChannelState.default] at h

section

variable (h : Admission frames records processed ch held)

include h

theorem perm {held' : List OrderedMessage} (hperm : held.Perm held') :
    Admission frames records processed ch held' where
  frame := fun hm => h.frame (hperm.mem_iff.mpr hm)
  nodup := hperm.nodup h.nodup
  record := fun hm => h.record (hperm.mem_iff.mpr hm)
  not_inFlight := fun hm => h.not_inFlight (hperm.mem_iff.mpr hm)
  not_holds := fun hm => h.not_holds (hperm.mem_iff.mpr hm)
  known := fun hf hrecord => (h.known hf hrecord).imp_left hperm.mem_iff.mp
  finished := h.finished
  buffered := h.buffered

/-- Records may change as long as none of `frames` comes or goes, and the history may shrink. -/
theorem frame_records
    (hrecords : ∀ f ∈ frames, records' f.messageId = none ↔ records f.messageId = none)
    (hprocessed : ∀ f ∈ frames, f.messageId ∈ processed' → f.messageId ∈ processed) :
    Admission frames records' processed' ch held where
  frame := h.frame
  nodup := h.nodup
  record := fun hm => mt (hrecords _ (h.frame hm)).mp (h.record hm)
  not_inFlight := h.not_inFlight
  not_holds := h.not_holds
  known := fun hf hrecord => h.known hf (mt (hrecords _ hf).mpr hrecord)
  finished := fun hf hmem => h.finished hf (hprocessed _ hf hmem)
  buffered := h.buffered

/-- A message without a record gets one and a handler. -/
theorem enroll (hframes : Frames scope frames) (htracked : ch.Tracked records) (hm : m ∈ frames)
    (hnone : records m.messageId = none) :
    Admission frames (Function.update records m.messageId (some record)) processed ch
      (m :: held) where
  frame := by
    rintro f (_ | ⟨_, hf⟩)
    · exact hm
    · exact h.frame hf
  nodup := List.nodup_cons.mpr ⟨fun hmem => h.record hmem hnone, h.nodup⟩
  record := by
    intro f hf
    by_cases hid : f.messageId = m.messageId
    · simp [hid]
    · rw [Function.update_of_ne hid]
      obtain rfl | hf := List.mem_cons.mp hf
      · exact absurd rfl hid
      · exact h.record hf
  not_inFlight := by
    intro f hf hflight
    -- what the channel has in flight or in its buffer has a record, and the new message had none
    obtain rfl | hf := List.mem_cons.mp hf
    · obtain ⟨found, hfound, -⟩ := htracked.inFlight hflight
      cases hnone.symm.trans hfound
    · exact h.not_inFlight hf hflight
  not_holds := by
    intro f hf hholds
    obtain rfl | hf := List.mem_cons.mp hf
    · obtain ⟨found, hfound, -⟩ := htracked.buffered_iff.mpr hholds
      cases hnone.symm.trans hfound
    · exact h.not_holds hf hholds
  known := by
    intro f hf hrecord
    by_cases hid : f.messageId = m.messageId
    · exact Or.inl (hframes.id_inj hf hm hid ▸ List.mem_cons_self)
    · rw [Function.update_of_ne hid] at hrecord
      exact (h.known hf hrecord).imp_left (List.mem_cons_of_mem m)
  finished := h.finished
  buffered := h.buffered

end

section

variable (h : Admission frames records processed ch (m :: rest)) (hframes : Frames scope frames)

include h hframes

/-- The handler of `m` ends, and the channel holds `m` in its place. -/
theorem settle (hplaced : Placed frames m ch ch') :
    Admission frames (Function.update records m.messageId (some record)) processed ch' rest := by
  have hne : ∀ {f}, f ∈ rest → f ≠ m := by
    rintro f hf rfl
    exact (List.nodup_cons.mp h.nodup).1 hf
  have hrest : ∀ {f}, f ∈ rest → f ∈ frames := fun hf => h.frame (List.mem_cons_of_mem m hf)
  have hmframe : m ∈ frames := h.frame List.mem_cons_self
  constructor
  · exact hrest
  · exact (List.nodup_cons.mp h.nodup).2
  · intro f hf
    by_cases hid : f.messageId = m.messageId
    · simp [hid]
    · rw [Function.update_of_ne hid]
      exact h.record (List.mem_cons_of_mem m hf)
  · intro f hf
    rw [ne_eq, hplaced.inFlight_iff (hrest hf) (hne hf)]
    exact h.not_inFlight (List.mem_cons_of_mem m hf)
  · intro f hf
    rw [hplaced.holds_iff (hrest hf) (hne hf)]
    exact h.not_holds (List.mem_cons_of_mem m hf)
  · intro f hf hrecord
    by_cases hfm : f = m
    -- the channel has taken the message over from its handler
    · exact Or.inr (hfm ▸ hplaced.placed)
    · have hid : f.messageId ≠ m.messageId := fun hid => hfm (hframes.id_inj hf hmframe hid)
      rw [Function.update_of_ne hid] at hrecord
      rw [hplaced.inFlight_iff hf hfm, hplaced.holds_iff hf hfm]
      exact (h.known hf hrecord).imp_left (List.mem_of_ne_of_mem hfm)
  · intro f hf hmem
    rw [hplaced.expected_eq]
    exact h.finished hf hmem
  · intro seq f hget
    obtain hold | rfl := hplaced.buffered hget
    · exact h.buffered hold
    · exact hmframe

/-- The handler of `m` takes it back. -/
theorem reject :
    Admission frames (Function.update records m.messageId none) processed ch rest := by
  have hmframe : m ∈ frames := h.frame List.mem_cons_self
  constructor
  · exact fun hf => h.frame (List.mem_cons_of_mem m hf)
  · exact (List.nodup_cons.mp h.nodup).2
  · intro f hf
    have hid : f.messageId ≠ m.messageId := by
      intro hid
      cases hframes.id_inj (h.frame (List.mem_cons_of_mem m hf)) hmframe hid
      exact (List.nodup_cons.mp h.nodup).1 hf
    rw [Function.update_of_ne hid]
    exact h.record (List.mem_cons_of_mem m hf)
  · exact fun hf => h.not_inFlight (List.mem_cons_of_mem m hf)
  · exact fun hf => h.not_holds (List.mem_cons_of_mem m hf)
  · intro f hf hrecord
    have hid : f.messageId ≠ m.messageId := by
      intro hid
      simp [hid] at hrecord
    rw [Function.update_of_ne hid] at hrecord
    refine (h.known hf hrecord).imp_left fun hheld => ?_
    exact List.mem_of_ne_of_mem (fun heq => hid (congrArg _ heq)) hheld
  · exact h.finished
  · exact h.buffered

end

/-- The in-flight message is completed. -/
theorem acknowledge (h : Admission frames records processed ch held)
    (hframes : Frames scope frames) (hf : f ∈ frames) (hflight : ch.inFlight = some f.messageId)
    (hseq : f.sequence = ch.expectedSequence) (hnone : records' f.messageId = none)
    (hrecords : ∀ g ∈ frames, g ≠ f → (records' g.messageId = none ↔ records g.messageId = none))
    (hprocessed : ∀ g ∈ frames, g ≠ f → g.messageId ∈ processed' → g.messageId ∈ processed) :
    Admission frames records' processed' (ch.acknowledge f.messageId).1 held := by
  have hexpected : (ch.acknowledge f.messageId).1.expectedSequence = ch.expectedSequence + 1 := by
    rw [OrderedChannelState.expectedSequence_acknowledge hflight]
    exact saturatingAdd_of_le (hseq ▸ hframes.sequence_lt hf)
  have hne : ∀ {g}, g ∈ held → g ≠ f := by
    rintro g hg rfl
    exact h.not_inFlight hg hflight
  constructor
  · exact h.frame
  · exact h.nodup
  · intro g hg
    rw [ne_eq, hrecords g (h.frame hg) (hne hg)]
    exact h.record hg
  · intro g hg hnew
    exact h.not_holds hg (OrderedChannelState.holds_of_acknowledge_inFlight hflight hnew)
  · rintro g hg ⟨seq, m, hget, hm⟩
    exact h.not_holds hg
      ⟨seq, m, OrderedChannelState.reorderBuffer_of_acknowledge hflight hget, hm⟩
  · intro g hg hrecord
    have hgf : g ≠ f := by
      rintro rfl
      exact hrecord hnone
    rw [ne_eq, hrecords g hg hgf] at hrecord
    obtain hheld | hcurrent | hholds := h.known hg hrecord
    · exact Or.inl hheld
    -- only `f` was in flight
    · have hid := Option.some.inj (hflight.symm.trans hcurrent)
      exact absurd (hframes.id_inj hf hg hid).symm hgf
    · exact Or.inr (hholds.acknowledge hflight)
  · intro g hg hmem
    rw [hexpected]
    by_cases hgf : g = f
    · rw [hgf, hseq]
      exact Nat.lt_succ_self _
    · exact (h.finished hg (hprocessed g hg hgf hmem)).trans (Nat.lt_succ_self _)
  · exact fun hget => h.buffered (OrderedChannelState.reorderBuffer_of_acknowledge hflight hget)

end Admission

/-! ## The messages that have arrived -/

namespace Arrived

variable {g : OrderedMessage}

theorem mono {held' : List OrderedMessage} (h : Arrived ch held f) (hheld : held ⊆ held') :
    Arrived ch held' f :=
  h.imp_right (Or.imp_right (Or.imp_right fun hf => hheld hf))

/-- The handler of `m` ends, and the channel holds `m` in its place. -/
theorem settle (h : Arrived ch (m :: rest) f) (hf : f ∈ frames) (hplaced : Placed frames m ch ch') :
    Arrived ch' rest f := by
  by_cases hfm : f = m
  · subst hfm
    exact Or.inr (hplaced.placed.imp_right Or.inl)
  · unfold Arrived
    rw [hplaced.expected_eq, hplaced.inFlight_iff hf hfm, hplaced.holds_iff hf hfm]
    exact h.imp_right (Or.imp_right (Or.imp_right (List.mem_of_ne_of_mem hfm)))

/-- The handler of a finished message ends. -/
theorem reject (h : Arrived ch (m :: rest) f) (hm : m.sequence < ch.expectedSequence) :
    Arrived ch rest f := by
  by_cases hfm : f = m
  · exact Or.inl (hfm ▸ hm)
  · exact h.imp_right (Or.imp_right (Or.imp_right (List.mem_of_ne_of_mem hfm)))

theorem acknowledge (h : Arrived ch held f) (hframes : Frames scope frames) (hf : f ∈ frames)
    (hg : g ∈ frames) (hflight : ch.inFlight = some g.messageId)
    (hseq : g.sequence = ch.expectedSequence) : Arrived (ch.acknowledge g.messageId).1 held f := by
  have hexpected : (ch.acknowledge g.messageId).1.expectedSequence = ch.expectedSequence + 1 := by
    rw [OrderedChannelState.expectedSequence_acknowledge hflight]
    exact saturatingAdd_of_le (hseq ▸ hframes.sequence_lt hg)
  obtain hlt | hcurrent | hholds | hheld := h
  · exact Or.inl (by omega)
  · have hid := Option.some.inj (hflight.symm.trans hcurrent)
    obtain rfl := hframes.id_inj hg hf hid
    exact Or.inl (by omega)
  · exact Or.inr ((hholds.acknowledge hflight).imp_right Or.inl)
  · exact Or.inr (Or.inr (Or.inr hheld))

/-- **At rest**: no handler is left, nothing is in flight, and every message has arrived. When the
sequences have no gap, every message is finished and the buffer is empty. -/
theorem finished (hframes : Frames scope frames)
    (hadmission : Admission frames records processed ch [])
    (hbuffered : ch.Buffered scope maxBytes) (hidle : ch.inFlight = none)
    (harrived : ∀ f ∈ frames, Arrived ch [] f)
    (hgap : ∀ f ∈ frames, ∀ k < f.sequence, ∃ g ∈ frames, g.sequence = k) :
    (∀ f ∈ frames, f.sequence < ch.expectedSequence) ∧
      ∀ seq, ch.reorderBuffer.get? seq = none := by
  have hexpected : ∀ g ∈ frames, g.sequence ≠ ch.expectedSequence := by
    intro g hg hseq
    obtain hlt | hcurrent | ⟨seq, m, hget, hm⟩ | hheld := harrived g hg
    · omega
    · cases hidle.symm.trans hcurrent
    · cases hframes.id_inj (hadmission.buffered hget) hg hm
      have hown := hbuffered.sequence_eq hget
      have hgt := hbuffered.expected_lt hget
      omega
    · cases hheld
  have hdone : ∀ f ∈ frames, f.sequence < ch.expectedSequence := by
    intro f hf
    by_contra hge
    obtain heq | hgt := (not_lt.mp hge).eq_or_lt
    · exact hexpected f hf heq.symm
    · obtain ⟨g, hg, hseq⟩ := hgap f hf _ hgt
      exact hexpected g hg hseq
  refine ⟨hdone, fun seq => Option.eq_none_iff_forall_ne_some.mpr fun m hget => ?_⟩
  have hlt := hdone m (hadmission.buffered hget)
  have hown := hbuffered.sequence_eq hget
  have hgt := hbuffered.expected_lt hget
  omega

end Arrived

end SshMobile.Delivery
