import SshMobile.Delivery.Incoming

/-!
# The receive side, abstractly

What the receive side of a store means: which messages are active, which are remembered as
processed, the state of each ordered channel and the channels that have failed. Hash maps, byte
limits of the history and iteration orders are gone. The step relation says once what the critical
sections can do; every operation of the store is a path of such steps, so what each step preserves
holds in every run.

## Main definitions

* `Receive`, `DeliveryStore.receive`: the abstract state, and that of a store
* `Receive.Step`: one abstract step with its action
* `ReceiveEvent`, `ReceiveAction.log`, `receiveLog`: what the application sees

## Main results

* `receiveStep_refines`: every operation is one abstract step of its own action, or a path of quiet
  ones
* `ReceiveInvariant.receive_run`: what the abstract steps preserve holds after every run
-/

namespace SshMobile.Delivery

open Library

/-- The receive side of a store, as functions and sets. -/
@[ext] structure Receive where
  active : DedupKey → Option ActiveIncomingRecord
  processed : Set DedupKey
  channel : Scope → Option OrderedChannelState
  failed : Set Scope

/-- The receive side of the store. -/
def DeliveryStore.receive (store : DeliveryStore) : Receive where
  active := store.incomingActive.get?
  processed := {key | store.processedDedup.contains key}
  channel := store.ordered.get?
  failed := {scope | scope ∈ store.failedOrdered}

namespace Receive

/-- The state of the channel; a channel that does not exist yet starts from the default. -/
def view (r : Receive) (scope : Scope) : OrderedChannelState := (r.channel scope).getD .default

/-- The message is in flight on its ordered channel. -/
def InFlight (r : Receive) (key : DedupKey) : Prop :=
  ∃ ch, r.channel key.scope = some ch ∧ ch.inFlight = some key.messageId

/-- The message waits in the buffer of its ordered channel. -/
def Waiting (r : Receive) (key : DedupKey) : Prop :=
  ∃ ch seq m, r.channel key.scope = some ch ∧ ch.reorderBuffer.get? seq = some m ∧
    m.messageId = key.messageId

/-- No ordered channel holds the message. -/
def Detached (r : Receive) (key : DedupKey) : Prop := ¬ r.InFlight key ∧ ¬ r.Waiting key

/-- The messages a failing channel takes with it. -/
def Affected (r : Receive) (scope : Scope) (key : DedupKey) : Prop :=
  key.scope = scope ∨
    ∃ ch seq m, r.channel scope = some ch ∧ ch.reorderBuffer.get? seq = some m ∧ m.key = key

/-! ## The updates -/

def put (r : Receive) (key : DedupKey) (record : ActiveIncomingRecord) : Receive :=
  { r with active := fun k => if k = key then some record else r.active k }

def drop (r : Receive) (key : DedupKey) : Receive :=
  { r with active := fun k => if k = key then none else r.active k }

def setChannel (r : Receive) (scope : Scope) (ch : OrderedChannelState) : Receive :=
  { r with channel := fun c => if c = scope then some ch else r.channel c }

/-- The processed history is now `kept`. -/
def remember (r : Receive) (kept : Set DedupKey) : Receive := { r with processed := kept }

open Classical
noncomputable def fail (r : Receive) (scope : Scope) : Receive where
  active := fun key => if r.Affected scope key then none else r.active key
  processed := r.processed
  channel := fun c => if c = scope then none else r.channel c
  failed := insert scope r.failed

def close (r : Receive) (peerId : String) : Receive where
  active := fun key => if key.peerId = peerId then none else r.active key
  processed := {key | key ∈ r.processed ∧ key.peerId ≠ peerId}
  channel := fun c =>
    if c.1 = peerId then (r.channel c).map OrderedChannelState.clear else r.channel c
  failed := {scope | scope ∈ r.failed ∧ scope.1 ≠ peerId}

section Fields

variable (r : Receive) (key k : DedupKey) (record : ActiveIncomingRecord) (scope c : Scope)
  (ch : OrderedChannelState) (kept : Set DedupKey)

@[simp] theorem put_active :
    (r.put key record).active k = if k = key then some record else r.active k := rfl

@[simp] theorem drop_active :
    (r.drop key).active k = if k = key then none else r.active k := rfl

@[simp] theorem setChannel_active : (r.setChannel scope ch).active = r.active := rfl

@[simp] theorem setChannel_channel :
    (r.setChannel scope ch).channel c = if c = scope then some ch else r.channel c := rfl

@[simp] theorem remember_active : (r.remember kept).active = r.active := rfl

@[simp] theorem view_setChannel_self :
    (r.setChannel scope ch).view scope = ch := by
  simp [view]

variable {r scope ch} in
theorem view_of_channel (h : r.channel scope = some ch) : r.view scope = ch := by
  rw [view, h, Option.getD_some]

variable {r key scope} in
theorem fail_active_of_affected (h : r.Affected scope key) : (r.fail scope).active key = none :=
  if_pos h

variable {r key scope} in
theorem fail_active_of_not_affected (h : ¬ r.Affected scope key) :
    (r.fail scope).active key = r.active key :=
  if_neg h

@[simp] theorem fail_channel :
    (r.fail scope).channel c = if c = scope then none else r.channel c := rfl

@[simp] theorem fail_failed : (r.fail scope).failed = insert scope r.failed := rfl

end Fields

theorem view_setChannel_of_ne {scope other : Scope} (h : scope ≠ other) (r : Receive)
    (ch : OrderedChannelState) : (r.setChannel other ch).view scope = r.view scope := by
  simp [view, h]

end Receive

/-! ## Actions and steps -/

/-- What the application sees of the receive side: a message admitted as new, which goes to the
handler at once unless it is ordered, one that its ordered channel released, and a completed one. -/
inductive ReceiveEvent
  | admitted (key : DedupKey)
  | released (message : OrderedMessage)
  | completed (key : DedupKey)
deriving DecidableEq

/-- The actions of the receive side. The free ones are `internal`, `enroll` and `fail`. -/
inductive ReceiveAction
  | internal
  | enroll (key : DedupKey)
  | fail (scope : Scope)
  | reject (key : DedupKey)
  | ready (message : OrderedMessage)
  | buffer (message : OrderedMessage)
  | finish (key : DedupKey) (next : Option OrderedMessage)
  | stall (key : DedupKey)
  | close (peerId : String)

/-- The actions that no guard speaks of: an operation may take any number of them. -/
def ReceiveAction.Free : ReceiveAction → Prop
  | .internal | .enroll _ | .fail _ => True
  | _ => False

/-- The events of a completion: the message itself, then the one it releases. -/
def completionLog (key : DedupKey) (next : Option OrderedMessage) : List ReceiveEvent :=
  .completed key :: next.toList.map .released

def ReceiveAction.log : ReceiveAction → List ReceiveEvent
  | .enroll key => [.admitted key]
  | .ready message => [.released message]
  | .finish key next => completionLog key next
  | _ => []

/-- The events of one operation, read from its result. -/
def receiveLog : ReceiveOp × ReceiveResult → List ReceiveEvent
  | (.begin key _ _, .decision .new) => [.admitted key]
  | (.accept message _, .inserted .ready) => [.released message]
  | (.complete key _ _, .completion (some completion)) => completionLog key completion.nextOrdered
  | _ => []

/-- The operation is the one that asks for the action. -/
def ReceiveOp.Asks (op : ReceiveOp) : ReceiveAction → Prop
  | .reject key => op = .reject key
  | .ready message | .buffer message => ∃ now, op = .accept message now
  | .finish key _ | .stall key => ∃ now order, op = .complete key now order
  | .close peerId => op = .close peerId
  | .internal | .enroll _ | .fail _ => True

namespace Receive

/-- **One abstract step**: the actions of the receive side with what each requires and does. -/
inductive Step (config : DeliveryConfig) (r : Receive) : ReceiveAction → Receive → Prop
  | forget (kept : Set DedupKey) (hkept : kept ⊆ r.processed) :
    Step config r .internal (r.remember kept)
  | touch {key : DedupKey} {record : ActiveIncomingRecord} (epoch : ℕ)
    (hactive : r.active key = some record) :
    Step config r .internal (r.put key { record with recoveryEpoch := epoch })
  | enroll {key : DedupKey} (deadline epoch : ℕ) (hfailed : key.scope ∉ r.failed)
    (hactive : r.active key = none) (hprocessed : key ∉ r.processed) :
    Step config r (.enroll key) (r.put key ⟨some deadline, epoch, .inFlight⟩)
  | expire {key : DedupKey} {record : ActiveIncomingRecord} (hactive : r.active key = some record)
    (hstate : record.state = .inFlight) (hfree : ¬ r.InFlight key) :
    Step config r .internal (r.drop key)
  | abandon {key : DedupKey} (hfree : r.Detached key) : Step config r .internal (r.drop key)
  | fail (scope : Scope) : Step config r (.fail scope) (r.fail scope)
  | reject (key : DedupKey) : Step config r (.reject key) (r.drop key)
  | refuse {message : OrderedMessage} (hfailed : message.scope ∉ r.failed) :
    Step config r .internal
      (r.setChannel message.scope (r.view message.scope))
  | ready {message : OrderedMessage} {record : ActiveIncomingRecord} {ch : OrderedChannelState}
    (deadline : ℕ) (hfailed : message.scope ∉ r.failed)
    (hactive : r.active message.key = some record)
    (hinsert : (r.view message.scope).insert message config.maxReorderMessages
      config.maxReorderBytes config.maxSequenceGap = (ch, .ready)) :
    Step config r (.ready message) ((r.setChannel message.scope ch).put message.key
      { record with state := .inFlight, ackDeadline := some deadline })
  | buffer {message : OrderedMessage} {record : ActiveIncomingRecord} {ch : OrderedChannelState}
    (hfailed : message.scope ∉ r.failed) (hactive : r.active message.key = some record)
    (hinsert : (r.view message.scope).insert message config.maxReorderMessages
      config.maxReorderBytes config.maxSequenceGap = (ch, .buffered)) :
    Step config r (.buffer message) ((r.setChannel message.scope ch).put message.key
      { record with state := .orderedBuffered, ackDeadline := none })
  | finish {key : DedupKey} {record : ActiveIncomingRecord} {kept : Set DedupKey}
    (hactive : r.active key = some record) (hstate : record.state ≠ .orderedBuffered)
    (hidle : ∀ ch, r.channel key.scope = some ch → ch.inFlight = none)
    (hkept : kept ⊆ insert key r.processed) :
    Step config r (.finish key none) ((r.drop key).remember kept)
  | advance {key : DedupKey} {record : ActiveIncomingRecord} {ch : OrderedChannelState}
    {kept : Set DedupKey} (hactive : r.active key = some record)
    (hch : r.channel key.scope = some ch) (hflight : ch.inFlight = some key.messageId)
    (hnext : ch.reorderBuffer.get? ch.nextSequence = none)
    (hkept : kept ⊆ insert key r.processed) :
    Step config r (.finish key none)
      (((r.setChannel key.scope (ch.acknowledge key.messageId).1).drop key).remember kept)
  | promote {key : DedupKey} {record next : ActiveIncomingRecord} {ch : OrderedChannelState}
    {message : OrderedMessage} {kept : Set DedupKey} (deadline : ℕ)
    (hactive : r.active key = some record)
    (hch : r.channel key.scope = some ch) (hflight : ch.inFlight = some key.messageId)
    (hnext : ch.reorderBuffer.get? ch.nextSequence = some message)
    (hrecord : r.active message.key = some next) (hstate : next.state = .orderedBuffered)
    (hne : message.key ≠ key) (hkept : kept ⊆ insert key r.processed) :
    Step config r (.finish key (some message))
      ((((r.setChannel key.scope (ch.acknowledge key.messageId).1).drop key).put message.key
        { next with state := .inFlight, ackDeadline := some deadline }).remember kept)
  | stall {key : DedupKey} {record : ActiveIncomingRecord} {ch : OrderedChannelState}
    {message : OrderedMessage} (hactive : r.active key = some record)
    (hch : r.channel key.scope = some ch) (hflight : ch.inFlight = some key.messageId)
    (hnext : ch.reorderBuffer.get? ch.nextSequence = some message)
    (heq : message.key = key) (hstate : record.state = .orderedBuffered) :
    Step config r (.stall key)
      ((r.setChannel key.scope (ch.acknowledge key.messageId).1).drop key)
  | close (peerId : String) : Step config r (.close peerId) (r.close peerId)

end Receive

/-! ## The store updates, abstractly -/

open DeliveryStore

section Updates

variable (store : DeliveryStore)

@[simp] theorem receive_insertActive (key : DedupKey) (record : ActiveIncomingRecord) :
    receive { store with incomingActive := store.incomingActive.insert key record } =
      store.receive.put key record := by
  ext k
  · simp [receive, Receive.put, Table.get?_insert]
  all_goals rfl

@[simp] theorem receive_eraseActive (key : DedupKey) :
    receive { store with incomingActive := store.incomingActive.erase key } =
      store.receive.drop key := by
  ext k
  · simp [receive, Receive.drop, Table.get?_erase]
  all_goals rfl

@[simp] theorem receive_insertOrdered (scope : Scope) (ch : OrderedChannelState) :
    receive { store with ordered := store.ordered.insert scope ch } =
      store.receive.setChannel scope ch := by
  ext k
  all_goals simp [receive, Receive.setChannel, Table.get?_insert]

theorem receive_insertActive_insertOrdered (key : DedupKey) (record : ActiveIncomingRecord)
    (scope : Scope) (ch : OrderedChannelState) :
    receive { store with
        ordered := store.ordered.insert scope ch
        incomingActive := store.incomingActive.insert key record } =
      (store.receive.setChannel scope ch).put key record := by
  rw [← receive_insertOrdered, ← receive_insertActive]

theorem receive_eraseActive_insertOrdered (key : DedupKey) (scope : Scope)
    (ch : OrderedChannelState) :
    receive { store with
        ordered := store.ordered.insert scope ch
        incomingActive := store.incomingActive.erase key } =
      (store.receive.setChannel scope ch).drop key := by
  rw [← receive_insertOrdered, ← receive_eraseActive]

theorem receive_promoteActive (key next : DedupKey) (record : ActiveIncomingRecord)
    (scope : Scope) (ch : OrderedChannelState) :
    receive { store with
        ordered := store.ordered.insert scope ch
        incomingActive := (store.incomingActive.erase key).insert next record } =
      ((store.receive.setChannel scope ch).drop key).put next record := by
  rw [← receive_eraseActive_insertOrdered, ← receive_insertActive]

theorem mem_affectedKeys (scope : Scope) {key : DedupKey} {record : ActiveIncomingRecord}
    (hactive : store.incomingActive.get? key = some record) :
    key ∈ affectedKeys store scope ↔ store.receive.Affected scope key := by
  have hscope : key ∈ (store.incomingActive.toList.map Prod.fst).filter
      (fun key => decide (key.scope = scope)) ↔ key.scope = scope := by
    simp only [List.mem_filter, decide_eq_true_eq, and_iff_right_iff_imp]
    exact fun _ => List.mem_map.mpr ⟨(key, record), Table.mem_toList.mpr hactive, rfl⟩
  unfold affectedKeys Receive.Affected
  rw [List.mem_append, hscope, or_comm]
  refine or_congr_right' fun hne => ?_
  change _ ↔ ∃ ch seq m, store.ordered.get? scope = some ch ∧ _
  cases store.ordered.get? scope with
  | none => simp
  | some ch =>
    simp only [List.mem_append, List.mem_map, Option.mem_toList, Option.some.injEq, Prod.exists,
      Table.mem_toList]
    constructor
    · rintro (⟨messageId, -, rfl⟩ | ⟨seq, m, hm, rfl⟩)
      · exact absurd rfl hne
      · exact ⟨ch, seq, m, rfl, hm, rfl⟩
    · grind

theorem receive_failOrderedChannel (scope : Scope) :
    (failOrderedChannel store scope).1.receive = store.receive.fail scope := by
  refine Receive.ext ?_ rfl ?_ ?_
  · funext key
    change Table.get? (Table.retain _ _) key = _
    rw [Table.get?_retain_keys]
    cases hactive : store.incomingActive.get? key with
    | none =>
      have hnone : store.receive.active key = none := hactive
      grind [Receive.fail_active_of_affected, Receive.fail_active_of_not_affected]
    | some record =>
      have hmem := mem_affectedKeys store scope hactive
      by_cases h : store.receive.Affected scope key
      · rw [Receive.fail_active_of_affected h, if_neg (by simpa [hmem] using h)]
      · rw [Receive.fail_active_of_not_affected h, if_pos (by simpa [hmem] using h)]
        exact hactive.symm
  · funext c
    exact Table.get?_erase _ _ _
  · ext c
    exact Finset.mem_insert

theorem receive_closePeer (peerId : String) :
    (closePeer store peerId).receive = store.receive.close peerId := by
  ext k x
  · simp [closePeer, receive, Receive.close, Table.get?_retain_keys]
  · simp [closePeer, receive, Receive.close, Table.get?_retain_keys, and_comm]
  · simp only [closePeer, receive, Receive.close, Table.get?_mapValues]
    split_ifs <;> simp
  · simp [closePeer, receive, Receive.close]

end Updates

/-! ## The operations refine the steps -/

/-- A path of free steps, with its events. -/
def FreePath (config : DeliveryConfig) (r : Receive) (log : List ReceiveEvent) (r' : Receive) :
    Prop :=
  ∃ actions, Trace (Receive.Step config) r actions r' ∧ (∀ a ∈ actions, a.Free) ∧
    actions.flatMap ReceiveAction.log = log

variable {config : DeliveryConfig} {r r' : Receive}

namespace FreePath

variable {r'' : Receive} {log log' : List ReceiveEvent} {a : ReceiveAction}

theorem refl (r : Receive) : FreePath config r [] r := ⟨[], .nil r, by simp, rfl⟩

theorem single (ha : a.Free) (h : Receive.Step config r a r') : FreePath config r a.log r' :=
  ⟨[a], .single h, by simpa using ha, by simp⟩

theorem internal (h : Receive.Step config r .internal r') : FreePath config r [] r' :=
  .single (a := .internal) trivial h

theorem fail (r : Receive) (scope : Scope) : FreePath config r [] (r.fail scope) :=
  .single (a := .fail scope) trivial (.fail scope)

theorem trans (h₁ : FreePath config r log r') (h₂ : FreePath config r' log' r'') :
    FreePath config r (log ++ log') r'' := by
  obtain ⟨as, has, hfree, rfl⟩ := h₁
  obtain ⟨bs, hbs, hfree', rfl⟩ := h₂
  refine ⟨as ++ bs, has.append hbs, fun a ha => ?_, List.flatMap_append⟩
  exact (List.mem_append.mp ha).elim (hfree a) (hfree' a)

/-- The events of free steps are admissions. -/
theorem admitted (h : FreePath config r log r') {event : ReceiveEvent} (hevent : event ∈ log) :
    ∃ key, event = .admitted key := by
  obtain ⟨actions, -, hfree, rfl⟩ := h
  obtain ⟨a, ha, hmem⟩ := List.mem_flatMap.mp hevent
  have haction := hfree a ha
  cases a with
  | internal | fail => cases hmem
  | enroll key => exact ⟨key, List.mem_singleton.mp hmem⟩
  | _ => cases haction

end FreePath

/-- What an operation does abstractly: one step of an action it asks for, or free steps, with the
events it reports. -/
def Refined (config : DeliveryConfig) (op : ReceiveOp) (r r' : Receive)
    (log : List ReceiveEvent) : Prop :=
  (∃ a, op.Asks a ∧ a.log = log ∧ Receive.Step config r a r') ∨ FreePath config r log r'

section Operations

variable (config : DeliveryConfig) (store : DeliveryStore)

theorem isOrderedInFlight_iff (key : DedupKey) :
    isOrderedInFlight store key = true ↔ store.receive.InFlight key := by
  unfold isOrderedInFlight Receive.InFlight
  change _ ↔ ∃ ch, store.ordered.get? key.scope = some ch ∧ _
  cases store.ordered.get? key.scope <;> simp

theorem isOrdered_iff (key : DedupKey) :
    isOrdered store key = true ↔ store.receive.InFlight key ∨ store.receive.Waiting key := by
  unfold isOrdered Receive.InFlight Receive.Waiting
  change _ ↔ (∃ ch, store.ordered.get? key.scope = some ch ∧ _) ∨
    ∃ ch seq m, store.ordered.get? key.scope = some ch ∧ _
  cases store.ordered.get? key.scope <;> simp [Table.mem_toList]

/-! ### Expiry -/

variable {now : ℕ}

theorem timedOut_state {record : ActiveIncomingRecord} (h : record.timedOut now = true) :
    record.state = .inFlight := by
  grind [ActiveIncomingRecord.timedOut]

variable {peerId : Option String}

theorem mem_timedOutRecords
    {entry : DedupKey × ActiveIncomingRecord} (h : entry ∈ timedOutRecords store now peerId) :
    store.incomingActive.get? entry.1 = some entry.2 ∧ entry.2.state = .inFlight := by
  obtain ⟨hmem, hcond⟩ := List.mem_filter.mp h
  rw [Bool.and_eq_true] at hcond
  exact ⟨Table.mem_toList.mp hmem, timedOut_state hcond.2⟩

/-- A visit leaves the store as it is, or removes the record of a message that is not in flight on
an ordered channel. -/
theorem Expiry.visit_cases (acc : Expiry) (entry : DedupKey × ActiveIncomingRecord) :
    (acc.visit entry).store = acc.store ∨
    (¬ acc.store.receive.InFlight entry.1 ∧ (∃ r, acc.store.receive.active entry.1 = some r) ∧
      (acc.visit entry).store =
        { acc.store with incomingActive := acc.store.incomingActive.erase entry.1 }) := by
  unfold Expiry.visit
  split_ifs with hordered hactive
  · exact Or.inl rfl
  · refine Or.inr ⟨?_, Table.contains_eq_true.mp hactive, rfl⟩
    grind [isOrderedInFlight_iff]
  · exact Or.inl rfl

/-- The visits only remove records, and only those of the visited entries. -/
theorem expire_visits (entries : List (DedupKey × ActiveIncomingRecord)) (acc : Expiry)
    (h : ∀ entry ∈ entries, ∀ record, acc.store.receive.active entry.1 = some record →
      record.state = .inFlight) :
    FreePath config acc.store.receive [] (entries.foldl Expiry.visit acc).store.receive := by
  induction entries generalizing acc with
  | nil => exact .refl _
  | cons entry entries ih =>
    have hvisit := Expiry.visit_cases acc entry
    have hfirst : FreePath config acc.store.receive [] (acc.visit entry).store.receive := by
      obtain heq | ⟨hfree, ⟨record, hactive⟩, heq⟩ := hvisit
      · rw [heq]
        exact .refl _
      · rw [heq, receive_eraseActive]
        exact .internal (.expire hactive (h entry List.mem_cons_self record hactive) hfree)
    refine hfirst.trans (ih _ ?_)
    grind [receive_eraseActive, Receive.drop_active]

theorem expire_fails (scopes : List Scope) (acc : Expiry) :
    FreePath config acc.store.receive [] (scopes.foldl Expiry.fail acc).store.receive := by
  induction scopes generalizing acc with
  | nil => exact .refl _
  | cons scope scopes ih =>
    have hfail : FreePath config acc.store.receive [] (acc.fail scope).store.receive := by
      rw [Expiry.fail, receive_failOrderedChannel]
      exact .fail _ scope
    exact hfail.trans (ih (acc.fail scope))

theorem expireIncomingLocked_refines (now : ℕ) (peerId : Option String) :
    FreePath config store.receive [] (expireIncomingLocked store now peerId).1.receive := by
  refine FreePath.trans (expire_visits config (timedOutRecords store now peerId)
    ⟨store, [], []⟩ ?_) (expire_fails config _ _)
  intro entry hentry record hactive
  obtain ⟨hget, hstate⟩ := mem_timedOutRecords store hentry
  cases hget.symm.trans hactive
  exact hstate

/-! ### Admission -/

theorem receive_pruneProcessedDedup (now : ℕ) :
    ∃ kept ⊆ store.receive.processed,
      (pruneProcessedDedup store now).receive = store.receive.remember kept := by
  refine ⟨(pruneProcessedDedup store now).receive.processed, fun key hkey => ?_, rfl⟩
  obtain ⟨record, hrecord⟩ := Table.contains_eq_true.mp hkey
  exact Table.contains_eq_true.mpr ⟨record, (Table.get?_of_retain hrecord).1⟩

/-- **The decisions of an admission**, and what each of them does. -/
inductive Receive.Admitted (r : Receive) (key : DedupKey) (epoch : ℕ) :
    Receive → DedupDecision → Prop
  | channelFailed (hfailed : key.scope ∈ r.failed) : Admitted r key epoch r .channelFailed
  | duplicateInFlight {record : ActiveIncomingRecord} (hactive : r.active key = some record) :
    Admitted r key epoch (r.put key { record with recoveryEpoch := epoch }) .duplicateInFlight
  | duplicateProcessed {kept : Set DedupKey} (hkept : kept ⊆ r.processed)
    (hprocessed : key ∈ r.processed) : Admitted r key epoch (r.remember kept) .duplicateProcessed
  | capacityExceeded : Admitted r key epoch r .capacityExceeded
  | new (deadline : ℕ) (hfailed : key.scope ∉ r.failed) (hactive : r.active key = none)
    (hprocessed : key ∉ r.processed) :
    Admitted r key epoch (r.put key ⟨some deadline, epoch, .inFlight⟩) .new

variable {key : DedupKey}

theorem Receive.Admitted.free {epoch now : ℕ} {decision : DedupDecision}
    (h : r.Admitted key epoch r' decision) :
    FreePath config r (receiveLog (.begin key epoch now, .decision decision)) r' := by
  cases h with
  | channelFailed | capacityExceeded => exact .refl _
  | duplicateInFlight hactive => exact .internal (.touch epoch hactive)
  | duplicateProcessed hkept => exact .internal (.forget _ hkept)
  | new deadline hfailed hactive hprocessed =>
    exact .single (a := .enroll key) trivial (.enroll deadline epoch hfailed hactive hprocessed)

theorem Receive.Admitted.not_processed {epoch : ℕ} (h : r.Admitted key epoch r' .new) :
    key ∉ r.processed := by
  cases h with
  | new _ _ _ hprocessed => exact hprocessed

theorem admitted_admitIncoming (key : DedupKey) (epoch now : ℕ) :
    store.receive.Admitted key epoch (admitIncoming config store key epoch now).1.receive
      (admitIncoming config store key epoch now).2 := by
  unfold admitIncoming
  by_cases hfailed : key.scope ∈ store.failedOrdered
  · rw [if_pos hfailed]
    exact .channelFailed hfailed
  · rw [if_neg hfailed]
    cases hactive : store.incomingActive.get? key with
    | some record =>
      simp only [receive_insertActive]
      exact .duplicateInFlight hactive
    | none =>
      cases hprocessed : store.processedDedup.get? key with
      | some record =>
        -- the record of a processed message is refreshed in its place
        have hold := Table.contains_eq_true.mpr ⟨record, hprocessed⟩
        exact .duplicateProcessed (fun k hk => Table.contains_of_contains_insert hk hold) hold
      | none =>
        simp only
        split_ifs with hfull
        · exact .capacityExceeded
        · rw [receive_insertActive]
          refine .new _ hfailed hactive fun hmem => ?_
          obtain ⟨record, hrecord⟩ := Table.contains_eq_true.mp hmem
          simp_all

theorem beginIncoming_refines (key : DedupKey) (epoch now : ℕ) :
    FreePath config store.receive
      (receiveLog (.begin key epoch now, .decision (beginIncoming config store key epoch now).2))
      (beginIncoming config store key epoch now).1.receive := by
  obtain ⟨kept, hkept, heq⟩ := receive_pruneProcessedDedup
    (expireIncomingLocked store now (some key.peerId)).1 now
  have hadmitted := admitted_admitIncoming config
    (pruneProcessedDedup (expireIncomingLocked store now (some key.peerId)).1 now) key epoch now
  rw [heq] at hadmitted
  exact (expireIncomingLocked_refines config store now _).trans
    (.trans (.internal (.forget kept hkept)) (hadmitted.free config))

theorem expireIncomingLocked_live
    (h : timedOutRecords store now peerId = []) :
    (expireIncomingLocked store now peerId).1 = store := by
  simp [expireIncomingLocked, h]

/-- An admission when no record has timed out: old messages may be forgotten first. -/
theorem beginIncoming_live (key : DedupKey) (epoch now : ℕ)
    (hlive : timedOutRecords store now (some key.peerId) = []) :
    ∃ kept ⊆ store.receive.processed, (store.receive.remember kept).Admitted key epoch
      (beginIncoming config store key epoch now).1.receive
      (beginIncoming config store key epoch now).2 := by
  obtain ⟨kept, hkept, heq⟩ := receive_pruneProcessedDedup store now
  refine ⟨kept, hkept, ?_⟩
  rw [beginIncoming, expireIncomingLocked_live store hlive, ← heq]
  exact admitted_admitIncoming config _ key epoch now

/-! ### Insertion and completion -/

/-- An insertion does nothing without a record or on a failed channel; else the channel decides. -/
theorem acceptOrderedAt_steps (message : OrderedMessage) (now : ℕ) :
    (acceptOrderedAt config store message now = (store, .rejected)) ∨
    ∃ ch result, (store.receive.view message.scope).insert message config.maxReorderMessages
        config.maxReorderBytes config.maxSequenceGap = (ch, result) ∧
      (acceptOrderedAt config store message now).2 = result ∧
      ((result = .ready ∧ Receive.Step config store.receive (.ready message)
          (acceptOrderedAt config store message now).1.receive) ∨
        (result = .buffered ∧ Receive.Step config store.receive (.buffer message)
          (acceptOrderedAt config store message now).1.receive) ∨
        ((result = .duplicate ∨ result = .rejected) ∧ message.scope ∉ store.receive.failed ∧
          (acceptOrderedAt config store message now).1.receive =
            store.receive.setChannel message.scope (store.receive.view message.scope))) := by
  unfold acceptOrderedAt
  by_cases hvalid : (!isValidPeerId message.peerId || !isValidScopeId message.channelId) = true
  · rw [if_pos hvalid]
    exact Or.inl rfl
  rw [if_neg hvalid]
  by_cases hfailed : message.scope ∈ store.failedOrdered
  · rw [if_pos hfailed]
    exact Or.inl rfl
  rw [if_neg hfailed]
  cases hactive : store.incomingActive.get? message.key with
  | none => exact Or.inl rfl
  | some record =>
    obtain ⟨⟨ch, result⟩, hinsert⟩ :
        ∃ p, ((store.ordered.get? message.scope).getD .default).insert message
          config.maxReorderMessages config.maxReorderBytes config.maxSequenceGap = p := ⟨_, rfl⟩
    -- a refused message may still leave an empty channel behind, which looks like none
    have hrefuse : ch = (store.ordered.get? message.scope).getD .default →
        (DeliveryStore.receive { store with
          ordered := store.ordered.insert message.scope ch }) =
            store.receive.setChannel message.scope (store.receive.view message.scope) := by
      rintro rfl
      exact receive_insertOrdered store _ _
    refine Or.inr ⟨ch, result, hinsert, ?_⟩
    simp only [hinsert]
    obtain ⟨rfl | rfl, hch⟩ | ⟨rfl, -⟩ | ⟨rfl, -⟩ := OrderedChannelState.insert_cases hinsert
    · exact ⟨rfl, Or.inr (Or.inr ⟨Or.inl rfl, hfailed, hrefuse hch⟩)⟩
    · exact ⟨rfl, Or.inr (Or.inr ⟨Or.inr rfl, hfailed, hrefuse hch⟩)⟩
    · refine ⟨rfl, Or.inl ⟨rfl, ?_⟩⟩
      rw [receive_insertActive_insertOrdered]
      exact .ready _ hfailed hactive hinsert
    · refine ⟨rfl, Or.inr (Or.inl ⟨rfl, ?_⟩)⟩
      rw [receive_insertActive_insertOrdered]
      exact .buffer hfailed hactive hinsert

theorem acceptOrderedAt_refines (message : OrderedMessage) (now : ℕ) :
    Refined config (.accept message now) store.receive
      (acceptOrderedAt config store message now).1.receive
      (receiveLog
        (.accept message now, .inserted (acceptOrderedAt config store message now).2)) := by
  obtain heq | ⟨ch, result, -, hresult, ⟨rfl, hstep⟩ | ⟨rfl, hstep⟩ | ⟨hrefused, hfailed, heq⟩⟩ :=
    acceptOrderedAt_steps config store message now
  · rw [heq]
    exact Or.inr (.refl _)
  · rw [hresult]
    exact Or.inl ⟨.ready message, ⟨now, rfl⟩, rfl, hstep⟩
  · rw [hresult]
    exact Or.inl ⟨.buffer message, ⟨now, rfl⟩, rfl, hstep⟩
  · rw [hresult, heq]
    obtain rfl | rfl := hrefused <;> exact Or.inr (.internal (.refuse hfailed))

variable (order : DedupKey → ℕ)

/-- A completed message is remembered, and older ones may be forgotten for it. -/
theorem receive_rememberProcessed (key : DedupKey) (record : ProcessedDedupRecord)
    (maxEntries : ℕ) :
    ∃ kept ⊆ insert key store.receive.processed,
      (rememberProcessed order store key record maxEntries).receive =
        store.receive.remember kept := by
  unfold rememberProcessed
  split_ifs with hmax
  · exact ⟨store.receive.processed, Set.subset_insert _ _, rfl⟩
  · refine ⟨_, ?_, rfl⟩
    rintro k hk
    obtain ⟨found, hfound⟩ := Table.contains_eq_true.mp hk
    rw [Table.get?_insert] at hfound
    split_ifs at hfound with hkey
    · exact Or.inl hkey
    · refine Or.inr (Table.contains_eq_true.mpr ⟨found, ?_⟩)
      exact (Table.get?_of_retain (get?_of_evictProcessed hfound)).1

theorem completionGate_iff (key : DedupKey) (active : ActiveIncomingRecord) :
    completionGate store key active = true ↔ store.receive.InFlight key ∨
      ((∀ ch, store.receive.channel key.scope = some ch → ch.inFlight = none) ∧
        active.state ≠ .orderedBuffered) := by
  unfold completionGate Receive.InFlight
  change _ ↔ (∃ ch, store.ordered.get? key.scope = some ch ∧ _) ∨
    (∀ ch, store.ordered.get? key.scope = some ch → _) ∧ _
  cases store.ordered.get? key.scope with
  | none => simp
  | some ch => cases hf : ch.inFlight <;> simp [hf]

theorem acknowledgeOrdered_idle
    (hidle : ∀ ch, store.receive.channel key.scope = some ch → ch.inFlight = none) :
    acknowledgeOrdered store key = (store, none) := by
  unfold acknowledgeOrdered
  cases hch : store.ordered.get? key.scope with
  | none => rfl
  | some ch => simp [hidle ch hch]

theorem nextOrderedReady_inFlight {ch : OrderedChannelState}
    {next : OrderedMessage} (hch : store.ordered.get? key.scope = some ch)
    (hflight : ch.inFlight = some key.messageId)
    (hnext : ch.reorderBuffer.get? ch.nextSequence = some next)
    (h : nextOrderedReady store key = true) :
    ∃ record, store.incomingActive.get? next.key = some record ∧
      record.state = .orderedBuffered := by
  grind [nextOrderedReady, nextOrdered, Option.any_eq_true]

/-- A completion does nothing, or is one step. -/
theorem completeIncomingAt_steps (key : DedupKey) (now : ℕ) :
    (completeIncomingAt config order store key now = (store, none)) ∨
    ∃ a, ((∃ next, a = .finish key next) ∨ a = .stall key) ∧
      a.log = receiveLog (.complete key now order,
        .completion (completeIncomingAt config order store key now).2) ∧
      Receive.Step config store.receive a
        (completeIncomingAt config order store key now).1.receive := by
  unfold completeIncomingAt
  cases hactive : store.incomingActive.get? key with
  | none => exact Or.inl rfl
  | some active =>
    simp only
    by_cases hpass : (!completionGate store key active || !nextOrderedReady store key) = true
    · rw [if_pos hpass]
      exact Or.inl rfl
    rw [if_neg hpass]
    simp only [Bool.or_eq_true, Bool.not_eq_true', not_or, Bool.not_eq_false] at hpass
    obtain ⟨hgate, hready⟩ := hpass
    -- the message is the one in flight on its channel, or not an ordered one
    obtain ⟨ch, hch, hflight⟩ | ⟨hidle, hstate⟩ := (completionGate_iff store key active).mp hgate
    · have hordered : store.ordered.get? key.scope = some ch := hch
      rw [acknowledgeOrdered, hordered]
      simp only [if_pos hflight]
      cases hnext : ch.reorderBuffer.get? ch.nextSequence with
      | none =>
        have hsnd : (ch.acknowledge key.messageId).2 = none :=
          congrArg Prod.snd (OrderedChannelState.acknowledge_none hflight hnext)
        obtain ⟨kept, hkept, heq⟩ := receive_rememberProcessed
          { store with
            ordered := store.ordered.insert key.scope (ch.acknowledge key.messageId).1
            incomingActive := store.incomingActive.erase key } order key
          ⟨now + config.dedupTtl, now, active.recoveryEpoch⟩ config.dedupMaxEntries
        refine Or.inr ⟨.finish key none, Or.inl ⟨none, rfl⟩, ?_⟩
        simp only [hsnd, heq, receive_eraseActive_insertOrdered] at hkept ⊢
        exact ⟨rfl, .advance hactive hch hflight hnext hkept⟩
      | some next =>
        have hsnd : (ch.acknowledge key.messageId).2 = some next :=
          congrArg Prod.snd (OrderedChannelState.acknowledge_some hflight hnext)
        obtain ⟨record, hrecord, hstate⟩ := nextOrderedReady_inFlight store hch hflight hnext hready
        simp only [hsnd, Table.get?_erase]
        -- the next message has the identifier of the completed one: its record is gone already
        split_ifs with hself
        · refine Or.inr ⟨.stall key, Or.inr rfl, rfl, ?_⟩
          rw [receive_eraseActive_insertOrdered]
          rw [hself, hactive] at hrecord
          cases hrecord
          exact .stall hactive hch hflight hnext hself hstate
        · simp only [hrecord]
          obtain ⟨kept, hkept, heq⟩ := receive_rememberProcessed
            { store with
              ordered := store.ordered.insert key.scope (ch.acknowledge key.messageId).1
              incomingActive := (store.incomingActive.erase key).insert next.key
                { record with
                  state := .inFlight
                  ackDeadline := some (now + config.applicationAckTimeout) } } order key
            ⟨now + config.dedupTtl, now, active.recoveryEpoch⟩ config.dedupMaxEntries
          refine Or.inr ⟨.finish key (some next), Or.inl ⟨some next, rfl⟩, rfl, ?_⟩
          rw [receive_promoteActive] at hkept heq
          rw [heq]
          exact .promote _ hactive hch hflight hnext hrecord hstate hself hkept
    · rw [acknowledgeOrdered_idle store hidle]
      obtain ⟨kept, hkept, heq⟩ := receive_rememberProcessed
        { store with incomingActive := store.incomingActive.erase key } order key
        ⟨now + config.dedupTtl, now, active.recoveryEpoch⟩ config.dedupMaxEntries
      refine Or.inr ⟨.finish key none, Or.inl ⟨none, rfl⟩, rfl, ?_⟩
      simp only [heq, receive_eraseActive] at hkept ⊢
      exact .finish hactive hstate hidle hkept

theorem completeIncomingAt_refines (key : DedupKey) (now : ℕ) :
    Refined config (.complete key now order) store.receive
      (completeIncomingAt config order store key now).1.receive
      (receiveLog (.complete key now order,
        .completion (completeIncomingAt config order store key now).2)) := by
  obtain heq | ⟨a, ⟨next, rfl⟩ | rfl, hstep⟩ := completeIncomingAt_steps config store order key now
  · rw [heq]
    exact Or.inr (.refl _)
  · exact Or.inl ⟨.finish key next, ⟨now, order, rfl⟩, hstep⟩
  · exact Or.inl ⟨.stall key, ⟨now, order, rfl⟩, hstep⟩

/-! ### The other operations -/

theorem abandonIncoming_refines (key : DedupKey) :
    FreePath config store.receive [] (abandonIncoming store key).1.receive := by
  unfold abandonIncoming
  split_ifs with hactive hordered
  · exact .refl _
  · rw [receive_failOrderedChannel]
    exact .fail _ key.scope
  · rw [receive_eraseActive]
    refine .internal (.abandon ?_)
    rw [isOrdered_iff, not_or] at hordered
    exact hordered

/-- **Refinement**: every operation of the receive side is one abstract step of an action it asks
for, or a path of free ones, and its result reports their events. -/
theorem receiveStep_refines (op : ReceiveOp) :
    Refined config op store.receive (receiveStep config store op).1.receive
      (receiveLog (op, (receiveStep config store op).2)) := by
  cases op with
  | begin key epoch now => exact Or.inr (beginIncoming_refines config store key epoch now)
  | accept message now => exact acceptOrderedAt_refines config store message now
  | complete key now order => exact completeIncomingAt_refines config store order key now
  | reject key =>
    refine Or.inl ⟨.reject key, rfl, rfl, ?_⟩
    exact (receive_eraseActive store key) ▸ .reject key
  | abandon key => exact Or.inr (abandonIncoming_refines config store key)
  | expire peerId now =>
    exact Or.inr (expireIncomingLocked_refines config store now (some peerId))
  | close peerId =>
    exact Or.inl ⟨.close peerId, rfl, rfl, (receive_closePeer store peerId) ▸ .close peerId⟩

end Operations

/-! ## Invariants of the receive side -/

/-- Every buffer holds messages of its own channel, at their sequences, and counts their bytes. -/
def Receive.WellFormed (config : DeliveryConfig) (r : Receive) : Prop :=
  ∀ scope ch, r.channel scope = some ch → ch.Buffered scope config.maxReorderBytes

namespace Receive.WellFormed

variable {a : ReceiveAction}

theorem new (config : DeliveryConfig) : new.receive.WellFormed config := by
  intro scope ch h
  cases h

/-- The channel, or the default one that an insertion starts from, is well formed. -/
theorem view (h : r.WellFormed config) (scope : Scope) :
    (r.view scope).Buffered scope config.maxReorderBytes := by
  unfold Receive.view
  cases hch : r.channel scope with
  | none => exact .default _ _
  | some ch => exact h scope ch hch

theorem setChannel (h : r.WellFormed config) {scope : Scope} {ch : OrderedChannelState}
    (hch : ch.Buffered scope config.maxReorderBytes) :
    (r.setChannel scope ch).WellFormed config := by
  grind [setChannel_channel, WellFormed]

theorem step (h : r.WellFormed config) (hstep : Step config r a r') : r'.WellFormed config := by
  cases hstep with
  | forget | touch | enroll | expire | abandon | reject | finish => exact h
  | fail scope =>
    grind [fail_channel, WellFormed]
  | refuse => exact h.setChannel (h.view _)
  | ready deadline _ _ hinsert | buffer _ _ hinsert =>
    exact h.setChannel ((h.view _).insert rfl hinsert)
  | advance _ hch hflight | promote _ _ hch hflight | stall _ hch hflight =>
    exact h.setChannel ((h _ _ hch).acknowledge hflight)
  | close peerId =>
    intro c ch hch
    simp only [Receive.close] at hch
    split_ifs at hch
    · obtain ⟨old, -, rfl⟩ := Option.map_eq_some_iff.mp hch
      exact .clear _ _ old
    · exact h c ch hch

end Receive.WellFormed

/-- Every action that the operation asks for is free or meets the guard. -/
def Guarded (Guard : Receive → ReceiveAction → Prop) (store : DeliveryStore) (op : ReceiveOp) :
    Prop :=
  ∀ a, op.Asks a → a.Free ∨ Guard store.receive a

/-- An invariant of the abstract steps, with the events so far: `Guard r a` is what the step of an
action that is not free may assume. -/
structure ReceiveInvariant (config : DeliveryConfig) (Guard : Receive → ReceiveAction → Prop)
    (Inv : Receive → List ReceiveEvent → Prop) : Prop where
  step : ∀ {r r' a log}, r.WellFormed config → Inv r log → (a.Free ∨ Guard r a) →
    Receive.Step config r a r' → Inv r' (log ++ a.log)

namespace ReceiveInvariant

variable {Guard : Receive → ReceiveAction → Prop} {Inv : Receive → List ReceiveEvent → Prop}

section

variable (hinv : ReceiveInvariant config Guard Inv)

include hinv

theorem freePath {log log' : List ReceiveEvent} (h : FreePath config r log' r')
    (hr : r.WellFormed config ∧ Inv r log) : r'.WellFormed config ∧ Inv r' (log ++ log') := by
  obtain ⟨actions, htrace, hfree, rfl⟩ := h
  refine htrace.history_invariant (l := []) (P := ReceiveAction.Free)
    (I := fun r actions => r.WellFormed config ∧ Inv r (log ++ actions.flatMap ReceiveAction.log))
    ?_ (by simpa using hr) hfree
  intro s a t before hs ha hstep
  have hlog := hinv.step hs.1 hs.2 (Or.inl ha) hstep
  rw [List.append_assoc, ← List.flatMap_singleton ReceiveAction.log a, ← List.flatMap_append]
    at hlog
  exact ⟨hs.1.step hstep, hlog⟩

section

variable {store : DeliveryStore} (log : List ReceiveEvent)
  (hs : store.receive.WellFormed config ∧ Inv store.receive log)

include hs

/-- One operation keeps the invariant when the actions it asks for meet the guard. -/
theorem receiveStep {op : ReceiveOp} (hguard : Guarded Guard store op) :
    (receiveStep config store op).1.receive.WellFormed config ∧
      Inv (Delivery.receiveStep config store op).1.receive
        (log ++ receiveLog (op, (Delivery.receiveStep config store op).2)) := by
  obtain ⟨a, hasks, hlog, hstep⟩ | hpath := receiveStep_refines config store op
  · rw [← hlog]
    exact ⟨hs.1.step hstep, hinv.step hs.1 hs.2 (hguard a hasks) hstep⟩
  · exact hinv.freePath hpath hs

theorem receive_runFrom {ops : List ReceiveOp}
    (hops : (receiveMachine config).AlongFrom (Guarded Guard) store ops) :
    ((receiveMachine config).runFrom store ops).receive.WellFormed config ∧
      Inv ((receiveMachine config).runFrom store ops).receive
        (log ++ ((receiveMachine config).transcriptFrom store ops).flatMap receiveLog) := by
  refine (receiveMachine config).transcriptFrom_invariant
    (I := fun store history => store.receive.WellFormed config ∧
      Inv store.receive (log ++ history.flatMap receiveLog)) (by simpa using hs) ?_ hops
  intro store history op hs hguard
  rw [List.flatMap_append, List.flatMap_singleton, ← List.append_assoc]
  exact hinv.receiveStep _ hs hguard

end

/-- **Runs of the receive side**: an invariant of the abstract steps holds after every run whose
operations meet the guard. -/
theorem receive_run (hnew : Inv new.receive []) {ops : List ReceiveOp}
    (hops : (receiveMachine config).Along (Guarded Guard) ops) :
    ((receiveMachine config).run ops).receive.WellFormed config ∧
      Inv ((receiveMachine config).run ops).receive
        (((receiveMachine config).transcript ops).flatMap receiveLog) :=
  hinv.receive_runFrom [] ⟨.new config, hnew⟩ hops

end

end ReceiveInvariant

/-- The invariant that asks nothing beyond well-formed buffers. -/
theorem trivialInvariant (config : DeliveryConfig) :
    ReceiveInvariant config (fun _ _ => True) fun _ _ => True :=
  ⟨fun _ _ _ _ => trivial⟩

theorem wellFormed_receiveStep {store : DeliveryStore}
    (h : store.receive.WellFormed config) (op : ReceiveOp) :
    (receiveStep config store op).1.receive.WellFormed config :=
  ((trivialInvariant config).receiveStep [] ⟨h, trivial⟩ fun _ _ => Or.inr trivial).1

theorem wellFormed_run (config : DeliveryConfig) (ops : List ReceiveOp) :
    ((receiveMachine config).run ops).receive.WellFormed config :=
  (receiveMachine config).run_always (I := fun store => store.receive.WellFormed config)
    (.new config) (fun _ op h => wellFormed_receiveStep h op) ops

end SshMobile.Delivery
