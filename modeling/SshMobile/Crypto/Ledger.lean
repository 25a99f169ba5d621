import SshMobile.Crypto.Context

/-!
# The ledger of a sender

Every envelope that a context produces uses its current key once: the ledger lists these uses, each
with its epoch, its counter and the bytes it sealed. The context's counters say how the ledger can
go on. They never go back, so a use differs from all earlier ones in its epoch or its counter, and
a key that has sealed its share is left before it seals more.

Calls that fail also move the counters: a rotation or a counter may be spent without a use.

## Main definitions

* `Counters`: the part of a context that an encryption advances
* `Counters.Rests`: what a call without an envelope can do to them
* `KeyUse`, `Ledger`: the uses of the keys of a context
* `SealedAs`: an envelope was sealed in a use

## Main results

* `encrypt_cases`: what an encryption does, whatever its result
* `Ledger.rest`, `Ledger.rotate`, `Ledger.use`: the steps of a ledger
-/

namespace SshMobile.Crypto

open Library

/-! ## Counters -/

/-- The counters of the sending side. -/
structure Counters where
  epoch : ℕ
  counter : ℕ
  messages : ℕ
  bytes : ℕ

def CryptoContext.counters (ctx : CryptoContext) : Counters :=
  ⟨ctx.sendEpoch, ctx.sendCounter, ctx.messagesInEpoch, ctx.bytesInEpoch⟩

namespace Counters

/-- The key has no room for another message of `n` bytes. -/
def Spent (c : Counters) (n : ℕ) : Prop :=
  maxMessagesPerKey ≤ c.messages ∨ maxBytesPerKey - n < c.bytes

/-- The counters at the start of the next epoch. -/
def Rotated (c c' : Counters) : Prop :=
  c'.epoch = c.epoch + 1 ∧ c'.epoch ≤ u64Max ∧ c'.counter ≤ u64Max ∧ c'.messages = 0 ∧ c'.bytes = 0

/-- **A call without an envelope**: counters of nonces are skipped, or the spent key is left. -/
def Rests (n : ℕ) (c c' : Counters) : Prop :=
  (c'.epoch = c.epoch ∧ c.counter ≤ c'.counter ∧ (c.counter ≤ u64Max → c'.counter ≤ u64Max) ∧
      c'.messages = c.messages ∧ c'.bytes = c.bytes) ∨
    (c.Spent n ∧ c.Rotated c')

/-- The counters after a message of `n` bytes. -/
def used (c : Counters) (n : ℕ) : Counters := ⟨c.epoch, c.counter + 1, c.messages + 1, c.bytes + n⟩

theorem Rests.refl (n : ℕ) (c : Counters) : c.Rests n c := .inl ⟨rfl, le_rfl, id, rfl, rfl⟩

/-- A counter can be skipped after a rest. -/
theorem Rests.skip {n : ℕ} {c c' : Counters} (h : c.Rests n c') (hle : c'.counter + 1 ≤ u64Max) :
    c.Rests n { c' with counter := c'.counter + 1 } := by
  rcases h with ⟨hepoch, hcounter, -, hmessages, hbytes⟩ | ⟨hspent, hepoch, hmax, -, hzero⟩
  · grind [Rests]
  · exact .inr ⟨hspent, hepoch, hmax, hle, hzero⟩

end Counters

/-- Two contexts of one session and one side. -/
structure SameSession (ctx ctx' : CryptoContext) : Prop where
  suite : ctx'.suite = ctx.suite
  rootKey : ctx'.rootKey = ctx.rootKey
  txInfo : ctx'.txInfo = ctx.txInfo
  rxInfo : ctx'.rxInfo = ctx.rxInfo

namespace SameSession

variable {ctx ctx' ctx'' : CryptoContext}

theorem refl (ctx : CryptoContext) : SameSession ctx ctx := ⟨rfl, rfl, rfl, rfl⟩

theorem trans (h : SameSession ctx ctx') (h' : SameSession ctx' ctx'') : SameSession ctx ctx'' :=
  ⟨h'.suite.trans h.suite, h'.rootKey.trans h.rootKey, h'.txInfo.trans h.txInfo,
    h'.rxInfo.trans h.rxInfo⟩

theorem epochKey (h : SameSession ctx ctx') (p : Primitives) (info : Bytes) (epoch : ℕ) :
    epochKey p ctx' info epoch = Crypto.epochKey p ctx info epoch := by
  rw [Crypto.epochKey, Crypto.epochKey, h.rootKey]

theorem noncePrefix (h : SameSession ctx ctx') (p : Primitives) (info : Bytes) (epoch : ℕ) :
    noncePrefix p ctx' info epoch = Crypto.noncePrefix p ctx info epoch := by
  grind [noncePrefix, epochKey]

end SameSession

/-! ## The steps of an encryption -/

theorem rotateKey_cases (ctx : CryptoContext) :
    (rotateKey ctx = (ctx, .error .sequenceOverflow)) ∨
      SameSession ctx (rotateKey ctx).1 ∧
        ctx.counters.Rotated (rotateKey ctx).1.counters ∧ (rotateKey ctx).1.counters.counter = 0 ∧
        (rotateKey ctx).2 = .ok (ctx.sendEpoch + 1) := by
  rw [rotateKey, checkedAdd]
  split_ifs with h
  · exact .inr ⟨⟨rfl, rfl, rfl, rfl⟩, ⟨rfl, h, Nat.zero_le _, rfl, rfl⟩, rfl, rfl⟩
  · exact .inl rfl

/-- After the check the key has room, unless the epochs are used up. -/
theorem rotateIfSpent_cases (ctx : CryptoContext) (n : ℕ) :
    SameSession ctx (rotateIfSpent ctx n).1 ∧
      ctx.counters.Rests n (rotateIfSpent ctx n).1.counters ∧
      ((rotateIfSpent ctx n).2 = .ok () → ¬ (rotateIfSpent ctx n).1.counters.Spent n) := by
  rw [rotateIfSpent]
  split_ifs with h
  · have hspent : ctx.counters.Spent n := by simpa [Counters.Spent, CryptoContext.counters] using h
    rcases rotateKey_cases ctx with herror | ⟨hsame, hrotated, -, hok⟩
    · rw [herror]
      exact ⟨.refl ctx, .refl n _, fun h => by cases h⟩
    · grind [maxMessagesPerKey, Counters.Rests, Counters.Spent, Counters.Rotated]
  · refine ⟨.refl ctx, .refl n _, fun _ => ?_⟩
    simpa [Counters.Spent, CryptoContext.counters] using h

theorem nextNonce_cases (p : Primitives) (ctx : CryptoContext) :
    (nextNonce p ctx = (ctx, .error .sequenceOverflow)) ∨
      ctx.sendCounter + 1 ≤ u64Max ∧
        (nextNonce p ctx).1 = { ctx with sendCounter := ctx.sendCounter + 1 } ∧
        ∀ nonce, (nextNonce p ctx).2 = .ok nonce →
          ∃ bytes, noncePrefix p ctx ctx.txInfo ctx.sendEpoch = .ok bytes ∧
            nonce = structuredNonce bytes ctx.sendCounter := by
  rw [nextNonce, checkedAdd]
  grind

theorem encryptWithNonce_cases (p : Primitives) (ctx : CryptoContext) (aad plaintext : Bytes)
    (nonce : Nonce) :
    SameSession ctx (encryptWithNonce p ctx aad plaintext nonce).1 ∧
      (encryptWithNonce p ctx aad plaintext nonce).1.counters = ctx.counters ∧
      ∀ envelope, (encryptWithNonce p ctx aad plaintext nonce).2 = .ok envelope →
        ∃ key ciphertext, epochKey p ctx ctx.txInfo ctx.sendEpoch = .ok key ∧
          p.sealBytes key nonce aad plaintext = some ciphertext ∧
          envelope = sealedEnvelope ctx.suite ctx.sendEpoch nonce ciphertext := by
  rw [encryptWithNonce]
  split
  · exact ⟨.refl ctx, rfl, fun _ h => by cases h⟩
  · refine ⟨⟨rfl, rfl, rfl, rfl⟩, rfl, fun envelope h => ?_⟩
    grind

/-- Counting a message of a key with room does not overflow. -/
theorem countMessage_ok {ctx : CryptoContext} {n : ℕ} (hroom : ¬ ctx.counters.Spent n)
    (hn : n ≤ u64Max) :
    countMessage ctx n =
      ({ ctx with
          messagesInEpoch := ctx.messagesInEpoch + 1
          bytesInEpoch := ctx.bytesInEpoch + n }, .ok ()) := by
  simp only [Counters.Spent, CryptoContext.counters, not_or, Nat.not_le, Nat.not_lt] at hroom
  have hmessages : ctx.messagesInEpoch + 1 ≤ u64Max := by
    have hmax : maxMessagesPerKey ≤ u64Max := by decide
    omega
  have hbytes : ctx.bytesInEpoch + n ≤ u64Max := by
    have hmax : maxBytesPerKey ≤ u64Max := by decide
    omega
  rw [countMessage, checkedAdd_of_le hmessages]
  rw [checkedAdd_of_le hbytes]

/-! ## Uses of keys -/

/-- One use of a key: its epoch, the counter of its nonce, and the bytes that were sealed. -/
structure KeyUse where
  epoch : ℕ
  counter : ℕ
  bytes : ℕ
deriving DecidableEq

/-- **The envelope was sealed in the use**, in the session and by the side of `ctx`. -/
structure SealedAs (p : Primitives) (ctx : CryptoContext) (aad plaintext envelope : Bytes)
    (use : KeyUse) : Prop where
  bytes_eq : use.bytes = plaintext.length
  epoch_le : use.epoch ≤ u64Max
  counter_le : use.counter ≤ u64Max
  exists_sealed : ∃ key bytes ciphertext,
    epochKey p ctx ctx.txInfo use.epoch = .ok key ∧
    noncePrefix p ctx ctx.txInfo use.epoch = .ok bytes ∧
    p.sealBytes key (structuredNonce bytes use.counter) aad plaintext = some ciphertext ∧
    envelope = sealedEnvelope ctx.suite use.epoch (structuredNonce bytes use.counter) ciphertext

theorem SealedAs.of_sameSession {p : Primitives} {ctx ctx' : CryptoContext}
    {aad plaintext envelope : Bytes} {use : KeyUse} (h : SameSession ctx ctx')
    (hsealed : SealedAs p ctx' aad plaintext envelope use) :
    SealedAs p ctx aad plaintext envelope use := by
  obtain ⟨key, bytes, ciphertext, hkey, hbytes, hseal, henvelope⟩ := hsealed.exists_sealed
  refine ⟨hsealed.bytes_eq, hsealed.epoch_le, hsealed.counter_le, key, bytes, ciphertext, ?_, ?_,
    hseal, ?_⟩
  · rwa [← h.epochKey, ← h.txInfo]
  · rwa [← h.noncePrefix, ← h.txInfo]
  · rwa [← h.suite]

/-- **What an encryption does**: it fails and rests, or it rests, finds a key with room and uses it
once. -/
theorem encrypt_cases (p : Primitives) (ctx : CryptoContext) (aad plaintext : Bytes)
    (hepoch : ctx.sendEpoch ≤ u64Max) :
    SameSession ctx (encrypt p ctx aad plaintext).1 ∧
      ((∃ error, (encrypt p ctx aad plaintext).2 = .error error ∧
          ctx.counters.Rests plaintext.length (encrypt p ctx aad plaintext).1.counters) ∨
        ∃ envelope c, (encrypt p ctx aad plaintext).2 = .ok envelope ∧
          ctx.counters.Rests plaintext.length c ∧ ¬ c.Spent plaintext.length ∧
          c.counter + 1 ≤ u64Max ∧
          (encrypt p ctx aad plaintext).1.counters = c.used plaintext.length ∧
          SealedAs p ctx aad plaintext envelope ⟨c.epoch, c.counter, plaintext.length⟩) := by
  rw [encrypt]
  split_ifs with hlength
  · exact ⟨.refl ctx, .inl ⟨_, rfl, .refl _ _⟩⟩
  obtain ⟨hsame, hrests, hroom⟩ := rotateIfSpent_cases ctx plaintext.length
  generalize rotateIfSpent ctx plaintext.length = rotated at hsame hrests hroom
  rcases rotated with ⟨ctx₁, error | ⟨⟩⟩
  · simp_all
  dsimp only at hsame hrests hroom ⊢
  have hnonce := nextNonce_cases p ctx₁
  generalize nextNonce p ctx₁ = next at hnonce
  rcases hnonce with rfl | ⟨hcounter, hctx₂, hnonce⟩
  · exact ⟨hsame, .inl ⟨_, rfl, hrests⟩⟩
  -- from here on a counter is spent, whatever happens
  obtain ⟨ctx₂, result⟩ := next
  dsimp only at hctx₂ hnonce ⊢
  have hsame₂ : SameSession ctx ctx₂ := by
    rw [hctx₂]
    exact ⟨hsame.suite, hsame.rootKey, hsame.txInfo, hsame.rxInfo⟩
  have hrests₂ : ctx.counters.Rests plaintext.length ctx₂.counters := by
    rw [hctx₂]
    exact hrests.skip hcounter
  rcases result with error | nonce
  · simp_all
  obtain ⟨bytes, hbytes, rfl⟩ := hnonce nonce rfl
  obtain ⟨hsame₃, hcounters, hsent⟩ :=
    encryptWithNonce_cases p ctx₂ aad plaintext (structuredNonce bytes ctx₁.sendCounter)
  dsimp only
  generalize encryptWithNonce p ctx₂ aad plaintext (structuredNonce bytes ctx₁.sendCounter) = sent
    at hsame₃ hcounters hsent
  rcases sent with ⟨ctx₃, error | envelope⟩
  · refine ⟨hsame₂.trans hsame₃, .inl ⟨error, rfl, ?_⟩⟩
    simp_all
  dsimp only at hsame₃ hcounters hsent ⊢
  have hcounters₃ : ctx₃.counters =
      { ctx₁.counters with counter := ctx₁.sendCounter + 1 } := by
    rw [hcounters, hctx₂]
    rfl
  have hroom₃ : ¬ ctx₃.counters.Spent plaintext.length := by
    rw [hcounters₃]
    exact hroom rfl
  rw [countMessage_ok hroom₃ (Nat.le_of_not_lt hlength)]
  have hepoch₁ : ctx₁.sendEpoch ≤ u64Max := by
    rcases hrests with ⟨hstay, -⟩ | ⟨-, -, hmax, -⟩
    · exact (congrArg (· ≤ u64Max) hstay).mpr hepoch
    · exact hmax
  obtain ⟨key, ciphertext, hkey, hseal, rfl⟩ := hsent envelope rfl
  refine ⟨hsame₂.trans ⟨hsame₃.suite, hsame₃.rootKey, hsame₃.txInfo, hsame₃.rxInfo⟩,
    .inr ⟨_, ctx₁.counters, rfl, hrests, hroom rfl, hcounter, ?_, ?_⟩⟩
  · grind [CryptoContext.counters, Counters.used]
  · refine SealedAs.of_sameSession hsame ⟨rfl, hepoch₁, Nat.le_of_succ_le hcounter, key, bytes,
      ciphertext, ?_, hbytes, hseal, ?_⟩
    · rw [hctx₂] at hkey
      exact hkey
    · rw [hctx₂]
      rfl

/-! ## The ledger -/

/-- An earlier use. -/
def KeyUse.Before (a b : KeyUse) : Prop :=
  a.epoch < b.epoch ∨ a.epoch = b.epoch ∧ a.counter < b.counter

/-- The uses of the key of an epoch. -/
def usesIn (uses : List KeyUse) (epoch : ℕ) : List KeyUse := uses.filter (·.epoch = epoch)

/-- The bytes that the key of an epoch has sealed. -/
def bytesIn (uses : List KeyUse) (epoch : ℕ) : ℕ := ((usesIn uses epoch).map KeyUse.bytes).sum

theorem usesIn_append (uses uses' : List KeyUse) (epoch : ℕ) :
    usesIn (uses ++ uses') epoch = usesIn uses epoch ++ usesIn uses' epoch :=
  List.filter_append _ _

theorem bytesIn_append (uses uses' : List KeyUse) (epoch : ℕ) :
    bytesIn (uses ++ uses') epoch = bytesIn uses epoch + bytesIn uses' epoch := by
  grind [bytesIn, usesIn_append]

theorem usesIn_eq_nil {uses : List KeyUse} {epoch : ℕ} (h : ∀ use ∈ uses, use.epoch ≠ epoch) :
    usesIn uses epoch = [] :=
  List.filter_eq_nil_iff.mpr fun use hmem => by simpa using h use hmem

/-- **The ledger of a context**: the uses are in order and lie behind the counters, which count
the uses of the current key. -/
structure Ledger (c : Counters) (uses : List KeyUse) : Prop where
  ordered : uses.Pairwise KeyUse.Before
  behind : ∀ use ∈ uses, use.epoch < c.epoch ∨ use.epoch = c.epoch ∧ use.counter < c.counter
  epoch_le : c.epoch ≤ u64Max
  counter_le : c.counter ≤ u64Max
  messages_eq : c.messages = (usesIn uses c.epoch).length
  bytes_eq : c.bytes = bytesIn uses c.epoch
  length_le : ∀ epoch, (usesIn uses epoch).length ≤ maxMessagesPerKey

theorem ledger_start (rootKey : Key) (initiator : Bool) :
    Ledger (fromSessionRoot rootKey initiator).counters [] where
  ordered := .nil
  behind := fun _ h => nomatch h
  epoch_le := Nat.zero_le _
  counter_le := Nat.zero_le _
  messages_eq := rfl
  bytes_eq := rfl
  length_le := fun _ => Nat.zero_le _

namespace Ledger

variable {c c' : Counters} {uses : List KeyUse} {n : ℕ}

theorem epoch_le_of_mem (h : Ledger c uses) {use : KeyUse} (hmem : use ∈ uses) :
    use.epoch ≤ c.epoch := by
  rcases h.behind use hmem with hlt | ⟨heq, -⟩
  · exact hlt.le
  · exact heq.le

theorem rotate (h : Ledger c uses) (hrotated : c.Rotated c') : Ledger c' uses := by
  obtain ⟨hepoch, hmax, hcounter, hmessages, hbytes⟩ := hrotated
  have hnone : usesIn uses c'.epoch = [] := by
    refine usesIn_eq_nil fun use hmem => ?_
    have := h.epoch_le_of_mem hmem
    omega
  refine ⟨h.ordered, fun use hmem => .inl ?_, hmax, hcounter, ?_, ?_, h.length_le⟩
  · have := h.epoch_le_of_mem hmem
    omega
  · rw [hmessages, hnone, List.length_nil]
  · grind [bytesIn]

theorem rest (h : Ledger c uses) (hrests : c.Rests n c') : Ledger c' uses := by
  rcases hrests with ⟨hepoch, hcounter, hmax, hmessages, hbytes⟩ | ⟨-, hrotated⟩
  · refine ⟨h.ordered, fun use hmem => ?_, hepoch ▸ h.epoch_le, hmax h.counter_le, ?_, ?_,
      h.length_le⟩
    · rcases h.behind use hmem with hlt | ⟨heq, hlt⟩
      · exact .inl (hepoch ▸ hlt)
      · omega
    · rw [hmessages, hepoch, h.messages_eq]
    · rw [hbytes, hepoch, h.bytes_eq]
  · exact h.rotate hrotated

/-- **A use** of a key with room is a new one. -/
theorem use (h : Ledger c uses) (hroom : ¬ c.Spent n) (hcounter : c.counter + 1 ≤ u64Max) :
    Ledger (c.used n) (uses ++ [⟨c.epoch, c.counter, n⟩]) := by
  rw [Counters.Spent, not_or, Nat.not_le] at hroom
  have hin : usesIn [⟨c.epoch, c.counter, n⟩] c.epoch = [⟨c.epoch, c.counter, n⟩] := by
    simp [usesIn]
  refine ⟨?_, ?_, h.epoch_le, hcounter, ?_, ?_, ?_⟩
  · refine List.pairwise_append.mpr ⟨h.ordered, List.pairwise_singleton _ _, ?_⟩
    intro a ha b hb
    rw [List.mem_singleton] at hb
    subst hb
    exact h.behind a ha
  -- the counter has moved past the new use
  · intro use hmem
    rcases List.mem_append.mp hmem with hold | hnew
    · rcases h.behind use hold with hlt | ⟨heq, hlt⟩
      · exact .inl hlt
      · exact .inr ⟨heq, Nat.lt_succ_of_lt hlt⟩
    · rw [List.mem_singleton] at hnew
      subst hnew
      exact .inr ⟨rfl, Nat.lt_succ_self _⟩
  · grind [Counters.used, usesIn_append, messages_eq]
  · grind [bytesIn, Counters.used, bytesIn_append, bytes_eq]
  · intro epoch
    rw [usesIn_append, List.length_append]
    -- the current epoch has room for one more use; the others do not change
    by_cases hepoch : epoch = c.epoch
    · grind [messages_eq]
    · have hout : usesIn [⟨c.epoch, c.counter, n⟩] epoch = [] :=
        usesIn_eq_nil (by simpa using Ne.symm hepoch)
      rw [hout]
      exact h.length_le epoch

/-- No two uses are the same key and counter. -/
theorem ne_of_ordered (h : uses.Pairwise KeyUse.Before) :
    uses.Pairwise fun a b => a.epoch ≠ b.epoch ∨ a.counter ≠ b.counter := by
  refine h.imp fun {a b} hab => ?_
  grind [KeyUse.Before]

end Ledger

end SshMobile.Crypto
