import SshMobile.Library.Bytes

/-!
# Protocol buffers

The wire format of protocol buffers: a message is a sequence of fields, each a key with the tag and
the wire type and then a value. Encoders write varints and length-delimited values; decoders also
read the fixed-width values and groups that unknown fields may have.

## Main definitions

* `encodeVarint`, `decodeVarint`: base-128 numbers of at most 64 bits
* `WireValue`, `WireField`, `encodeFields`, `decodeFields`: messages as lists of fields
* `optionalField`: a field that is left out when it has its default value
* `mergeFields`: a message read field by field into another one

## Main results

* `decodeVarint_encodeVarint`: a number of 64 bits is read back
* `length_encodeVarint_le`, `length_encodeVarint_eq`: the length of a number
* `decodeFields_encodeFields`: a list of fields is read back
* `mergeFields_encodeFields`: a message is read by reading its fields in order
-/

namespace Library

/-! ## Varints -/

/-- The base-128 digits of `n`, the least significant one first; all but the last have the high bit
set. -/
def encodeVarint (n : ℕ) : Bytes :=
  if n < 128 then [UInt8.ofNat n]
  else UInt8.ofNat (n % 128 + 128) :: encodeVarint (n / 128)
termination_by n
decreasing_by omega

/-- The number at the front, of at most `digits` digits, and the rest. -/
def decodeDigits : ℕ → Bytes → Option (ℕ × Bytes)
  | 0, _ => none
  | _ + 1, [] => none
  | digits + 1, b :: bytes =>
    if b.toNat < 128 then some (b.toNat, bytes)
    else (decodeDigits digits bytes).map fun result => (b.toNat - 128 + 128 * result.1, result.2)

/-- A varint of at most ten bytes and 64 bits. -/
def decodeVarint (bytes : Bytes) : Option (ℕ × Bytes) :=
  (decodeDigits 10 bytes).filter fun result => decide (result.1 < 2 ^ 64)

variable {n : ℕ}

theorem encodeVarint_of_lt (h : n < 128) : encodeVarint n = [UInt8.ofNat n] := by
  rw [encodeVarint, if_pos h]

theorem encodeVarint_of_le (h : 128 ≤ n) :
    encodeVarint n = UInt8.ofNat (n % 128 + 128) :: encodeVarint (n / 128) := by
  rw [encodeVarint, if_neg (Nat.not_lt.mpr h)]

theorem one_le_length_encodeVarint (n : ℕ) : 1 ≤ (encodeVarint n).length := by
  grind [encodeVarint_of_lt, encodeVarint_of_le]

/-- A number below `128 ^ (k + 1)` has at most `k + 1` digits. -/
theorem length_encodeVarint_le (k : ℕ) (h : n < 128 ^ (k + 1)) :
    (encodeVarint n).length ≤ k + 1 := by
  induction k generalizing n with
  | zero => grind [encodeVarint_of_lt]
  | succ k ih =>
    by_cases hn : n < 128
    · grind
    · have hdiv : n / 128 < 128 ^ (k + 1) := by
        omega
      rw [encodeVarint_of_le (Nat.le_of_not_lt hn), List.length_cons]
      exact Nat.succ_le_succ (ih hdiv)

/-- A number from `128 ^ k` on has at least `k + 1` digits. -/
theorem lt_length_encodeVarint (k : ℕ) (h : 128 ^ k ≤ n) : k < (encodeVarint n).length := by
  induction k generalizing n with
  | zero => exact one_le_length_encodeVarint n
  | succ k ih =>
    have hn : 128 ≤ n := by
      grind
    have hdiv : 128 ^ k ≤ n / 128 := by
      omega
    grind [encodeVarint_of_le]

/-- A number between `128 ^ k` and `128 ^ (k + 1)` has `k + 1` digits. -/
theorem length_encodeVarint_eq (k : ℕ) (hlow : 128 ^ k ≤ n) (hhigh : n < 128 ^ (k + 1)) :
    (encodeVarint n).length = k + 1 :=
  Nat.le_antisymm (length_encodeVarint_le k hhigh) (lt_length_encodeVarint k hlow)

theorem decodeDigits_encodeVarint (k : ℕ) (h : n < 128 ^ (k + 1)) (rest : Bytes) :
    decodeDigits (k + 1) (encodeVarint n ++ rest) = some (n, rest) := by
  -- One digit a step: the number left is below the next smaller power.
  induction k generalizing n with
  | zero =>
    have hb : (UInt8.ofNat n).toNat = n := by
      rw [UInt8.toNat_ofNat']
      omega
    grind [encodeVarint_of_lt, decodeDigits]
  | succ k ih =>
    by_cases hn : n < 128
    · have hb : (UInt8.ofNat n).toNat = n := by
        rw [UInt8.toNat_ofNat']
        omega
      grind [encodeVarint_of_lt, decodeDigits]
    · have hb : (UInt8.ofNat (n % 128 + 128)).toNat = n % 128 + 128 := by
        rw [UInt8.toNat_ofNat']
        omega
      have hdiv : n / 128 < 128 ^ (k + 1) := by
        omega
      rw [encodeVarint_of_le (Nat.le_of_not_lt hn), List.cons_append, decodeDigits, hb,
        if_neg (by omega), ih hdiv, Option.map_some]
      congr 2
      omega

/-- **A number of 64 bits** is read back. -/
theorem decodeVarint_encodeVarint (h : n < 2 ^ 64) (rest : Bytes) :
    decodeVarint (encodeVarint n ++ rest) = some (n, rest) := by
  grind [decodeVarint, decodeDigits_encodeVarint]

/-! ## Fields -/

/-- The value of a field. Fixed-width values and groups are only skipped, so their contents are not
kept. -/
inductive WireValue
  | varint (n : ℕ)
  | bytes (b : Bytes)
  | skipped
deriving DecidableEq

structure WireField where
  tag : ℕ
  value : WireValue
deriving DecidableEq

/-- The key of a field and its value. -/
def encodeField : WireField → Bytes
  | ⟨tag, .varint n⟩ => encodeVarint (8 * tag) ++ encodeVarint n
  | ⟨tag, .bytes b⟩ => encodeVarint (8 * tag + 2) ++ (encodeVarint b.length ++ b)
  | ⟨_, .skipped⟩ => []

def encodeFields (fields : List WireField) : Bytes := fields.flatMap encodeField

/-- A field, unless it has its default value. -/
def optionalField (isDefault : Bool) (tag : ℕ) (value : WireValue) : List WireField :=
  if isDefault then [] else [⟨tag, value⟩]

/-- A key: the tag and the wire type, in a number of 32 bits. -/
def decodeKey (bytes : Bytes) : Option (ℕ × ℕ × Bytes) :=
  match decodeVarint bytes with
  | none => none
  | some (key, rest) =>
    if 2 ^ 32 ≤ key ∨ key / 8 = 0 then none else some (key / 8, key % 8, rest)

def decodeBytes (bytes : Bytes) : Option (Bytes × Bytes) :=
  match decodeVarint bytes with
  | none => none
  | some (length, rest) => split? length rest

mutual

/-- The value of a field of the wire type `wireType`, and the rest. -/
def decodeValue : ℕ → ℕ → ℕ → Bytes → Option (WireValue × Bytes)
  | 0, _, _, _ => none
  | fuel + 1, tag, wireType, bytes =>
    match wireType with
    | 0 => (decodeVarint bytes).map fun result => (.varint result.1, result.2)
    | 1 => (split? 8 bytes).map fun result => (.skipped, result.2)
    | 2 => (decodeBytes bytes).map fun result => (.bytes result.1, result.2)
    | 3 => (skipGroup fuel tag bytes).map fun rest => (.skipped, rest)
    | 5 => (split? 4 bytes).map fun result => (.skipped, result.2)
    | _ => none

/-- The rest after the fields of the group `tag` and its end. -/
def skipGroup : ℕ → ℕ → Bytes → Option Bytes
  | 0, _, _ => none
  | fuel + 1, tag, bytes =>
    match decodeKey bytes with
    | none => none
    | some (inner, wireType, rest) =>
      if wireType = 4 then if inner = tag then some rest else none
      else
        match decodeValue fuel inner wireType rest with
        | none => none
        | some (_, rest) => skipGroup fuel tag rest

end

/-- The fields of a message; each one takes at least a byte, so `fuel` is the number of bytes. -/
def decodeFieldsAux : ℕ → Bytes → Option (List WireField)
  | _, [] => some []
  | 0, _ => none
  | fuel + 1, bytes =>
    match decodeKey bytes with
    | none => none
    | some (tag, wireType, rest) =>
      match decodeValue (fuel + 1) tag wireType rest with
      | none => none
      | some (value, rest) => (decodeFieldsAux fuel rest).map fun fields => ⟨tag, value⟩ :: fields

def decodeFields (bytes : Bytes) : Option (List WireField) := decodeFieldsAux bytes.length bytes

/-- **The message `base` with the fields of `bytes`** read into it, one after the other; `merge`
says what one field does. -/
def mergeFields {α : Type*} (merge : α → WireField → Option α) (base : α) (bytes : Bytes) :
    Option α :=
  match decodeFields bytes with
  | none => none
  | some fields => fields.foldlM merge base

@[simp] theorem encodeFields_append (fields more : List WireField) :
    encodeFields (fields ++ more) = encodeFields fields ++ encodeFields more :=
  List.flatMap_append

variable {tag : ℕ} {isDefault : Bool} {value : WireValue} {fields : List WireField}

/-- The length of a length-delimited field with a tag of one byte. -/
theorem length_encodeField_bytes_le {b : Bytes} (k : ℕ) (htag : tag < 16)
    (hb : b.length < 128 ^ (k + 1)) : (encodeField ⟨tag, .bytes b⟩).length ≤ k + 2 + b.length := by
  have hkey := length_encodeVarint_le (n := 8 * tag + 2) 0 (by omega)
  have hlength := length_encodeVarint_le k hb
  grind [encodeField]

/-- The length of a varint field with a tag of one byte. -/
theorem length_encodeField_varint_le (k : ℕ) (htag : tag < 16) (hn : n < 128 ^ (k + 1)) :
    (encodeField ⟨tag, .varint n⟩).length ≤ k + 2 := by
  have hkey := length_encodeVarint_le (n := 8 * tag) 0 (by omega)
  have hlength := length_encodeVarint_le k hn
  grind [encodeField]

theorem length_encodeFields_optionalField_le {bound : ℕ}
    (h : (encodeField ⟨tag, value⟩).length ≤ bound) :
    (encodeFields (optionalField isDefault tag value)).length ≤ bound := by
  grind [optionalField, encodeFields]

theorem length_optionalField_append_le {m n : ℕ} (hfield : (encodeField ⟨tag, value⟩).length ≤ m)
    (hfields : (encodeFields fields).length ≤ n) :
    (encodeFields (optionalField isDefault tag value ++ fields)).length ≤ m + n := by
  rw [encodeFields_append, List.length_append]
  exact Nat.add_le_add (length_encodeFields_optionalField_le hfield) hfields

/-- A length-delimited value is no longer than the message it is in. -/
theorem length_le_encodeFields {b : Bytes} (h : ⟨tag, .bytes b⟩ ∈ fields) :
    b.length ≤ (encodeFields fields).length := by
  induction fields with
  | nil => exact absurd h List.not_mem_nil
  | cons field fields ih =>
    grind [encodeFields, encodeField]

/-! ## Round trip -/

/-- A value that an encoder writes: a number of 64 bits, or fewer than `2 ^ 64` bytes. -/
def WireValue.Encodable : WireValue → Prop
  | .varint n => n < 2 ^ 64
  | .bytes b => b.length < 2 ^ 64
  | .skipped => False

/-- A field that an encoder writes: its tag has 29 bits. -/
def WireField.Encodable (field : WireField) : Prop :=
  1 ≤ field.tag ∧ field.tag < 2 ^ 29 ∧ field.value.Encodable

theorem WireField.encodable_mk (htag : 1 ≤ tag) (hmax : tag < 2 ^ 29) (h : value.Encodable) :
    WireField.Encodable ⟨tag, value⟩ :=
  ⟨htag, hmax, h⟩

variable {field : WireField}

theorem mem_optionalField :
    field ∈ optionalField isDefault tag value ↔ isDefault = false ∧ field = ⟨tag, value⟩ := by
  cases isDefault <;> simp [optionalField]

theorem encodable_optionalField (htag : 1 ≤ tag) (hmax : tag < 2 ^ 29) (h : value.Encodable) :
    ∀ f ∈ optionalField isDefault tag value, f.Encodable := by
  intro f hf
  obtain ⟨_, rfl⟩ := mem_optionalField.mp hf
  exact ⟨htag, hmax, h⟩

section

variable {α β : Type*} [BEq β] [LawfulBEq β] {merge : α → WireField → Option α} {x d : β}
  (message : β → α) (hmerge : merge (message d) ⟨tag, value⟩ = some (message x))

include hmerge

/-- Reading an optional field back: nothing is missing where it was left out. -/
theorem foldlM_optionalField :
    (optionalField (x == d) tag value).foldlM merge (message d) = some (message x) := by
  rw [optionalField]
  split_ifs with h
  · rw [beq_iff_eq.mp h]
    rfl
  · rw [List.foldlM_cons, hmerge]
    rfl

theorem foldlM_optionalField_append :
    (optionalField (x == d) tag value ++ fields).foldlM merge (message d) =
      fields.foldlM merge (message x) := by
  rw [List.foldlM_append, foldlM_optionalField message hmerge]
  rfl

end

theorem decodeKey_encodeVarint {wireType : ℕ} (htag : 1 ≤ tag) (hmax : tag < 2 ^ 29)
    (hwire : wireType < 8) (rest : Bytes) :
    decodeKey (encodeVarint (8 * tag + wireType) ++ rest) = some (tag, wireType, rest) := by
  have hdiv : (8 * tag + wireType) / 8 = tag := by omega
  have hmod : (8 * tag + wireType) % 8 = wireType := by omega
  rw [decodeKey, decodeVarint_encodeVarint (by omega)]
  grind

/-- A key in front of a value that can be read. -/
theorem decodeFieldsAux_of_value {wireType fuel : ℕ} {bytes rest : Bytes} (htag : 1 ≤ tag)
    (hmax : tag < 2 ^ 29) (hwire : wireType < 8)
    (hvalue : decodeValue (fuel + 1) tag wireType bytes = some (value, rest)) :
    decodeFieldsAux (fuel + 1) (encodeVarint (8 * tag + wireType) ++ bytes) =
      (decodeFieldsAux fuel rest).map (⟨tag, value⟩ :: ·) := by
  grind [one_le_length_encodeVarint, List.append_eq_nil_iff, decodeFieldsAux,
    decodeKey_encodeVarint]

/-- One encoded field at the front of a message is read back. -/
theorem decodeFieldsAux_encodeField (h : field.Encodable) (fuel : ℕ) (rest : Bytes) :
    decodeFieldsAux (fuel + 1) (encodeField field ++ rest) =
      (decodeFieldsAux fuel rest).map (field :: ·) := by
  obtain ⟨tag, value⟩ := field
  obtain ⟨htag, hmax, hvalue⟩ := h
  cases value with
  | varint n =>
    have hread : decodeValue (fuel + 1) tag 0 (encodeVarint n ++ rest) =
        some (.varint n, rest) := by
      simp only [decodeValue, decodeVarint_encodeVarint hvalue, Option.map_some]
    have happend : encodeField ⟨tag, .varint n⟩ ++ rest =
        encodeVarint (8 * tag + 0) ++ (encodeVarint n ++ rest) := List.append_assoc _ _ _
    rw [happend]
    exact decodeFieldsAux_of_value htag hmax (by decide) hread
  | bytes b =>
    have hread : decodeValue (fuel + 1) tag 2 (encodeVarint b.length ++ (b ++ rest)) =
        some (.bytes b, rest) := by
      simp only [decodeValue, decodeBytes, decodeVarint_encodeVarint hvalue, split?_append,
        Option.map_some]
    have happend : encodeField ⟨tag, .bytes b⟩ ++ rest =
        encodeVarint (8 * tag + 2) ++ (encodeVarint b.length ++ (b ++ rest)) := by
      simp only [encodeField, List.append_assoc]
    rw [happend]
    exact decodeFieldsAux_of_value htag hmax (by decide) hread
  | skipped => exact absurd hvalue not_false

theorem one_le_length_encodeField (h : field.Encodable) :
    1 ≤ (encodeField field).length := by
  obtain ⟨tag, value⟩ := field
  cases value with
  | varint n | bytes b =>
    grind [one_le_length_encodeVarint, encodeField]
  | skipped => exact absurd h.2.2 not_false

/-- **A list of fields** is read back. -/
theorem decodeFields_encodeFields (h : ∀ f ∈ fields, f.Encodable) :
    decodeFields (encodeFields fields) = some fields := by
  -- The fuel is the number of bytes: enough for the fields that are left.
  suffices haux : ∀ fuel, (encodeFields fields).length ≤ fuel →
      decodeFieldsAux fuel (encodeFields fields) = some fields from haux _ (Nat.le_refl _)
  induction fields with
  | nil =>
    intro fuel _
    cases fuel <;> rfl
  | cons field fields ih =>
    intro fuel hfuel
    have hfield := h field List.mem_cons_self
    have hlength := one_le_length_encodeField hfield
    have hcons : encodeFields (field :: fields) = encodeField field ++ encodeFields fields :=
      List.flatMap_cons
    rw [hcons, List.length_append] at hfuel
    obtain ⟨fuel, rfl⟩ : ∃ n, fuel = n + 1 := ⟨fuel - 1, by omega⟩
    grind [decodeFieldsAux_encodeField]

theorem mergeFields_encodeFields {α : Type*} {merge : α → WireField → Option α} {base : α}
    (h : ∀ f ∈ fields, f.Encodable) :
    mergeFields merge base (encodeFields fields) = fields.foldlM merge base := by
  rw [mergeFields, decodeFields_encodeFields h]

end Library
