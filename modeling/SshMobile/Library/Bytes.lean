import Mathlib

/-!
# Byte strings

Byte strings with their fixed-width integers: the big-endian bytes of a number, and the number
that big-endian bytes spell.

## Main definitions

* `Bytes`, `utf8`, `decodeUtf8`: byte strings, the bytes of a string, and the string of bytes
* `hexEncode`: bytes in hexadecimal
* `beBytes w n`: the low `w` bytes of `n`, the most significant one first
* `ofBeBytes bytes`: the number of a big-endian byte string
* `ofLength? n bytes`: a byte string of exactly `n` bytes, as a vector
* `split? n bytes`: the first `n` bytes and the rest

## Main results

* `ofBeBytes_beBytes`: a number that fits its width is read back
-/

namespace Library

abbrev Bytes := List UInt8

/-- The UTF-8 bytes of a string. -/
def utf8 (s : String) : Bytes := s.toUTF8.data.toList

@[simp] theorem length_utf8 (s : String) : (utf8 s).length = s.utf8ByteSize := by
  simp [utf8]

/-- The string of valid UTF-8 bytes. -/
def decodeUtf8 (bytes : Bytes) : Option String := String.fromUTF8? ⟨bytes.toArray⟩

@[simp] theorem decodeUtf8_utf8 (s : String) : decodeUtf8 (utf8 s) = some s := by
  have hbytes : (⟨(utf8 s).toArray⟩ : ByteArray) = s.toUTF8 := by simp [utf8]
  have hvalid : s.toUTF8.IsValidUTF8 := s.isValidUTF8
  rw [decodeUtf8, hbytes, String.fromUTF8?, dif_pos hvalid]
  rfl

theorem utf8_inj {s t : String} (h : utf8 s = utf8 t) : s = t := by
  have hdecode := congrArg decodeUtf8 h
  rwa [decodeUtf8_utf8, decodeUtf8_utf8, Option.some.injEq] at hdecode

/-- What was decoded encodes to the bytes it was read from. -/
theorem utf8_of_decodeUtf8 {bytes : Bytes} {s : String} (h : decodeUtf8 bytes = some s) :
    utf8 s = bytes := by
  rw [decodeUtf8, String.fromUTF8?] at h
  split_ifs at h with hvalid
  cases h
  rfl

/-- The lower-case hexadecimal digit of `n`. -/
def hexDigit (n : ℕ) : Char := if n < 10 then Char.ofNat (48 + n) else Char.ofNat (87 + n)

/-- The bytes in lower-case hexadecimal. -/
def hexEncode (bytes : Bytes) : String :=
  String.ofList (bytes.flatMap fun b => [hexDigit (b.toNat / 16), hexDigit (b.toNat % 16)])

variable {n : ℕ}

theorem utf8Size_hexDigit (h : n < 16) : (hexDigit n).utf8Size = 1 := by
  revert n
  decide

@[simp] theorem utf8ByteSize_hexEncode (bytes : Bytes) :
    (hexEncode bytes).utf8ByteSize = 2 * bytes.length := by
  induction bytes with
  | nil => rfl
  | cons b bytes ih =>
    have hb : b.toNat < 256 := b.toNat_lt
    have hcons : hexEncode (b :: bytes) =
        String.ofList [hexDigit (b.toNat / 16), hexDigit (b.toNat % 16)] ++ hexEncode bytes := by
      rw [hexEncode, List.flatMap_cons, String.ofList_append, hexEncode]
    have hhigh := utf8Size_hexDigit (n := b.toNat / 16) (by omega)
    have hlow := utf8Size_hexDigit (n := b.toNat % 16) (by omega)
    rw [hcons, String.utf8ByteSize_append, ih, List.length_cons]
    simp [hhigh, hlow]
    omega

/-- The low `w` bytes of `n`, the most significant one first. -/
def beBytes : ℕ → ℕ → Bytes
  | 0, _ => []
  | w + 1, n => UInt8.ofNat (n / 256 ^ w) :: beBytes w n

/-- The number of a big-endian byte string. -/
def ofBeBytes : Bytes → ℕ
  | [] => 0
  | b :: bytes => b.toNat * 256 ^ bytes.length + ofBeBytes bytes

@[simp] theorem length_beBytes (w n : ℕ) : (beBytes w n).length = w := by
  induction w with
  | zero => rfl
  | succ w ih => rw [beBytes, List.length_cons, ih]

theorem ofBeBytes_beBytes_mod (w n : ℕ) : ofBeBytes (beBytes w n) = n % 256 ^ w := by
  induction w with
  | zero => rw [beBytes, ofBeBytes, Nat.pow_zero, Nat.mod_one]
  | succ w ih =>
    have hhead : (UInt8.ofNat (n / 256 ^ w)).toNat = n / 256 ^ w % 256 := UInt8.toNat_ofNat'
    rw [beBytes, ofBeBytes, ih, hhead, length_beBytes, Nat.pow_succ, Nat.mod_mul]
    ring

/-- A number that fits in `w` bytes is read back. -/
theorem ofBeBytes_beBytes {w : ℕ} (h : n < 256 ^ w) : ofBeBytes (beBytes w n) = n := by
  rw [ofBeBytes_beBytes_mod, Nat.mod_eq_of_lt h]

/-- Two numbers that fit in `w` bytes have the same bytes only if they are equal. -/
theorem beBytes_inj {w m : ℕ} (hm : m < 256 ^ w) (hn : n < 256 ^ w)
    (h : beBytes w m = beBytes w n) : m = n := by
  rw [← ofBeBytes_beBytes hm, h, ofBeBytes_beBytes hn]

theorem ofBeBytes_lt (bytes : Bytes) : ofBeBytes bytes < 256 ^ bytes.length := by
  induction bytes with
  | nil => exact Nat.zero_lt_one
  | cons b bytes ih =>
    rw [ofBeBytes, List.length_cons, Nat.pow_succ]
    have hb : b.toNat * 256 ^ bytes.length ≤ 255 * 256 ^ bytes.length :=
      Nat.mul_le_mul_right _ (by have := b.toNat_lt; omega)
    omega

theorem beBytes_add_mul (w m n : ℕ) : beBytes w (m * 256 ^ w + n) = beBytes w n := by
  induction w generalizing m with
  | zero => rfl
  | succ w ih =>
    have hsplit : m * 256 ^ (w + 1) + n = (m * 256) * 256 ^ w + n := by
      rw [Nat.pow_succ]
      ring
    have hhead : UInt8.ofNat (m * 256 + n / 256 ^ w) = UInt8.ofNat (n / 256 ^ w) := by
      rw [← UInt8.toNat_inj, UInt8.toNat_ofNat', UInt8.toNat_ofNat']
      omega
    rw [hsplit, beBytes, ih, beBytes, Nat.mul_comm, Nat.mul_add_div (Nat.pow_pos (by decide)),
      hhead]

/-- The bytes of the number that was read. -/
theorem beBytes_ofBeBytes (bytes : Bytes) : beBytes bytes.length (ofBeBytes bytes) = bytes := by
  induction bytes with
  | nil => rfl
  | cons b bytes ih =>
    have hdiv : (b.toNat * 256 ^ bytes.length + ofBeBytes bytes) / 256 ^ bytes.length =
        b.toNat := by
      rw [Nat.mul_comm, Nat.mul_add_div (Nat.pow_pos (by decide)),
        Nat.div_eq_of_lt (ofBeBytes_lt bytes), Nat.add_zero]
    rw [List.length_cons, beBytes, ofBeBytes, hdiv, beBytes_add_mul, ih, UInt8.ofNat_toNat]

/-- **A number of `w` bytes** is read in front of the rest exactly when it was written there. -/
theorem ofBeBytes_take_iff {w : ℕ} {bytes rest : Bytes} :
    w ≤ bytes.length ∧ ofBeBytes (bytes.take w) = n ∧ bytes.drop w = rest ↔
      n < 256 ^ w ∧ bytes = beBytes w n ++ rest := by
  constructor
  · rintro ⟨hle, rfl, rfl⟩
    have hbytes := beBytes_ofBeBytes (bytes.take w)
    have hlt := ofBeBytes_lt (bytes.take w)
    rw [List.length_take_of_le hle] at hbytes hlt
    exact ⟨hlt, by rw [hbytes, List.take_append_drop]⟩
  · rintro ⟨hlt, rfl⟩
    rw [List.take_left' (length_beBytes w n), List.drop_left' (length_beBytes w n),
      ofBeBytes_beBytes hlt, List.length_append, length_beBytes]
    exact ⟨Nat.le_add_right w _, rfl, rfl⟩

/-- A number of `w` bytes that is read at `i` stands there in front of the rest. -/
theorem beBytes_of_ofBeBytes_drop {bytes : Bytes} {w i : ℕ} (hle : i + w ≤ bytes.length)
    (hread : ofBeBytes ((bytes.drop i).take w) = n) :
    n < 256 ^ w ∧ bytes.drop i = beBytes w n ++ bytes.drop (i + w) := by
  refine ofBeBytes_take_iff.mp ⟨?_, hread, List.drop_drop⟩
  rw [List.length_drop]
  omega

/-- A byte string of exactly `n` bytes, as a vector. -/
def ofLength? (n : ℕ) (bytes : Bytes) : Option (Vector UInt8 n) :=
  if h : bytes.length = n then some ⟨bytes.toArray, h⟩ else none

theorem ofLength?_toList (v : Vector UInt8 n) : ofLength? n v.toList = some v := by
  rw [ofLength?, dif_pos v.length_toList]
  rfl

theorem toList_of_ofLength? {bytes : Bytes} {v : Vector UInt8 n} (h : ofLength? n bytes = some v) :
    v.toList = bytes := by
  rw [ofLength?] at h
  split at h
  · cases h
    rfl
  · exact absurd h (Option.some_ne_none v).symm

/-- The first `n` bytes and the rest, when there are that many. -/
def split? (n : ℕ) (bytes : Bytes) : Option (Bytes × Bytes) :=
  if bytes.length < n then none else some (bytes.take n, bytes.drop n)

theorem split?_append {front rest : Bytes} (h : front.length = n) :
    split? n (front ++ rest) = some (front, rest) := by
  rw [split?, if_neg, List.take_left' h, List.drop_left' h]
  rw [List.length_append]
  omega

end Library
