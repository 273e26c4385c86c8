import Mathlib.Algebra.Group.Nat.Basic
import Mathlib.Data.List.Basic

/-!
# SCALE encoding

The functions of `spacemeshos/go-scale` that the generated codecs call. The
library is not part of the sources; its functions are modelled from the SCALE
format. A compact integer takes one, two or four bytes, little-endian, with its
mode in the low two bits (`00`, `01`, `10`), or, from `2^30` on, a header byte
`(len - 4) << 2 | 11` followed by its `len ≥ 4` bytes. A slice or a string is its
compact length followed by its contents; a byte array is its bytes.

An encoder returns the bytes it writes (the byte count it reports is their
number); a decoder returns the value, the byte count it reports and the rest of
its input.
-/

namespace Spacemesh.Scale

abbrev Bytes := List UInt8

inductive ScaleError
  /-- `io.ErrUnexpectedEOF`: the input ends early. -/
  | eof
  /-- A slice or string longer than its limit, when encoding or decoding. -/
  | tooManyElements
  /-- A big-integer compact wider than the integer decoded. -/
  | invalidCompact
  deriving DecidableEq, Repr

@[simp] theorem except_ok_bind {ε α β : Type} (a : α) (f : α → Except ε β) : (Except.ok a >>= f) = f a := rfl

@[simp] theorem except_error_bind {ε α β : Type} (e : ε) (f : α → Except ε β) :
    (Except.error e >>= f) = Except.error e := rfl

/-! ## Little-endian bytes -/

def leBytes : ℕ → ℕ → Bytes
  | 0, _ => []
  | k + 1, v => UInt8.ofNat v :: leBytes k (v / 256)

def leValue : Bytes → ℕ
  | [] => 0
  | b :: bs => b.toNat + 256 * leValue bs

theorem toNat_uint8_ofNat (v : ℕ) : (UInt8.ofNat v).toNat = v % 256 := rfl

@[simp] theorem length_leBytes (k v : ℕ) : (leBytes k v).length = k := by
  induction k generalizing v <;> simp [leBytes, *]

theorem leValue_leBytes (k v : ℕ) : leValue (leBytes k v) = v % 256 ^ k := by
  induction k generalizing v with
  | zero => simp [leBytes, leValue, Nat.mod_one]
  | succ k ih => rw [leBytes, leValue, ih, toNat_uint8_ofNat, Nat.pow_succ', Nat.mod_mul]

/-- `io.ReadFull` of `n` bytes. -/
def readBytes (n : ℕ) (bs : Bytes) : Except ScaleError (Bytes × Bytes) :=
  if n ≤ bs.length then .ok (bs.take n, bs.drop n) else .error .eof

@[simp] theorem readBytes_append (v rest : Bytes) : readBytes v.length (v ++ rest) = .ok (v, rest) := by
  simp [readBytes]

theorem readBytes_append_of_length {n : ℕ} {v : Bytes} (h : v.length = n) (rest : Bytes) :
    readBytes n (v ++ rest) = .ok (v, rest) := h ▸ readBytes_append v rest

/-! ## Compact integers -/

def bigLen (v : ℕ) : ℕ := Nat.log2 v / 8 + 1

/-- `EncodeCompact32`, `EncodeCompact64` and `EncodeLen`. -/
def encodeCompact (v : ℕ) : Bytes :=
  if v < 2 ^ 6 then leBytes 1 (v * 4)
  else if v < 2 ^ 14 then leBytes 2 (v * 4 + 1)
  else if v < 2 ^ 30 then leBytes 4 (v * 4 + 2)
  else UInt8.ofNat ((bigLen v - 4) * 4 + 3) :: leBytes (bigLen v) v

/-- `DecodeCompact32` (`maxLen = 4`), `DecodeCompact64` (`maxLen = 8`) and
`DecodeLen`. -/
def decodeCompact (maxLen : ℕ) : Bytes → Except ScaleError (ℕ × ℕ × Bytes)
  | [] => .error .eof
  | b :: bs =>
    match b.toNat % 4 with
    | 0 => .ok (b.toNat / 4, 1, bs)
    | 1 => (readBytes 1 bs).map fun r => (leValue (b :: r.1) / 4, 2, r.2)
    | 2 => (readBytes 3 bs).map fun r => (leValue (b :: r.1) / 4, 4, r.2)
    | _ =>
      if maxLen < b.toNat / 4 + 4 then .error .invalidCompact
      else (readBytes (b.toNat / 4 + 4) bs).map fun r => (leValue r.1, b.toNat / 4 + 5, r.2)

theorem bigLen_bounds {maxLen v : ℕ} (hbig : 2 ^ 30 ≤ v) (hv : v < 2 ^ (8 * maxLen)) :
    4 ≤ bigLen v ∧ bigLen v ≤ maxLen ∧ v < 256 ^ bigLen v := by
  have hv0 : v ≠ 0 := by omega
  have h30 : 30 ≤ v.log2 := (Nat.le_log2 hv0).2 hbig
  have hlt : v.log2 < 8 * maxLen := (Nat.log2_lt hv0).2 hv
  refine ⟨by unfold bigLen; omega, by unfold bigLen; omega, ?_⟩
  calc v < 2 ^ (v.log2 + 1) := Nat.lt_log2_self
    _ ≤ 2 ^ (8 * bigLen v) := Nat.pow_le_pow_right (by decide) (by unfold bigLen; omega)
    _ = 256 ^ bigLen v := by rw [Nat.pow_mul]

theorem decodeCompact_encodeCompact {maxLen v : ℕ} (hmax : 4 ≤ maxLen) (hmax8 : maxLen ≤ 8)
    (hv : v < 2 ^ (8 * maxLen)) (rest : Bytes) :
    decodeCompact maxLen (encodeCompact v ++ rest) = .ok (v, (encodeCompact v).length, rest) := by
  unfold encodeCompact
  split_ifs with h6 h14 h30
  · have hb : (UInt8.ofNat (v * 4)).toNat = v * 4 := by rw [toNat_uint8_ofNat]; omega
    simp only [leBytes, List.cons_append, List.nil_append, decodeCompact, hb, List.length_singleton]
    rw [show v * 4 % 4 = 0 by omega]
    simp
  · have hb : (UInt8.ofNat (v * 4 + 1)).toNat % 4 = 1 := by rw [toNat_uint8_ofNat]; omega
    have hval : leValue (leBytes 2 (v * 4 + 1)) / 4 = v := by rw [leValue_leBytes]; omega
    simp only [leBytes] at hval ⊢
    simp [decodeCompact, hb, readBytes, Except.map, hval]
  · have hb : (UInt8.ofNat (v * 4 + 2)).toNat % 4 = 2 := by rw [toNat_uint8_ofNat]; omega
    have hval : leValue (leBytes 4 (v * 4 + 2)) / 4 = v := by rw [leValue_leBytes]; omega
    simp only [leBytes] at hval ⊢
    simp [decodeCompact, hb, readBytes, Except.map, hval]
  · obtain ⟨h4, hle, hlt⟩ := bigLen_bounds (by omega) hv
    have hb : (UInt8.ofNat ((bigLen v - 4) * 4 + 3)).toNat = (bigLen v - 4) * 4 + 3 := by
      rw [toNat_uint8_ofNat]; omega
    simp only [List.cons_append, decodeCompact, hb]
    rw [show ((bigLen v - 4) * 4 + 3) % 4 = 3 by omega,
      show ((bigLen v - 4) * 4 + 3) / 4 + 4 = bigLen v by omega, if_neg (by omega),
      readBytes_append_of_length (length_leBytes _ _)]
    simp [Except.map, leValue_leBytes, Nat.mod_eq_of_lt hlt]
    omega

/-! ## Slices, strings and arrays -/

/-- `EncodeByteSliceWithLimit`, and `EncodeStringWithLimit` on the string's bytes. -/
def encodeByteSliceWithLimit (v : Bytes) (limit : ℕ) : Except ScaleError Bytes :=
  if limit < v.length then .error .tooManyElements else .ok (encodeCompact v.length ++ v)

/-- `DecodeByteSliceWithLimit`, and `DecodeStringWithLimit`. -/
def decodeByteSliceWithLimit (limit : ℕ) (bs : Bytes) : Except ScaleError (Bytes × ℕ × Bytes) := do
  let (len, n, rest) ← decodeCompact 4 bs
  if limit < len then .error .tooManyElements
  else
    let (v, rest) ← readBytes len rest
    .ok (v, n + len, rest)

theorem decodeByteSliceWithLimit_encode {limit : ℕ} (hlimit : limit < 2 ^ 32) {v bs : Bytes}
    (h : encodeByteSliceWithLimit v limit = .ok bs) (rest : Bytes) :
    decodeByteSliceWithLimit limit (bs ++ rest) = .ok (v, bs.length, rest) := by
  unfold encodeByteSliceWithLimit at h
  split_ifs at h with hl
  cases h
  have hv : v.length < 2 ^ (8 * 4) := by omega
  simp only [decodeByteSliceWithLimit, List.append_assoc, decodeCompact_encodeCompact le_rfl (by decide) hv,
    if_neg hl, readBytes_append, List.length_append, except_ok_bind]

theorem decodeByteSliceWithLimit_rejects {limit len n : ℕ} {bs rest : Bytes}
    (h : decodeCompact 4 bs = .ok (len, n, rest)) (hl : limit < len) :
    decodeByteSliceWithLimit limit bs = .error .tooManyElements := by
  simp [decodeByteSliceWithLimit, h, hl]

/-- `types.Hash32` and `types.ATXID`: 32 bytes. -/
structure Hash32 where
  bytes : Bytes
  length_eq : bytes.length = 32
  deriving DecidableEq

/-- `EncodeByteArray` of a 32-byte array. -/
def encodeHash32 (h : Hash32) : Bytes := h.bytes

/-- `DecodeByteArray` into a 32-byte array. -/
def decodeHash32 (bs : Bytes) : Except ScaleError (Hash32 × ℕ × Bytes) :=
  if h : 32 ≤ bs.length then .ok (⟨bs.take 32, by simp [h]⟩, 32, bs.drop 32) else .error .eof

@[simp] theorem length_encodeHash32 (h : Hash32) : (encodeHash32 h).length = 32 := h.length_eq

theorem decodeHash32_encode (h : Hash32) (rest : Bytes) :
    decodeHash32 (encodeHash32 h ++ rest) = .ok (h, 32, rest) := by
  have hl := h.length_eq
  simp only [decodeHash32, encodeHash32, List.length_append, hl, List.drop_left' hl]
  rw [dif_pos (by omega)]
  congr
  exact List.take_left' hl

/-- The element loop of `DecodeStructSliceWithLimit` over 32-byte arrays. -/
def decodeHashes : ℕ → Bytes → Except ScaleError (List Hash32 × ℕ × Bytes)
  | 0, bs => .ok ([], 0, bs)
  | k + 1, bs => do
    let (h, n, rest) ← decodeHash32 bs
    let (hs, m, rest) ← decodeHashes k rest
    .ok (h :: hs, n + m, rest)

theorem decodeHashes_encode (hs : List Hash32) (rest : Bytes) :
    decodeHashes hs.length ((hs.map encodeHash32).flatten ++ rest) = .ok (hs, 32 * hs.length, rest) := by
  induction hs with
  | nil => rfl
  | cons h hs ih =>
    simp only [List.length_cons, List.map_cons, List.flatten_cons, List.append_assoc, decodeHashes,
      decodeHash32_encode, ih, except_ok_bind]
    congr 3
    omega

def encodeStructSliceWithLimit (v : List Hash32) (limit : ℕ) : Except ScaleError Bytes :=
  if limit < v.length then .error .tooManyElements
  else .ok (encodeCompact v.length ++ (v.map encodeHash32).flatten)

def decodeStructSliceWithLimit (limit : ℕ) (bs : Bytes) : Except ScaleError (List Hash32 × ℕ × Bytes) := do
  let (len, n, rest) ← decodeCompact 4 bs
  if limit < len then .error .tooManyElements
  else
    let (v, m, rest) ← decodeHashes len rest
    .ok (v, n + m, rest)

theorem length_flatten_encodeHash32 (hs : List Hash32) :
    (hs.map encodeHash32).flatten.length = 32 * hs.length := by
  induction hs with
  | nil => rfl
  | cons h hs ih => simp only [List.map_cons, List.flatten_cons, List.length_append, ih, encodeHash32,
      h.length_eq, List.length_cons]; omega

theorem decodeStructSliceWithLimit_encode {limit : ℕ} (hlimit : limit < 2 ^ 32) {v : List Hash32}
    {bs : Bytes} (h : encodeStructSliceWithLimit v limit = .ok bs) (rest : Bytes) :
    decodeStructSliceWithLimit limit (bs ++ rest) = .ok (v, bs.length, rest) := by
  unfold encodeStructSliceWithLimit at h
  split_ifs at h with hl
  cases h
  have hv : v.length < 2 ^ (8 * 4) := by omega
  simp only [decodeStructSliceWithLimit, List.append_assoc, decodeCompact_encodeCompact le_rfl (by decide) hv,
    if_neg hl, decodeHashes_encode, List.length_append, length_flatten_encodeHash32, except_ok_bind]

theorem decodeStructSliceWithLimit_rejects {limit len n : ℕ} {bs rest : Bytes}
    (h : decodeCompact 4 bs = .ok (len, n, rest)) (hl : limit < len) :
    decodeStructSliceWithLimit limit bs = .error .tooManyElements := by
  simp [decodeStructSliceWithLimit, h, hl]

end Spacemesh.Scale
