import Spacemesh.Scale.Codec

/-!
# Generated SCALE codecs

`EncodeScale` and `DecodeScale` of `server.Response`, `types.ATXMetadata`,
`types.MerkleProof` and `types.EpochActiveSet`, as `scalegen` writes them: the
fields in order, each through its go-scale function, the byte counts summed. A
Go string is its bytes, and `EpochID` a `uint32`. Every codec satisfies
`RoundTrips` for the limits of its declaration (`generated_codecs_roundtrip`).
-/

namespace Spacemesh.Scale

/-- The law of a generated codec: encoding succeeds exactly on `valid` values
and fails with `tooManyElements` on the others, and decoding the written bytes,
whatever follows them, gives back the value, reports the written length and
leaves what follows. -/
def RoundTrips {α : Type} (encode : α → Except ScaleError Bytes)
    (decode : Bytes → Except ScaleError (α × ℕ × Bytes)) (valid : α → Prop) : Prop :=
  (∀ v, valid v ↔ ∃ bs, encode v = .ok bs) ∧
  (∀ v, ¬ valid v → encode v = .error .tooManyElements) ∧
  ∀ v bs, encode v = .ok bs → ∀ rest, decode (bs ++ rest) = .ok (v, bs.length, rest)

theorem except_bind_eq_ok {ε α β : Type} {x : Except ε α} {f : α → Except ε β} {b : β} :
    (x >>= f) = .ok b ↔ ∃ a, x = .ok a ∧ f a = .ok b := by
  cases x <;> simp [except_ok_bind, except_error_bind]

theorem encodeByteSliceWithLimit_ok {v : Bytes} {limit : ℕ} (h : v.length ≤ limit) :
    encodeByteSliceWithLimit v limit = .ok (encodeCompact v.length ++ v) := by
  simp [encodeByteSliceWithLimit, Nat.not_lt.2 h]

theorem encodeByteSliceWithLimit_error {v : Bytes} {limit : ℕ} (h : limit < v.length) :
    encodeByteSliceWithLimit v limit = .error .tooManyElements := by
  simp [encodeByteSliceWithLimit, h]

theorem encodeStructSliceWithLimit_ok {v : List Hash32} {limit : ℕ} (h : v.length ≤ limit) :
    encodeStructSliceWithLimit v limit = .ok (encodeCompact v.length ++ (v.map encodeHash32).flatten) := by
  simp [encodeStructSliceWithLimit, Nat.not_lt.2 h]

theorem encodeStructSliceWithLimit_error {v : List Hash32} {limit : ℕ} (h : limit < v.length) :
    encodeStructSliceWithLimit v limit = .error .tooManyElements := by
  simp [encodeStructSliceWithLimit, h]

theorem uint32_ofNat_toNat (e : UInt32) : UInt32.ofNat e.toNat = e :=
  UInt32.toNat.inj (UInt32.toNat_ofNat_of_lt e.toNat_lt_size)

theorem uint64_ofNat_toNat (e : UInt64) : UInt64.ofNat e.toNat = e :=
  UInt64.toNat.inj (UInt64.toNat_ofNat_of_lt e.toNat_lt_size)

/-! ## `server.Response` -/

structure Response where
  data : Bytes
  error : Bytes
  deriving DecidableEq, Repr

namespace Response

def encodeScale (t : Response) : Except ScaleError Bytes := do
  let d ← encodeByteSliceWithLimit t.data 272629760
  let e ← encodeByteSliceWithLimit t.error 1024
  .ok (d ++ e)

def decodeScale (bs : Bytes) : Except ScaleError (Response × ℕ × Bytes) := do
  let (data, n, rest) ← decodeByteSliceWithLimit 272629760 bs
  let (error, m, rest) ← decodeByteSliceWithLimit 1024 rest
  .ok (⟨data, error⟩, n + m, rest)

def valid (t : Response) : Prop := t.data.length ≤ 272629760 ∧ t.error.length ≤ 1024

theorem encodeScale_of_valid {t : Response} (h : t.valid) :
    t.encodeScale = .ok (encodeCompact t.data.length ++ t.data ++ (encodeCompact t.error.length ++ t.error)) := by
  simp [encodeScale, encodeByteSliceWithLimit_ok h.1, encodeByteSliceWithLimit_ok h.2, except_ok_bind]

theorem roundTrips : RoundTrips encodeScale decodeScale valid := by
  refine ⟨fun t => ⟨fun h => ⟨_, encodeScale_of_valid h⟩, fun ⟨bs, h⟩ => ?_⟩, fun t h => ?_, ?_⟩
  · obtain ⟨d, hd, e, he, -⟩ := by simpa only [encodeScale, except_bind_eq_ok] using h
    unfold encodeByteSliceWithLimit at hd he
    split_ifs at hd he with h1 h2
    exact ⟨Nat.not_lt.1 h1, Nat.not_lt.1 h2⟩
  · rcases Nat.lt_or_ge 272629760 t.data.length with h1 | h1
    · simp [encodeScale, encodeByteSliceWithLimit_error h1, except_error_bind]
    · have h2 : 1024 < t.error.length := by unfold valid at h; omega
      simp [encodeScale, encodeByteSliceWithLimit_ok h1, encodeByteSliceWithLimit_error h2, except_ok_bind,
        except_error_bind]
  · intro t bs h rest
    obtain ⟨d, hd, e, he, rfl⟩ := by simpa only [encodeScale, except_bind_eq_ok, Except.ok.injEq] using h
    simp only [decodeScale, List.append_assoc, decodeByteSliceWithLimit_encode (by decide) hd,
      decodeByteSliceWithLimit_encode (by decide) he, except_ok_bind, List.length_append]

theorem decodeScale_rejects (bs : Bytes) :
    (∀ len n rest, decodeCompact 4 bs = .ok (len, n, rest) → 272629760 < len →
      decodeScale bs = .error .tooManyElements) ∧
    (∀ d n rest len m rest', decodeByteSliceWithLimit 272629760 bs = .ok (d, n, rest) →
      decodeCompact 4 rest = .ok (len, m, rest') → 1024 < len → decodeScale bs = .error .tooManyElements) := by
  refine ⟨fun len n rest h hl => ?_, fun d n rest len m rest' h h' hl => ?_⟩
  · simp [decodeScale, decodeByteSliceWithLimit_rejects h hl, except_error_bind]
  · simp [decodeScale, h, decodeByteSliceWithLimit_rejects h' hl, except_ok_bind, except_error_bind]

end Response

/-! ## `types.ATXMetadata` -/

structure ATXMetadata where
  publishEpoch : UInt32
  msgHash : Hash32
  deriving DecidableEq

namespace ATXMetadata

def encodeScale (t : ATXMetadata) : Except ScaleError Bytes :=
  .ok (encodeCompact t.publishEpoch.toNat ++ encodeHash32 t.msgHash)

def decodeScale (bs : Bytes) : Except ScaleError (ATXMetadata × ℕ × Bytes) := do
  let (field, n, rest) ← decodeCompact 4 bs
  let (h, m, rest) ← decodeHash32 rest
  .ok (⟨UInt32.ofNat field, h⟩, n + m, rest)

theorem roundTrips : RoundTrips encodeScale decodeScale fun _ => True := by
  refine ⟨fun t => ⟨fun _ => ⟨_, rfl⟩, fun _ => trivial⟩, fun t h => absurd trivial h, ?_⟩
  rintro t bs ⟨⟩ rest
  have hv : t.publishEpoch.toNat < 2 ^ (8 * 4) := t.publishEpoch.toNat_lt_size
  simp only [decodeScale, List.append_assoc, decodeCompact_encodeCompact le_rfl (by decide) hv,
    decodeHash32_encode, except_ok_bind, uint32_ofNat_toNat, List.length_append, length_encodeHash32]

end ATXMetadata

/-! ## `types.MerkleProof` -/

structure MerkleProof where
  nodes : List Hash32
  leafIndex : UInt64
  deriving DecidableEq

namespace MerkleProof

def encodeScale (t : MerkleProof) : Except ScaleError Bytes := do
  let a ← encodeStructSliceWithLimit t.nodes 32
  .ok (a ++ encodeCompact t.leafIndex.toNat)

def decodeScale (bs : Bytes) : Except ScaleError (MerkleProof × ℕ × Bytes) := do
  let (nodes, n, rest) ← decodeStructSliceWithLimit 32 bs
  let (field, m, rest) ← decodeCompact 8 rest
  .ok (⟨nodes, UInt64.ofNat field⟩, n + m, rest)

def valid (t : MerkleProof) : Prop := t.nodes.length ≤ 32

theorem encodeScale_of_valid {t : MerkleProof} (h : t.valid) :
    t.encodeScale = .ok (encodeCompact t.nodes.length ++ (t.nodes.map encodeHash32).flatten ++
      encodeCompact t.leafIndex.toNat) := by
  simp [encodeScale, encodeStructSliceWithLimit_ok h, except_ok_bind]

theorem roundTrips : RoundTrips encodeScale decodeScale valid := by
  refine ⟨fun t => ⟨fun h => ⟨_, encodeScale_of_valid h⟩, fun ⟨bs, h⟩ => ?_⟩, fun t h => ?_, ?_⟩
  · obtain ⟨a, ha, -⟩ := by simpa only [encodeScale, except_bind_eq_ok] using h
    unfold encodeStructSliceWithLimit at ha
    split_ifs at ha with h1
    exact Nat.not_lt.1 h1
  · simp [encodeScale, encodeStructSliceWithLimit_error (Nat.lt_of_not_le h), except_error_bind]
  · intro t bs h rest
    obtain ⟨a, ha, rfl⟩ := by simpa only [encodeScale, except_bind_eq_ok, Except.ok.injEq] using h
    have hv : t.leafIndex.toNat < 2 ^ (8 * 8) := t.leafIndex.toNat_lt_size
    simp only [decodeScale, List.append_assoc, decodeStructSliceWithLimit_encode (by decide) ha,
      decodeCompact_encodeCompact (by decide) le_rfl hv, except_ok_bind, uint64_ofNat_toNat,
      List.length_append]

theorem decodeScale_rejects (bs : Bytes) (len n : ℕ) (rest : Bytes) (h : decodeCompact 4 bs = .ok (len, n, rest))
    (hl : 32 < len) : decodeScale bs = .error .tooManyElements := by
  simp [decodeScale, decodeStructSliceWithLimit_rejects h hl, except_error_bind]

end MerkleProof

/-! ## `types.EpochActiveSet` -/

structure EpochActiveSet where
  epoch : UInt32
  set : List Hash32
  deriving DecidableEq

namespace EpochActiveSet

def encodeScale (t : EpochActiveSet) : Except ScaleError Bytes := do
  let s ← encodeStructSliceWithLimit t.set 8000000
  .ok (encodeCompact t.epoch.toNat ++ s)

def decodeScale (bs : Bytes) : Except ScaleError (EpochActiveSet × ℕ × Bytes) := do
  let (field, n, rest) ← decodeCompact 4 bs
  let (set, m, rest) ← decodeStructSliceWithLimit 8000000 rest
  .ok (⟨UInt32.ofNat field, set⟩, n + m, rest)

def valid (t : EpochActiveSet) : Prop := t.set.length ≤ 8000000

theorem encodeScale_of_valid {t : EpochActiveSet} (h : t.valid) :
    t.encodeScale = .ok (encodeCompact t.epoch.toNat ++
      (encodeCompact t.set.length ++ (t.set.map encodeHash32).flatten)) := by
  simp [encodeScale, encodeStructSliceWithLimit_ok h, except_ok_bind]

theorem roundTrips : RoundTrips encodeScale decodeScale valid := by
  refine ⟨fun t => ⟨fun h => ⟨_, encodeScale_of_valid h⟩, fun ⟨bs, h⟩ => ?_⟩, fun t h => ?_, ?_⟩
  · obtain ⟨a, ha, -⟩ := by simpa only [encodeScale, except_bind_eq_ok] using h
    unfold encodeStructSliceWithLimit at ha
    split_ifs at ha with h1
    exact Nat.not_lt.1 h1
  · simp [encodeScale, encodeStructSliceWithLimit_error (Nat.lt_of_not_le h), except_error_bind]
  · intro t bs h rest
    obtain ⟨s, hs, rfl⟩ := by simpa only [encodeScale, except_bind_eq_ok, Except.ok.injEq] using h
    have hv : t.epoch.toNat < 2 ^ (8 * 4) := t.epoch.toNat_lt_size
    simp only [decodeScale, List.append_assoc, decodeCompact_encodeCompact le_rfl (by decide) hv,
      decodeStructSliceWithLimit_encode (by decide) hs, except_ok_bind, uint32_ofNat_toNat,
      List.length_append]

theorem decodeScale_rejects (bs : Bytes) (e n : ℕ) (rest : Bytes) (len m : ℕ) (rest' : Bytes)
    (h : decodeCompact 4 bs = .ok (e, n, rest)) (h' : decodeCompact 4 rest = .ok (len, m, rest'))
    (hl : 8000000 < len) : decodeScale bs = .error .tooManyElements := by
  simp [decodeScale, h, decodeStructSliceWithLimit_rejects h' hl, except_ok_bind, except_error_bind]

end EpochActiveSet

/-- The four generated codecs round-trip within their declared limits, and each
decoder rejects a length prefix above its field's limit. -/
theorem generated_codecs_roundtrip :
    RoundTrips Response.encodeScale Response.decodeScale Response.valid ∧
    RoundTrips ATXMetadata.encodeScale ATXMetadata.decodeScale (fun _ => True) ∧
    RoundTrips MerkleProof.encodeScale MerkleProof.decodeScale MerkleProof.valid ∧
    RoundTrips EpochActiveSet.encodeScale EpochActiveSet.decodeScale EpochActiveSet.valid ∧
    (∀ bs len n rest, decodeCompact 4 bs = .ok (len, n, rest) → 272629760 < len →
      Response.decodeScale bs = .error .tooManyElements) ∧
    (∀ bs d n rest len m rest', decodeByteSliceWithLimit 272629760 bs = .ok (d, n, rest) →
      decodeCompact 4 rest = .ok (len, m, rest') → 1024 < len →
      Response.decodeScale bs = .error .tooManyElements) ∧
    (∀ bs len n rest, decodeCompact 4 bs = .ok (len, n, rest) → 32 < len →
      MerkleProof.decodeScale bs = .error .tooManyElements) ∧
    (∀ bs e n rest len m rest', decodeCompact 4 bs = .ok (e, n, rest) →
      decodeCompact 4 rest = .ok (len, m, rest') → 8000000 < len →
      EpochActiveSet.decodeScale bs = .error .tooManyElements) :=
  ⟨Response.roundTrips, ATXMetadata.roundTrips, MerkleProof.roundTrips, EpochActiveSet.roundTrips,
    fun bs => (Response.decodeScale_rejects bs).1, fun bs => (Response.decodeScale_rejects bs).2,
    MerkleProof.decodeScale_rejects, EpochActiveSet.decodeScale_rejects⟩

end Spacemesh.Scale
