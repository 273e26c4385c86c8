import Mathlib.Data.Nat.Bitwise

/-!
# Bit prefixes of 32-byte ids

`prefix` of the dbsync fingerprint tree: a `uint64` whose low 6 bits hold a
length `l ≤ 58` and whose upper bits hold the first `l` bits of an id. A 32-byte
id is its big-endian value below `2^256`; `load64` reads its first 8 bytes.
Values of Go's `uint64` are `ℕ` here: left shifts and sums are taken modulo
`2^64`, and a right shift by 64 or more gives 0, as in Go.

`prefixOf l b` is the prefix of length `l` with bits `b`, and `hashBits h l` the
first `l` bits of an id. On prefixes of at most 24 bits, `cacheIndex` is the heap
index `b + 2^l - 1`, one for each prefix, and `left` and `right` append a bit: the
heap of `cachedSize * 2` nodes is laid out as a binary tree whose node `i` has its
children at `2i + 1` and `2i + 2` (`cacheIndex_heap_layout`).

`hashPrefix`, `commonPrefix`, `preFirst0` and `preFirst1` read the first bits of ids;
`bits.LeadingZeros64` counts how many of the first bits of a word are zero, so
`commonPrefix` has as many bits as the two ids agree on, and `preFirst0` and
`preFirst1` as many as the id's first run of ones or zeros, at most 58
(`prefix_extraction`).
-/

namespace Spacemesh.Dbsync

abbrev Hash32 := Fin (2 ^ 256)

def cachedBits : ℕ := 24
def cachedSize : ℕ := 2 ^ cachedBits
def prefixLenBits : ℕ := 6
def prefixLenMask : ℕ := 2 ^ prefixLenBits - 1
/-- `^uint64(prefixLenMask)`. -/
def prefixBitMask : ℕ := 2 ^ 64 - 1 - prefixLenMask
def maxPrefixLen : ℕ := 64 - prefixLenBits

abbrev Prefix := ℕ

namespace Prefix

def len (p : Prefix) : ℕ := p &&& prefixLenMask

def bits (p : Prefix) : ℕ := p >>> prefixLenBits

/-- `prefix.left`: one more bit, a zero; it panics at the maximal length. -/
def left (p : Prefix) : Except String Prefix :=
  let l := p &&& prefixLenMask
  if l = maxPrefixLen then .error "BUG: max prefix len reached"
  else .ok ((((p &&& prefixBitMask) <<< 1) % 2 ^ 64 + l + 1) % 2 ^ 64)

def right (p : Prefix) : Except String Prefix :=
  (left p).map fun q => (q + 2 ^ prefixLenBits) % 2 ^ 64

def cacheIndex (p : Prefix) : Option ℕ :=
  if p.len ≤ cachedBits then some (((p.bits ||| 2 ^ p.len) - 1) % 2 ^ 32) else none

end Prefix

def load64 (h : Hash32) : ℕ := h.val / 2 ^ 192

/-- `bits.Len64`: the number of bits of a `uint64`. -/
def len64 (v : ℕ) : ℕ := if v = 0 then 0 else Nat.log2 v + 1

/-- `bits.LeadingZeros64`. -/
def leadingZeros64 (v : ℕ) : ℕ := 64 - len64 v

/-- `hashPrefix(h, nbits)`; it panics for `nbits > maxPrefixLen`. -/
def hashPrefix (h : Hash32) (nbits : ℕ) : Except String Prefix :=
  if maxPrefixLen < nbits then .error "BUG: bad prefix length"
  else if nbits = 0 then .ok 0
  else .ok (((load64 h >>> (64 - nbits - prefixLenBits)) &&& prefixBitMask) + nbits)

def preFirst0 (h : Hash32) : Except String Prefix :=
  hashPrefix h (min maxPrefixLen (leadingZeros64 (2 ^ 64 - 1 - load64 h)))

def preFirst1 (h : Hash32) : Except String Prefix :=
  hashPrefix h (min maxPrefixLen (leadingZeros64 (load64 h)))

def commonPrefix (a b : Hash32) : Prefix :=
  let v1 := load64 a
  let l := min maxPrefixLen (leadingZeros64 (v1 ^^^ load64 b))
  (((v1 >>> (64 - l)) <<< prefixLenBits) % 2 ^ 64 + l) % 2 ^ 64

/-! ## Prefixes of ids -/

def prefixOf (l b : ℕ) : Prefix := 2 ^ prefixLenBits * b + l

def hashBits (h : Hash32) (l : ℕ) : ℕ := load64 h >>> (64 - l)

def heapIndex (l b : ℕ) : ℕ := b + 2 ^ l - 1

theorem or_two_pow_of_lt {b l : ℕ} (hb : b < 2 ^ l) : b ||| 2 ^ l = 2 ^ l * 1 + b := by
  apply Nat.eq_of_testBit_eq
  intro i
  rw [Nat.testBit_or, Nat.testBit_two_pow, Nat.testBit_mul_pow_two_add _ hb]
  split_ifs with hi
  · simp [show l ≠ i by omega]
  · rw [Nat.testBit_lt_two_pow (lt_of_lt_of_le hb (Nat.pow_le_pow_right (by omega) (by omega)))]
    rw [← Nat.pow_zero 2, Nat.testBit_two_pow]
    simp only [Bool.false_or, decide_eq_decide]
    omega

theorem prefixBitMask_eq : prefixBitMask = 2 ^ prefixLenBits * (2 ^ 58 - 1) + 0 := rfl

theorem and_prefixBitMask {l b : ℕ} (hl : l < 2 ^ prefixLenBits) (hb : b < 2 ^ 58) :
    (2 ^ prefixLenBits * b + l) &&& prefixBitMask = 2 ^ prefixLenBits * b + 0 := by
  apply Nat.eq_of_testBit_eq
  intro i
  rw [prefixBitMask_eq, Nat.testBit_and, Nat.testBit_mul_pow_two_add _ hl,
    Nat.testBit_mul_pow_two_add _ (Nat.two_pow_pos _), Nat.testBit_mul_pow_two_add _ (Nat.two_pow_pos _)]
  split_ifs with hi
  · simp
  · rw [Nat.testBit_two_pow_sub_one]
    by_cases h58 : i - prefixLenBits < 58
    · simp [h58]
    · simp [h58, Nat.testBit_lt_two_pow (lt_of_lt_of_le hb (Nat.pow_le_pow_right (by decide) (not_lt.1 h58)))]

theorem len_prefixOf {l : ℕ} (b : ℕ) (hl : l < 2 ^ prefixLenBits) : (prefixOf l b).len = l := by
  rw [Prefix.len, prefixLenMask, prefixOf, Nat.and_pow_two_sub_one_eq_mod, Nat.mul_add_mod, Nat.mod_eq_of_lt hl]

theorem bits_prefixOf {l : ℕ} (b : ℕ) (hl : l < 2 ^ prefixLenBits) : (prefixOf l b).bits = b := by
  rw [Prefix.bits, prefixOf, Nat.shiftRight_eq_div_pow, Nat.mul_add_div (Nat.two_pow_pos _), Nat.div_eq_of_lt hl]
  rfl

theorem cacheIndex_prefixOf {l b : ℕ} (hl : l ≤ cachedBits) (hb : b < 2 ^ l) :
    (prefixOf l b).cacheIndex = some (heapIndex l b) := by
  have h64 : l < 2 ^ prefixLenBits := by simp only [cachedBits, prefixLenBits] at hl ⊢; omega
  have hpow : 2 ^ l ≤ 2 ^ 24 := Nat.pow_le_pow_right (by omega) hl
  rw [Prefix.cacheIndex, len_prefixOf b h64, bits_prefixOf b h64, if_pos hl, or_two_pow_of_lt hb, heapIndex,
    Nat.mod_eq_of_lt (by omega)]
  congr 1; omega

theorem left_prefixOf {l b : ℕ} (hl : l < cachedBits) (hb : b < 2 ^ l) :
    (prefixOf l b).left = .ok (prefixOf (l + 1) (2 * b)) := by
  simp only [cachedBits] at hl
  have h64 : l < 2 ^ prefixLenBits := by simp only [prefixLenBits]; omega
  have hpow : 2 ^ l ≤ 2 ^ 24 := Nat.pow_le_pow_right (by omega) hl.le
  have hlen : prefixOf l b &&& prefixLenMask = l := len_prefixOf b h64
  simp only [Prefix.left, hlen]
  rw [if_neg (show l ≠ maxPrefixLen by simp only [maxPrefixLen, prefixLenBits]; omega)]
  simp only [prefixOf, @and_prefixBitMask l b h64 (by omega), Nat.shiftLeft_eq]
  simp only [prefixLenBits]
  congr 1
  change @Eq ℕ _ _
  omega

theorem right_prefixOf {l b : ℕ} (hl : l < cachedBits) (hb : b < 2 ^ l) :
    (prefixOf l b).right = .ok (prefixOf (l + 1) (2 * b + 1)) := by
  have hpow : 2 ^ l ≤ 2 ^ 24 := Nat.pow_le_pow_right (by omega) (by simp only [cachedBits] at hl; omega)
  rw [Prefix.right, left_prefixOf hl hb]
  simp only [cachedBits] at hl
  simp only [Except.map, prefixOf, prefixLenBits]
  congr 1
  change @Eq ℕ _ _
  omega


theorem load64_lt (h : Hash32) : load64 h < 2 ^ 64 :=
  (Nat.div_lt_iff_lt_mul (Nat.two_pow_pos _)).2 (by rw [← Nat.pow_add]; exact h.isLt)

theorem hashBits_lt (h : Hash32) {l : ℕ} (hl : l ≤ 64) : hashBits h l < 2 ^ l := by
  rw [hashBits, Nat.shiftRight_eq_div_pow, Nat.div_lt_iff_lt_mul (Nat.two_pow_pos _), ← Nat.pow_add,
    Nat.add_sub_cancel' hl]
  exact load64_lt h

theorem hashBits_zero (h : Hash32) : hashBits h 0 = 0 := by
  rw [hashBits, Nat.shiftRight_eq_div_pow]
  exact Nat.div_eq_of_lt (load64_lt h)

theorem hashBits_shiftRight (h : Hash32) {j l : ℕ} (hjl : j ≤ l) (hl : l ≤ 64) :
    hashBits h l >>> (l - j) = hashBits h j := by
  rw [hashBits, hashBits, ← Nat.shiftRight_add]
  congr 1; omega

theorem hashBits_succ (h : Hash32) {l : ℕ} (hl : l < 64) :
    hashBits h (l + 1) = 2 * hashBits h l + ((load64 h).testBit (63 - l)).toNat := by
  have hdiv : hashBits h l = hashBits h (l + 1) / 2 := by
    rw [← hashBits_shiftRight h (Nat.le_add_right l 1) hl, Nat.shiftRight_eq_div_pow, Nat.add_sub_cancel_left,
      Nat.pow_one]
  have hbit : ((load64 h).testBit (63 - l)).toNat = hashBits h (l + 1) % 2 := by
    rw [Nat.testBit_to_div_mod, hashBits, Nat.shiftRight_eq_div_pow, show 64 - (l + 1) = 63 - l by omega]
    rcases Nat.mod_two_eq_zero_or_one (load64 h / 2 ^ (63 - l)) with h0 | h1 <;> simp [*]
  omega

theorem hashBits_succ_shiftRight (h : Hash32) {l : ℕ} (hl : l < 64) : hashBits h (l + 1) >>> 1 = hashBits h l := by
  simpa using hashBits_shiftRight h (Nat.le_add_right l 1) hl

theorem and_bit63_eq_zero (x : ℕ) {k : ℕ} (hk : k < 64) :
    x * 2 ^ k % 2 ^ 64 &&& 2 ^ 63 = 0 ↔ x.testBit (63 - k) = false := by
  rw [Nat.and_two_pow, Nat.testBit_mod_two_pow, ← Nat.shiftLeft_eq x k, Nat.testBit_shiftLeft]
  cases x.testBit (63 - k) <;> simp [show k ≤ 63 by omega]

theorem heapIndex_inj {l b l' b' : ℕ} (hb : b < 2 ^ l) (hb' : b' < 2 ^ l')
    (h : heapIndex l b = heapIndex l' b') : l = l' ∧ b = b' := by
  unfold heapIndex at h
  have h1 := Nat.two_pow_pos l
  have h2 := Nat.two_pow_pos l'
  rcases lt_trichotomy l l' with hlt | rfl | hlt
  · have := Nat.pow_le_pow_right (by decide : 2 > 0) hlt
    rw [Nat.pow_succ] at this; omega
  · omega
  · have := Nat.pow_le_pow_right (by decide : 2 > 0) hlt
    rw [Nat.pow_succ] at this; omega

/-! ## The heap layout -/

theorem prefixOf_len_bits (p : Prefix) : prefixOf p.len p.bits = p := by
  rw [prefixOf, Prefix.len, Prefix.bits, prefixLenMask, Nat.and_pow_two_sub_one_eq_mod,
    Nat.shiftRight_eq_div_pow, Nat.div_add_mod]

theorem len_lt_two_pow (p : Prefix) : p.len < 2 ^ prefixLenBits := by
  rw [Prefix.len, prefixLenMask, Nat.and_pow_two_sub_one_eq_mod]
  exact Nat.mod_lt _ (Nat.two_pow_pos _)

theorem cacheIndex_eq_heapIndex {p : Prefix} (hl : p.len ≤ cachedBits) (hb : p.bits < 2 ^ p.len) :
    p.cacheIndex = some (heapIndex p.len p.bits) := by
  simpa only [prefixOf_len_bits] using cacheIndex_prefixOf hl hb

theorem left_of_cached {p : Prefix} (hl : p.len < cachedBits) (hb : p.bits < 2 ^ p.len) :
    p.left = .ok (prefixOf (p.len + 1) (2 * p.bits)) := by
  simpa only [prefixOf_len_bits] using left_prefixOf hl hb

theorem right_of_cached {p : Prefix} (hl : p.len < cachedBits) (hb : p.bits < 2 ^ p.len) :
    p.right = .ok (prefixOf (p.len + 1) (2 * p.bits + 1)) := by
  simpa only [prefixOf_len_bits] using right_prefixOf hl hb

theorem heapIndex_lt {l b : ℕ} (hl : l ≤ cachedBits) (hb : b < 2 ^ l) : heapIndex l b < cachedSize * 2 := by
  have : 2 ^ l ≤ 2 ^ cachedBits := Nat.pow_le_pow_right (by omega) hl
  unfold heapIndex cachedSize; omega

theorem heapIndex_left (l b : ℕ) : heapIndex (l + 1) (2 * b) = 2 * heapIndex l b + 1 := by
  have := Nat.two_pow_pos l
  unfold heapIndex; rw [Nat.pow_succ]; omega

theorem heapIndex_right (l b : ℕ) : heapIndex (l + 1) (2 * b + 1) = 2 * heapIndex l b + 2 := by
  have := Nat.two_pow_pos l
  unfold heapIndex; rw [Nat.pow_succ]; omega

/-- The prefixes of at most 24 bits whose bits fit their length have the heap index
`2^len - 1 + bits`, inside the `cachedSize * 2` nodes of `fpTree.nodes` and one for each
prefix; below 24 bits, `left` and `right` append a 0 and a 1 and their indexes are the
heap children `2i + 1` and `2i + 2`; a longer prefix has no index. -/
theorem cacheIndex_heap_layout :
    (∀ p : Prefix, p.len ≤ cachedBits → p.bits < 2 ^ p.len →
      p.cacheIndex = some (2 ^ p.len - 1 + p.bits) ∧ 2 ^ p.len - 1 + p.bits < cachedSize * 2) ∧
    (∀ p q : Prefix, p.len ≤ cachedBits → p.bits < 2 ^ p.len → q.len ≤ cachedBits → q.bits < 2 ^ q.len →
      p ≠ q → p.cacheIndex ≠ q.cacheIndex) ∧
    (∀ p : Prefix, p.len < cachedBits → p.bits < 2 ^ p.len → ∃ l r i,
      p.left = .ok l ∧ p.right = .ok r ∧ p.cacheIndex = some i ∧
      l.len = p.len + 1 ∧ l.bits = 2 * p.bits ∧ r.len = p.len + 1 ∧ r.bits = 2 * p.bits + 1 ∧
      l.cacheIndex = some (2 * i + 1) ∧ r.cacheIndex = some (2 * i + 2)) ∧
    (∀ p : Prefix, cachedBits < p.len → p.cacheIndex = none) := by
  refine ⟨fun p hl hb => ?_, fun p q hpl hpb hql hqb hne h => ?_, fun p hl hb => ?_, fun p hl => ?_⟩
  · have hidx := heapIndex_lt hl hb
    have hpos := Nat.two_pow_pos p.len
    unfold heapIndex at hidx
    rw [cacheIndex_eq_heapIndex hl hb, heapIndex]
    exact ⟨by congr 1; omega, by omega⟩
  · rw [cacheIndex_eq_heapIndex hpl hpb, cacheIndex_eq_heapIndex hql hqb, Option.some_inj] at h
    obtain ⟨hlen, hbits⟩ := heapIndex_inj hpb hqb h
    exact hne (by rw [← prefixOf_len_bits p, ← prefixOf_len_bits q, hlen, hbits])
  · have hlt : p.len + 1 < 2 ^ prefixLenBits := by simp only [cachedBits, prefixLenBits] at hl ⊢; omega
    have hb2 : 2 * p.bits < 2 ^ (p.len + 1) := by rw [Nat.pow_succ]; omega
    refine ⟨_, _, _, left_of_cached hl hb, right_of_cached hl hb, cacheIndex_eq_heapIndex hl.le hb,
      len_prefixOf _ hlt, bits_prefixOf _ hlt, len_prefixOf _ hlt, bits_prefixOf _ hlt, ?_, ?_⟩
    · rw [cacheIndex_prefixOf hl hb2, heapIndex_left]
    · rw [cacheIndex_prefixOf hl (by omega), heapIndex_right]
  · rw [Prefix.cacheIndex, if_neg (not_le.2 hl)]

example : (prefixOf 2 1).cacheIndex = some 4 := by decide

/-! ## Prefixes read from ids -/

theorem and_prefixBitMask_eq (x : ℕ) (hx : x >>> prefixLenBits < 2 ^ 58) :
    x &&& prefixBitMask = 2 ^ prefixLenBits * (x >>> prefixLenBits) := by
  conv_lhs => rw [← prefixOf_len_bits x]
  exact and_prefixBitMask (len_lt_two_pow x) hx

theorem hashPrefix_eq (h : Hash32) {n : ℕ} (hn : n ≤ maxPrefixLen) :
    hashPrefix h n = .ok (prefixOf n (hashBits h n)) := by
  have hn' : n ≤ 58 := hn
  rw [hashPrefix, if_neg (not_lt.2 hn)]
  split_ifs with h0
  · rw [h0, hashBits_zero]; rfl
  · have hshift : load64 h >>> (64 - n - prefixLenBits) >>> prefixLenBits = hashBits h n := by
      rw [← Nat.shiftRight_add, hashBits]; congr 1; simp only [prefixLenBits]; omega
    have hlt : hashBits h n < 2 ^ 58 :=
      lt_of_lt_of_le (hashBits_lt h (by omega)) (Nat.pow_le_pow_right (by omega) hn')
    rw [and_prefixBitMask_eq _ (hshift ▸ hlt), hshift, prefixOf]

theorem hashPrefix_len_bits (h : Hash32) {n : ℕ} (hn : n ≤ maxPrefixLen) :
    ∃ p, hashPrefix h n = .ok p ∧ p.len = n ∧ p.bits = hashBits h n := by
  have h64 : n < 2 ^ prefixLenBits := by simp only [maxPrefixLen, prefixLenBits] at hn ⊢; omega
  exact ⟨_, hashPrefix_eq h hn, len_prefixOf _ h64, bits_prefixOf _ h64⟩

theorem prefix_word {l x : ℕ} (hl : l ≤ maxPrefixLen) (hx : x < 2 ^ l) :
    ((x <<< prefixLenBits) % 2 ^ 64 + l) % 2 ^ 64 = prefixOf l x := by
  have : 2 ^ l ≤ 2 ^ 58 := Nat.pow_le_pow_right (by omega) hl
  simp only [maxPrefixLen, prefixLenBits] at hl
  rw [prefixOf, Nat.shiftLeft_eq, prefixLenBits]
  change @Eq ℕ _ _
  omega

theorem commonPrefix_eq (a b : Hash32) :
    commonPrefix a b = prefixOf (min maxPrefixLen (leadingZeros64 (load64 a ^^^ load64 b)))
      (hashBits a (min maxPrefixLen (leadingZeros64 (load64 a ^^^ load64 b)))) :=
  prefix_word (min_le_left _ _) (hashBits_lt a (by simp only [maxPrefixLen, prefixLenBits]; omega))

theorem len64_le_iff (x s : ℕ) : len64 x ≤ s ↔ x < 2 ^ s := by
  unfold len64
  split_ifs with hx
  · simp [hx, Nat.two_pow_pos]
  · rw [Nat.add_one_le_iff, Nat.log2_lt hx]

theorem shiftRight_eq_zero_iff {x : ℕ} (hx : x < 2 ^ 64) {j : ℕ} (hj : j ≤ 64) :
    x >>> (64 - j) = 0 ↔ j ≤ leadingZeros64 x := by
  have := (len64_le_iff x 64).2 hx
  rw [Nat.shiftRight_eq_div_pow, Nat.div_eq_zero_iff (Nat.two_pow_pos _), ← len64_le_iff, leadingZeros64]
  omega

theorem shiftRight_xor (x y s : ℕ) : (x ^^^ y) >>> s = x >>> s ^^^ y >>> s :=
  Nat.eq_of_testBit_eq fun i => by simp only [Nat.testBit_shiftRight, Nat.testBit_xor]

theorem hashBits_eq_iff (a b : Hash32) {j : ℕ} (hj : j ≤ 64) :
    hashBits a j = hashBits b j ↔ j ≤ leadingZeros64 (load64 a ^^^ load64 b) := by
  rw [← shiftRight_eq_zero_iff (Nat.xor_lt_two_pow (load64_lt a) (load64_lt b)) hj, shiftRight_xor,
    Nat.xor_eq_zero, hashBits, hashBits]

theorem hashBits_eq_zero_iff (h : Hash32) {j : ℕ} (hj : j ≤ 64) :
    hashBits h j = 0 ↔ j ≤ leadingZeros64 (load64 h) :=
  shiftRight_eq_zero_iff (load64_lt h) hj

theorem hashBits_eq_ones_iff (h : Hash32) {j : ℕ} (hj : j ≤ 64) :
    hashBits h j = 2 ^ j - 1 ↔ j ≤ leadingZeros64 (2 ^ 64 - 1 - load64 h) := by
  have hv := load64_lt h
  have hlt := hashBits_lt h hj
  have hprod : (2 ^ j - 1) * 2 ^ (64 - j) = 2 ^ 64 - 2 ^ (64 - j) := by
    rw [Nat.sub_mul, one_mul, ← Nat.pow_add, Nat.add_sub_cancel' hj]
  have hle : 2 ^ (64 - j) ≤ 2 ^ 64 := Nat.pow_le_pow_right (by omega) (by omega)
  have key := Nat.le_div_iff_mul_le (k := 2 ^ (64 - j)) (x := 2 ^ j - 1) (y := load64 h) (Nat.two_pow_pos _)
  rw [← shiftRight_eq_zero_iff (by omega) hj, Nat.shiftRight_eq_div_pow, Nat.div_eq_zero_iff (Nat.two_pow_pos _)]
  rw [hashBits, Nat.shiftRight_eq_div_pow] at hlt ⊢
  omega

/-- For all ids `a`, `b` and `h`: `hashPrefix h n` is the prefix of the first `n ≤ 58` bits
of `h`; `commonPrefix a b` has `min 58 k` bits, `k` being the number of first bits on
which the first 8 bytes of `a` and `b` agree, and these bits are those of `a` and of `b`;
`preFirst0 h` and `preFirst1 h` are the prefixes of the first run of ones and of zeros
of `h`, cut at 58 bits. -/
theorem prefix_extraction (a b h : Hash32) :
    (∀ n ≤ maxPrefixLen, ∃ p, hashPrefix h n = .ok p ∧ p.len = n ∧ p.bits = hashBits h n) ∧
    (∃ k ≤ 64, (∀ j ≤ 64, hashBits a j = hashBits b j ↔ j ≤ k) ∧
      (commonPrefix a b).len = min maxPrefixLen k ∧ (commonPrefix a b).bits = hashBits a (min maxPrefixLen k) ∧
      (commonPrefix a b).bits = hashBits b (min maxPrefixLen k)) ∧
    (∃ k ≤ 64, (∀ j ≤ 64, hashBits h j = 2 ^ j - 1 ↔ j ≤ k) ∧
      ∃ p, preFirst0 h = .ok p ∧ p.len = min maxPrefixLen k ∧ p.bits = 2 ^ min maxPrefixLen k - 1) ∧
    (∃ k ≤ 64, (∀ j ≤ 64, hashBits h j = 0 ↔ j ≤ k) ∧
      ∃ p, preFirst1 h = .ok p ∧ p.len = min maxPrefixLen k ∧ p.bits = 0) := by
  have hcap : ∀ k, min maxPrefixLen k ≤ 64 := fun k => by simp only [maxPrefixLen, prefixLenBits]; omega
  refine ⟨fun n hn => hashPrefix_len_bits h hn, ⟨_, Nat.sub_le _ _, fun j hj => hashBits_eq_iff a b hj, ?_⟩,
    ⟨_, Nat.sub_le _ _, fun j hj => hashBits_eq_ones_iff h hj, ?_⟩,
    ⟨_, Nat.sub_le _ _, fun j hj => hashBits_eq_zero_iff h hj, ?_⟩⟩
  · have h64 : min maxPrefixLen (leadingZeros64 (load64 a ^^^ load64 b)) < 2 ^ prefixLenBits := by
      simp only [maxPrefixLen, prefixLenBits]; omega
    rw [commonPrefix_eq, len_prefixOf _ h64, bits_prefixOf _ h64]
    exact ⟨rfl, rfl, (hashBits_eq_iff a b (hcap _)).2 (min_le_right _ _)⟩
  · obtain ⟨p, hp, hlen, hbits⟩ := hashPrefix_len_bits h (min_le_left maxPrefixLen _)
    exact ⟨p, hp, hlen, hbits.trans ((hashBits_eq_ones_iff h (hcap _)).2 (min_le_right _ _))⟩
  · obtain ⟨p, hp, hlen, hbits⟩ := hashPrefix_len_bits h (min_le_left maxPrefixLen _)
    exact ⟨p, hp, hlen, hbits.trans ((hashBits_eq_zero_iff h (hcap _)).2 (min_le_right _ _))⟩

end Spacemesh.Dbsync
