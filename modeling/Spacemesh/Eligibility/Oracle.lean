import Mathlib.Algebra.BigOperators.Group.Finset
import Mathlib.Algebra.Order.Field.Rat
import Mathlib.Algebra.Order.Ring.Int
import Mathlib.Data.Nat.Choose.Basic

/-!
# Hare eligibility

`Oracle.prepareEligibilityCheck`, `Oracle.CalcEligibility` and `Oracle.Validate`
of hare4. The oracle's active-set cache, the beacon and the VRF verifier are
inputs (`Lookups`). The fixed-point library `spacemeshos/fixed` is not part of the
sources: its operations are the fields of `FixedLib` over an ordered type `F`.
Weights are `uint64` and `UInt64` here; the returned count is a `uint16`.

`CalcEligibility` searches the first `x` whose CDF exceeds the VRF fraction and
casts it to `uint16`; `Validate` accepts a count `x` when the fraction lies in
`[CDF(x - 1), CDF(x))`. The two agree for a monotone CDF as long as the first
`x` fits in 16 bits (`validate_iff_calcEligibility`); past that the cast wraps and
the validator rejects the count the eligible node computes
(`validate_rejects_wrapped_count`). A weight above `maxSupportedN` after scaling is
reported by `prepareEligibilityCheck` with `done = false`, which `CalcEligibility`
reads as "not eligible": it returns a zero count and no error where `Validate`
returns the error (`calcEligibility_drops_weight_error`).
-/

namespace Spacemesh.Eligibility

def maxSupportedN : ℕ := (2 ^ 31 - 1) / 2 + 1

/-- The operations of `spacemeshos/fixed` that the oracle calls. -/
structure FixedLib (F : Type) where
  /-- `fixed.Fixed{}`. -/
  zero : F
  divUint64 : ℕ → ℕ → F
  fracFromBytes : List UInt8 → F
  binCDF : ℕ → F → ℤ → F

inductive OracleError
  | zeroCommitteeSize
  | notActive
  | actives (msg : String)
  | beacon (msg : String)
  | zeroTotalWeight
  | weightExceedsMax (weight : ℕ)
  deriving DecidableEq, Repr

/-- `cachedActiveSet` as seen from one identity: its weight, if it is active, and
the total weight. -/
structure ActiveSet where
  weight : Option UInt64
  total : UInt64
  deriving DecidableEq, Repr

/-- What the eligibility check reads for one layer, round and identity: the active
set (or the error loading it), the beacon of `buildVRFMessage`, and whether
`vrfVerifier.Verify` accepts the signature. -/
structure Lookups where
  actives : Except String ActiveSet
  beacon : Except String Unit
  vrfValid : Bool

/-- The five results of `prepareEligibilityCheck`. -/
structure Prepared (F : Type) where
  n : ℕ
  p : F
  vrfFrac : F
  done : Bool
  err : Option OracleError

section Oracle

variable {F : Type} [LinearOrder F] (lib : FixedLib F)

/-- `prepareEligibilityCheck`. A committee larger than the total weight scales
both weights by the committee size, with `uint64` wrap-around. -/
def prepareEligibilityCheck (committeeSize : ℤ) (lk : Lookups) (vrfSig : List UInt8) : Prepared F :=
  let fail (done : Bool) (e : Option OracleError) : Prepared F := ⟨0, lib.zero, lib.zero, done, e⟩
  if committeeSize < 1 then fail true (some .zeroCommitteeSize)
  else match lk.actives with
  | .error e => fail true (some (.actives e))
  | .ok act =>
    match act.weight with
    | none => fail true (some .notActive)
    | some minerWeight =>
      match lk.beacon with
      | .error e => fail true (some (.beacon e))
      | .ok () =>
        if !lk.vrfValid then fail true none
        else if act.total = 0 then fail true (some .zeroTotalWeight)
        else
          let cs := UInt64.ofNat committeeSize.toNat
          let scaled := if act.total < cs then (act.total * cs, minerWeight * cs) else (act.total, minerWeight)
          if maxSupportedN < scaled.2.toNat then fail false (some (.weightExceedsMax minerWeight.toNat))
          else ⟨scaled.2.toNat, lib.divUint64 committeeSize.toNat scaled.1.toNat,
            lib.fracFromBytes (vrfSig.take 8), false, none⟩

/-- The loop of `CalcEligibility` from `x`, with `k` values left: the first value
whose CDF exceeds `v`, or `x + k`. -/
def firstAbove (cdf : ℤ → F) (v : F) : ℕ → ℕ → ℕ
  | x, 0 => x
  | x, k + 1 => if v < cdf x then x else firstAbove cdf v (x + 1) k

/-- The test of `Validate` for the count `x`: `CDF(x - 1) ≤ v < CDF(x)`. -/
def validCount (cdf : ℤ → F) (v : F) (x : ℤ) : Bool := !decide (v < cdf (x - 1)) && decide (v < cdf x)

def validate (committeeSize : ℤ) (lk : Lookups) (vrfSig : List UInt8) (eligibilityCount : UInt16) :
    Bool × Option OracleError :=
  let r := prepareEligibilityCheck lib committeeSize lk vrfSig
  if r.done || r.err.isSome then (false, r.err)
  else (validCount (lib.binCDF r.n r.p) r.vrfFrac eligibilityCount.toNat, none)

/-- `CalcEligibility`: the first count whose CDF exceeds the VRF fraction, cast to
`uint16`. Only `done` is tested: an error with `done = false` is dropped. -/
def calcEligibility (committeeSize : ℤ) (lk : Lookups) (vrfSig : List UInt8) :
    UInt16 × Option OracleError :=
  let r := prepareEligibilityCheck lib committeeSize lk vrfSig
  if r.done then (0, r.err)
  else (UInt16.ofNat (firstAbove (lib.binCDF r.n r.p) r.vrfFrac 0 r.n), none)

end Oracle

section Search

variable {F : Type} [LinearOrder F] (cdf : ℤ → F) (v : F)

theorem firstAbove_spec (x k : ℕ) :
    x ≤ firstAbove cdf v x k ∧ firstAbove cdf v x k ≤ x + k ∧
      (∀ y : ℕ, x ≤ y → y < firstAbove cdf v x k → ¬ v < cdf y) ∧
      (firstAbove cdf v x k < x + k → v < cdf (firstAbove cdf v x k)) := by
  induction k generalizing x with
  | zero =>
    exact ⟨le_rfl, by simp [firstAbove], fun y h1 h2 => absurd (lt_of_le_of_lt h1 h2) (lt_irrefl x),
      fun h => absurd h (by simp [firstAbove])⟩
  | succ k ih =>
    simp only [firstAbove]
    split_ifs with h
    · exact ⟨le_rfl, by omega, fun y h1 h2 => absurd (lt_of_le_of_lt h1 h2) (lt_irrefl x), fun _ => h⟩
    · obtain ⟨h1, h2, h3, h4⟩ := ih (x + 1)
      refine ⟨by omega, by omega, fun y hy hy' => ?_, fun hc => h4 (by omega)⟩
      rcases Nat.eq_or_lt_of_le hy with rfl | hy
      · exact h
      · exact h3 y hy hy'

theorem validCount_iff (n : ℕ) (hmono : Monotone cdf) (htop : ∀ x : ℤ, n ≤ x → v < cdf x) (x : ℕ)
    (hx : 1 ≤ x) : validCount cdf v x = true ↔ x = firstAbove cdf v 0 n := by
  obtain ⟨-, hle, hbelow, hat⟩ := firstAbove_spec cdf v 0 n
  set c := firstAbove cdf v 0 n
  have hc : v < cdf c := by
    rcases Nat.lt_or_ge c n with h | h
    · exact hat (by omega)
    · exact htop c (by exact_mod_cast h)
  simp only [validCount, Bool.and_eq_true, Bool.not_eq_true', decide_eq_false_iff_not,
    decide_eq_true_eq]
  constructor
  · rintro ⟨h1, h2⟩
    rcases Nat.lt_trichotomy x c with h | h | h
    · exact absurd h2 (hbelow x (Nat.zero_le _) h)
    · exact h
    · exact absurd (lt_of_lt_of_le hc (hmono (by omega))) h1
  · intro hxc
    have h := hbelow (x - 1) (Nat.zero_le _) (by omega)
    rw [Nat.cast_sub hx, Nat.cast_one] at h
    exact ⟨h, by rw [hxc]; exact hc⟩

theorem firstAbove_eq_of_forall (n : ℕ) (h : ∀ x : ℕ, x < n → ¬ v < cdf x) :
    firstAbove cdf v 0 n = n := by
  obtain ⟨-, hle, -, hat⟩ := firstAbove_spec cdf v 0 n
  by_contra hne
  exact h _ (by omega) (hat (by omega))

end Search

section Agreement

variable {F : Type} [LinearOrder F] (lib : FixedLib F) {committeeSize : ℤ} {lk : Lookups}
  {vrfSig : List UInt8} {r : Prepared F}

theorem toNat_uint16_ofNat (n : ℕ) : (UInt16.ofNat n).toNat = n % 2 ^ 16 := rfl

theorem calcEligibility_of_prepared (hr : prepareEligibilityCheck lib committeeSize lk vrfSig = r)
    (h : r.done = false) :
    calcEligibility lib committeeSize lk vrfSig =
      (UInt16.ofNat (firstAbove (lib.binCDF r.n r.p) r.vrfFrac 0 r.n), none) := by
  simp [calcEligibility, hr, h]

theorem validate_of_prepared (hr : prepareEligibilityCheck lib committeeSize lk vrfSig = r)
    (hok : r.done = false ∧ r.err = none) (e : UInt16) :
    validate lib committeeSize lk vrfSig e = (validCount (lib.binCDF r.n r.p) r.vrfFrac e.toNat, none) := by
  simp [validate, hr, hok.1, hok.2]

theorem validate_of_err {e : OracleError} (h : (prepareEligibilityCheck lib committeeSize lk vrfSig).err = some e)
    (c : UInt16) : validate lib committeeSize lk vrfSig c = (false, some e) := by
  simp [validate, h]

theorem calcEligibility_of_done (h : (prepareEligibilityCheck lib committeeSize lk vrfSig).done = true) :
    calcEligibility lib committeeSize lk vrfSig = (0, (prepareEligibilityCheck lib committeeSize lk vrfSig).err) := by
  simp [calcEligibility, h]

omit [LinearOrder F] in
theorem prepareEligibilityCheck_weight_error {w : ℕ}
    (h : (prepareEligibilityCheck lib committeeSize lk vrfSig).err = some (.weightExceedsMax w)) :
    (prepareEligibilityCheck lib committeeSize lk vrfSig).done = false ∧
      (prepareEligibilityCheck lib committeeSize lk vrfSig).n = 0 := by
  unfold prepareEligibilityCheck at h ⊢
  by_cases hc : committeeSize < 1
  · simp [hc] at h
  rcases hact : lk.actives with e | act
  · simp [hc, hact] at h
  rcases hw : act.weight with _ | mw
  · simp [hc, hact, hw] at h
  rcases hb : lk.beacon with e | ⟨⟩
  · simp [hc, hact, hw, hb] at h
  cases hv : lk.vrfValid
  · simp [hc, hact, hw, hb, hv] at h
  by_cases ht : act.total = 0
  · simp [hc, hact, hw, hb, hv, ht] at h
  simp only [hc, hact, hw, hb, hv, ht, if_false, Bool.not_true, Bool.false_eq_true] at h ⊢
  -- a success reports no error, so the weight failure is what is left; it leaves `done` and `n` unset
  split_ifs at h ⊢ <;> exact ⟨rfl, rfl⟩

/-- A miner weight past `maxSupportedN` fails the check without `done`: `Validate`
returns the error, but `CalcEligibility`, which tests only `done`, drops it and
returns the count `0` with no error. -/
theorem calcEligibility_drops_weight_error {w : ℕ}
    (h : (prepareEligibilityCheck lib committeeSize lk vrfSig).err = some (.weightExceedsMax w)) :
    calcEligibility lib committeeSize lk vrfSig = (0, none) ∧
      ∀ c, validate lib committeeSize lk vrfSig c = (false, some (.weightExceedsMax w)) := by
  obtain ⟨hd, hn⟩ := prepareEligibilityCheck_weight_error lib h
  refine ⟨?_, validate_of_err lib h⟩
  rw [calcEligibility_of_prepared lib rfl hd, hn]
  rfl

theorem validate_iff_calcEligibility (hr : prepareEligibilityCheck lib committeeSize lk vrfSig = r)
    (hok : r.done = false ∧ r.err = none) (hmono : Monotone (lib.binCDF r.n r.p))
    (htop : ∀ x : ℤ, r.n ≤ x → r.vrfFrac < lib.binCDF r.n r.p x)
    (hfit : firstAbove (lib.binCDF r.n r.p) r.vrfFrac 0 r.n < 2 ^ 16) (e : UInt16) (he : 1 ≤ e.toNat) :
    (validate lib committeeSize lk vrfSig e).1 = true ↔ e = (calcEligibility lib committeeSize lk vrfSig).1 := by
  rw [calcEligibility_of_prepared lib hr hok.1, validate_of_prepared lib hr hok,
    validCount_iff _ _ _ hmono htop _ he]
  constructor
  · intro h
    exact UInt16.toNat.inj (by rw [toNat_uint16_ofNat, Nat.mod_eq_of_lt hfit]; exact h)
  · rintro rfl
    rw [toNat_uint16_ofNat, Nat.mod_eq_of_lt hfit]

theorem validate_rejects_wrapped_count (hr : prepareEligibilityCheck lib committeeSize lk vrfSig = r)
    (hok : r.done = false ∧ r.err = none)
    (hbig : 2 ^ 16 ≤ firstAbove (lib.binCDF r.n r.p) r.vrfFrac 0 r.n) :
    (calcEligibility lib committeeSize lk vrfSig).1.toNat =
        firstAbove (lib.binCDF r.n r.p) r.vrfFrac 0 r.n % 2 ^ 16 ∧
      validate lib committeeSize lk vrfSig (calcEligibility lib committeeSize lk vrfSig).1 = (false, none) := by
  rw [calcEligibility_of_prepared lib hr hok.1, validate_of_prepared lib hr hok, toNat_uint16_ofNat]
  obtain ⟨-, -, hbelow, -⟩ := firstAbove_spec (lib.binCDF r.n r.p) r.vrfFrac 0 r.n
  have hlt := hbelow _ (Nat.zero_le _)
    (lt_of_lt_of_le (Nat.mod_lt (firstAbove (lib.binCDF r.n r.p) r.vrfFrac 0 r.n) (Nat.two_pow_pos 16)) hbig)
  simp only [validCount, decide_eq_false hlt, Bool.and_false, and_self]

end Agreement

/-! ## The exact binomial CDF -/

/-- Modelled from the spec: the exact binomial CDF `P[Bin(n, p) ≤ x]` over `ℚ`. -/
def binomialCDF (n : ℕ) (p : ℚ) (x : ℤ) : ℚ :=
  ∑ k ∈ Finset.range (min (x + 1).toNat (n + 1)), (n.choose k : ℚ) * p ^ k * (1 - p) ^ (n - k)

theorem binomialCDF_one_of_lt (n : ℕ) (x : ℤ) (hx : x < n) : binomialCDF n 1 x = 0 := by
  refine Finset.sum_eq_zero fun k hk => ?_
  have : k < n := by simp only [Finset.mem_range] at hk; omega
  simp [Nat.sub_ne_zero_of_lt this]

/-- Modelled from the spec: exact rational arithmetic in place of `spacemeshos/fixed`;
a fraction read from bytes is their big-endian value over `2^(8·len)`. -/
def exactFixed : FixedLib ℚ where
  zero := 0
  divUint64 a b := (a : ℚ) / b
  fracFromBytes bs := ((bs.foldl (fun v b => v * 256 + b.toNat) 0 : ℕ) : ℚ) / 2 ^ (8 * bs.length)
  binCDF := binomialCDF

def soleMinerLookups : Lookups := ⟨.ok ⟨some 70000, 70000⟩, .ok (), true⟩

/-- A committee of `70000` with one identity of the whole weight: `p = 1`, so no
count below `70000` passes the VRF fraction, and `CalcEligibility` returns
`70000 mod 2^16 = 4464`, a count that `Validate` rejects. -/
theorem calcEligibility_sole_miner_wraps (vrfSig : List UInt8) :
    calcEligibility exactFixed 70000 soleMinerLookups vrfSig = (4464, none) ∧
      validate exactFixed 70000 soleMinerLookups vrfSig 4464 = (false, none) := by
  have hp : exactFixed.divUint64 70000 70000 = 1 := div_self (Nat.cast_ne_zero.2 (by decide))
  have hprep : prepareEligibilityCheck exactFixed 70000 soleMinerLookups vrfSig =
      ⟨70000, 1, exactFixed.fracFromBytes (vrfSig.take 8), false, none⟩ := by
    rw [← hp]; rfl
  have hfrac : 0 ≤ exactFixed.fracFromBytes (vrfSig.take 8) :=
    div_nonneg (Nat.cast_nonneg _) (pow_nonneg zero_le_two _)
  have hzero : ∀ x : ℕ, x < 70000 → ¬ exactFixed.fracFromBytes (vrfSig.take 8) < binomialCDF 70000 1 x :=
    fun x hx => by rw [binomialCDF_one_of_lt _ _ (by exact_mod_cast hx)]; exact not_lt.2 hfrac
  refine ⟨?_, ?_⟩
  · simp only [calcEligibility, hprep, ite_false, Bool.false_eq_true]
    rw [show exactFixed.binCDF = binomialCDF from rfl, firstAbove_eq_of_forall _ _ _ hzero]
    rfl
  · simp only [validate, hprep, Option.isSome_none, Bool.or_false, Bool.false_eq_true, ite_false,
      validCount, show exactFixed.binCDF = binomialCDF from rfl]
    have h4464 : ((4464 : UInt16).toNat : ℤ) = ((4464 : ℕ) : ℤ) := rfl
    rw [h4464, decide_eq_false (hzero 4464 (by decide)), Bool.and_false]

def heavyMinerLookups : Lookups := ⟨.ok ⟨some 1073741825, 2147483648⟩, .ok (), true⟩

/-- With a committee of one, the identity's weight `2^30 + 1` is past
`maxSupportedN = 2^30`: `CalcEligibility` returns `(0, nil)`, `Validate` the error. -/
theorem calcEligibility_drops_weight_error_heavy_miner :
    (prepareEligibilityCheck exactFixed 1 heavyMinerLookups []).err = some (.weightExceedsMax (2 ^ 30 + 1)) ∧
      calcEligibility exactFixed 1 heavyMinerLookups [] = (0, none) ∧
      ∀ c, validate exactFixed 1 heavyMinerLookups [] c = (false, some (.weightExceedsMax (2 ^ 30 + 1))) :=
  ⟨rfl, calcEligibility_drops_weight_error exactFixed rfl⟩

end Spacemesh.Eligibility
