import Mathlib.Algebra.Group.Int
import Mathlib.Algebra.Group.Nat.Basic
import Mathlib.Order.Basic

/-!
# The Hare configuration

`Config.Validate` and `Config.roundStart` of hare3. A `time.Duration` is Go's `int64`
count of nanoseconds: an `Int` in `[-2^63, 2^63)` here, whose sums and products wrap
(`wrap64`). `IterRound.Absolute` and the `Round` constants are not in the sources;
modelled from the spec, a round's place is `absolute = iter * roundsPerIter + round`,
with the numbering (`RoundNumbering`) a parameter.

`Validate` compares the wrapped start of the hard-lock round after the last iteration
with `zdist`. Every `Duration` is at most the largest `int64`, so with that `zdist` it
accepts every configuration (`validate_max_zdist`), also one whose exact termination
time is past it, and whose `roundStart` therefore wraps
(`validate_accepts_wrapping_config`).
-/

namespace Spacemesh.Hare

def wrap64 (x : ℤ) : ℤ := (x + 9223372036854775808) % 18446744073709551616 - 9223372036854775808

theorem wrap64_mem (x : ℤ) : -9223372036854775808 ≤ wrap64 x ∧ wrap64 x < 9223372036854775808 := by
  unfold wrap64; omega

/-- `time.Duration`: nanoseconds in an `int64`. -/
structure Duration where
  ns : ℤ
  lower : -9223372036854775808 ≤ ns
  upper : ns < 9223372036854775808

namespace Duration

def ofInt (x : ℤ) : Duration := ⟨wrap64 x, (wrap64_mem x).1, (wrap64_mem x).2⟩

def add (a b : Duration) : Duration := ofInt (a.ns + b.ns)

def mul (a b : Duration) : Duration := ofInt (a.ns * b.ns)

def max : Duration := ⟨9223372036854775807, by decide, by decide⟩

theorem le_max (d : Duration) : d.ns ≤ max.ns := by
  have := d.upper; simp only [max]; omega

end Duration

/-- Modelled from the spec: the order of rounds, `absolute = iter * roundsPerIter + round`,
and the place of the hard-lock round in an iteration. -/
structure RoundNumbering where
  roundsPerIter : ℕ
  hardlock : ℕ

structure IterRound where
  iter : UInt8
  round : ℕ
  deriving DecidableEq, Repr

def IterRound.absolute (rn : RoundNumbering) (ir : IterRound) : ℕ :=
  (ir.iter.toNat * rn.roundsPerIter + ir.round) % 2 ^ 32

structure Config where
  enable : Bool
  enableLayer : UInt32
  disableLayer : UInt32
  iterationsLimit : UInt8
  preroundDelay : Duration
  roundDuration : Duration

inductive ValidateError
  /-- `hare terminates later (%v) than expected (%v)`. -/
  | terminatesLate (terminates zdist : ℤ)
  /-- `disabled layer (%d) must be larger than enabled (%d)`. -/
  | disableNotAfterEnable (disableLayer enableLayer : UInt32)
  deriving DecidableEq, Repr

namespace Config

variable (rn : RoundNumbering)

/-- `roundStart`: the preround delay for the preround, else the delay plus
`Absolute() - 1` rounds, the `uint32` subtraction converted to a `Duration`. -/
def roundStart (cfg : Config) (ir : IterRound) : Duration :=
  if ir.round = 0 then cfg.preroundDelay
  else cfg.preroundDelay.add ((Duration.ofInt ((ir.absolute rn + (2 ^ 32 - 1)) % 2 ^ 32)).mul cfg.roundDuration)

def validate (cfg : Config) (zdist : Duration) : Except ValidateError Unit :=
  let terminates := cfg.roundStart rn ⟨cfg.iterationsLimit, rn.hardlock⟩
  if zdist.ns < terminates.ns then .error (.terminatesLate terminates.ns zdist.ns)
  else if cfg.enable ∧ cfg.disableLayer ≤ cfg.enableLayer then
    .error (.disableNotAfterEnable cfg.disableLayer cfg.enableLayer)
  else .ok ()

theorem validate_max_zdist (cfg : Config) (hen : cfg.enable = false) : cfg.validate rn Duration.max = .ok () := by
  have h := (cfg.roundStart rn ⟨cfg.iterationsLimit, rn.hardlock⟩).le_max
  simp only [validate, Int.not_lt.2 h, if_false, hen, Bool.false_eq_true, false_and]

end Config

def wrappingConfig : Config :=
  ⟨false, 0, 0, 255, ⟨0, by decide, by decide⟩, ⟨4611686018427387904, by decide, by decide⟩⟩

/-- Whatever the numbering, with rounds in an iteration: `Validate` accepts
`wrappingConfig` with the largest `zdist`, although its exact termination time
`preroundDelay + (iterationsLimit * roundsPerIter) * roundDuration` is past it; and
`roundStart` of the hard-lock round after the last iteration differs from that time,
for the `Duration` arithmetic wraps. -/
theorem validate_accepts_wrapping_config (rn : RoundNumbering) (hR : 1 ≤ rn.roundsPerIter) :
    wrappingConfig.validate rn Duration.max = .ok () ∧
      Duration.max.ns < wrappingConfig.preroundDelay.ns +
        (wrappingConfig.iterationsLimit.toNat * rn.roundsPerIter : ℕ) * wrappingConfig.roundDuration.ns ∧
      (wrappingConfig.roundStart rn ⟨wrappingConfig.iterationsLimit, rn.hardlock⟩).ns ≠
        wrappingConfig.preroundDelay.ns +
          (wrappingConfig.iterationsLimit.toNat * rn.roundsPerIter : ℕ) * wrappingConfig.roundDuration.ns := by
  have hexact : Duration.max.ns < wrappingConfig.preroundDelay.ns +
      (wrappingConfig.iterationsLimit.toNat * rn.roundsPerIter : ℕ) * wrappingConfig.roundDuration.ns := by
    have : (255 : ℤ) ≤ (255 * rn.roundsPerIter : ℕ) := by exact_mod_cast Nat.le_mul_of_pos_right 255 hR
    show (9223372036854775807 : ℤ) < 0 + ((255 * rn.roundsPerIter : ℕ) : ℤ) * 4611686018427387904
    omega
  exact ⟨wrappingConfig.validate_max_zdist rn rfl, hexact,
    Int.ne_of_lt (Int.lt_of_le_of_lt (Duration.le_max _) hexact)⟩

/-- The spec's numbering of seven rounds an iteration, the hard lock sixth. -/
theorem validate_accepts_wrapping_config_seven :
    1 ≤ (⟨7, 5⟩ : RoundNumbering).roundsPerIter ∧
    wrappingConfig.validate ⟨7, 5⟩ Duration.max = .ok () ∧
      Duration.max.ns < wrappingConfig.preroundDelay.ns +
        (wrappingConfig.iterationsLimit.toNat * (⟨7, 5⟩ : RoundNumbering).roundsPerIter : ℕ) *
          wrappingConfig.roundDuration.ns ∧
      (wrappingConfig.roundStart ⟨7, 5⟩ ⟨wrappingConfig.iterationsLimit, (⟨7, 5⟩ : RoundNumbering).hardlock⟩).ns ≠
        wrappingConfig.preroundDelay.ns +
          (wrappingConfig.iterationsLimit.toNat * (⟨7, 5⟩ : RoundNumbering).roundsPerIter : ℕ) *
            wrappingConfig.roundDuration.ns :=
  ⟨by decide, validate_accepts_wrapping_config ⟨7, 5⟩ (by decide)⟩

end Spacemesh.Hare
