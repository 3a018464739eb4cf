import Semaforo.BinaryRounding
import Semaforo.FloatValue
import Mathlib.Algebra.Order.Ring.Rat
import Mathlib.Tactic

/-!
# The clock of the safety layer

An instant of the steady clock is the exact number of seconds since an arbitrary
origin, a whole number of nanoseconds in the code.  `elapsed_s` does not return
the difference of two instants but a `float` made from it, which may be a little
more or less.  A schedule is compared with that reading, so that it can count as
over before its time: two seconds are read from the instant 1.999999936 s on.

The error is at most the factor `clockSlack` either way.  A `Stopwatch` says when
a time has lasted for a schedule and when it is no longer than one; the exact one
compares the two numbers, and the one of the layer compares the reading.
-/

namespace Semaforo

/-- Seconds on the steady clock. -/
abbrev TimePoint := ℚ

/-- Rounding to `float`.  What the layer rounds is zero or far inside the range
of normal numbers. -/
def float32 (x : ℚ) : ℚ := BinaryRounding.roundBinary 24 x

/-- `duration<float>` of a duration of `d` seconds: the count of nanoseconds is
converted to `float`, and divided in `float` by `10 ^ 9`. -/
def floatSeconds (d : ℚ) : ℚ := float32 (float32 (d * 10 ^ 9) / 10 ^ 9)

def clockSlack : ℚ := (1 + 1 / 2 ^ 24) ^ 2

theorem float32_mono : Monotone float32 :=
  BinaryRounding.roundBinary_mono (by norm_num)

theorem floatSeconds_mono : Monotone floatSeconds := by
  intro x y hxy
  refine float32_mono (div_le_div_of_nonneg_right (float32_mono ?_) (by norm_num))
  exact mul_le_mul_of_nonneg_right hxy (by norm_num)

theorem floatSeconds_zero : floatSeconds 0 = 0 := by
  simp [floatSeconds, float32]

theorem pos_of_floatSeconds_pos {d : ℚ} (hread : 0 < floatSeconds d) : 0 < d := by
  by_contra hd
  have hle := floatSeconds_mono (not_lt.mp hd)
  rw [floatSeconds_zero] at hle
  exact absurd hread (not_lt.mpr hle)

theorem floatSeconds_le {d : ℚ} (hd : 0 ≤ d) : floatSeconds d ≤ clockSlack * d := by
  have hcount : 0 ≤ d * 10 ^ 9 := by positivity
  have hread : 0 ≤ float32 (d * 10 ^ 9) := BinaryRounding.roundBinary_nonneg hcount
  calc
    floatSeconds d ≤ (1 + 1 / 2 ^ 24) * (float32 (d * 10 ^ 9) / 10 ^ 9) :=
      BinaryRounding.roundBinary_le 24 (by positivity)
    _ ≤ (1 + 1 / 2 ^ 24) * ((1 + 1 / 2 ^ 24) * (d * 10 ^ 9) / 10 ^ 9) := by
      gcongr
      exact BinaryRounding.roundBinary_le 24 hcount
    _ = clockSlack * d := by
      unfold clockSlack
      ring

theorem le_floatSeconds {d : ℚ} (hd : 0 ≤ d) : d ≤ clockSlack * floatSeconds d := by
  have hcount : 0 ≤ d * 10 ^ 9 := by positivity
  have hread : 0 ≤ float32 (d * 10 ^ 9) := BinaryRounding.roundBinary_nonneg hcount
  calc
    d = d * 10 ^ 9 / 10 ^ 9 := by ring
    _ ≤ (1 + 1 / 2 ^ 24) * float32 (d * 10 ^ 9) / 10 ^ 9 :=
      div_le_div_of_nonneg_right
        (BinaryRounding.le_roundBinary (p := 24) (by norm_num) hcount) (by norm_num)
    _ = (1 + 1 / 2 ^ 24) * (float32 (d * 10 ^ 9) / 10 ^ 9) := by ring
    _ ≤ (1 + 1 / 2 ^ 24) * ((1 + 1 / 2 ^ 24) * floatSeconds d) := by
      gcongr
      exact BinaryRounding.le_roundBinary (p := 24) (by norm_num) (by positivity)
    _ = clockSlack * floatSeconds d := by
      unfold clockSlack
      ring

theorem clockSlack_pos : 0 < clockSlack := by
  unfold clockSlack
  positivity

theorem le_floatSeconds_slack {q : ℚ} (hq : 0 ≤ q) : q ≤ floatSeconds (clockSlack * q) := by
  have hread := le_floatSeconds (mul_nonneg clockSlack_pos.le hq)
  exact le_of_mul_le_mul_left hread clockSlack_pos

/-- What a schedule has to do with the time that has passed. -/
structure Stopwatch where
  /-- the time has lasted for the schedule -/
  reaches : FloatValue ℚ → ℚ → Prop
  /-- the time is no longer than the schedule -/
  within : FloatValue ℚ → ℚ → Prop

namespace Stopwatch

def exact : Stopwatch where
  reaches sched x := sched ≤ .fin x
  within sched x := .fin x ≤ sched

/-- The reading has reached the schedule, and the time is no longer than any that
is read so.  The real times are the schedule up to the factor `clockSlack`. -/
def float : Stopwatch where
  reaches sched x := sched ≤ .fin (floatSeconds x) ∧ sched ≤ .fin (clockSlack * x)
  within sched x :=
    (∀ c, 0 ≤ c → sched ≤ .fin (floatSeconds c) → x ≤ c) ∧
      ∀ q, sched = .fin q → x ≤ clockSlack * q

theorem float_reaches {sched : FloatValue ℚ} {x : ℚ} (hx : 0 ≤ x)
    (hread : sched ≤ .fin (floatSeconds x)) : float.reaches sched x :=
  ⟨hread, FloatValue.le_fin_of_le hread (floatSeconds_le hx)⟩

theorem float_within {q x : ℚ} (hq : 0 ≤ q)
    (hread : ∀ c, 0 ≤ c → q ≤ floatSeconds c → x ≤ c) :
    float.within (.fin q) x := by
  refine ⟨fun c hc h => hread c hc (FloatValue.fin_le_fin.mp h), ?_⟩
  rintro _ ⟨⟩
  exact hread _ (mul_nonneg clockSlack_pos.le hq) (le_floatSeconds_slack hq)

end Stopwatch

end Semaforo
