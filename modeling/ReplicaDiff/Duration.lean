/-
# ReplicaDiff.Duration — spans of time

A span is whole seconds below 2^64 and a remainder in nanoseconds.  It is read
in four ways: as an exact number of nanoseconds (`toNanos`), as whole
milliseconds for reports (`millis`), as the milliseconds that a clock with
millisecond resolution needs to let it pass (`ticks`), and as text (`text`).

Scaling saturates at the longest span.
-/

namespace ReplicaDiff

set_option autoImplicit false

/-- Nanoseconds in one second. -/
def nanosPerSecond : Nat := 1000000000

/-- The most seconds that a span holds. -/
def maxSeconds : Nat := 18446744073709551615

/-- A span of time. -/
structure Duration where
  secs : Nat
  nanos : Nat
  secs_le : secs ≤ maxSeconds := by decide
  nanos_lt : nanos < nanosPerSecond := by decide
deriving DecidableEq

namespace Duration

/-- The span of no time. -/
def zero : Duration := ⟨0, 0, by decide, by decide⟩

instance : Inhabited Duration := ⟨zero⟩

/-- The longest span. -/
def longest : Duration := ⟨maxSeconds, 999999999, Nat.le_refl _, by decide⟩

/-- The exact length in nanoseconds. -/
def toNanos (d : Duration) : Nat := d.secs * nanosPerSecond + d.nanos

theorem toNanos_inj {a b : Duration} (h : a.toNanos = b.toNanos) : a = b := by
  obtain ⟨s, n, hs, hn⟩ := a
  obtain ⟨s', n', hs', hn'⟩ := b
  simp only [toNanos, nanosPerSecond] at h hn hn'
  obtain ⟨rfl, rfl⟩ : s = s' ∧ n = n' := by omega
  rfl

/-- The span of a number of seconds and nanoseconds; nanoseconds past a second carry over,
and a sum past the longest span is the longest span. -/
def saturating (secs nanos : Nat) : Duration :=
  if h : secs + nanos / nanosPerSecond ≤ maxSeconds then
    ⟨secs + nanos / nanosPerSecond, nanos % nanosPerSecond, h, Nat.mod_lt _ (by decide)⟩
  else longest

/-- A span of whole seconds. -/
def ofSecs (secs : UInt64) : Duration :=
  ⟨secs.toNat, 0, Nat.le_of_lt_succ secs.toNat_lt, by decide⟩

/-- A span of whole milliseconds. -/
def ofMillis (ms : UInt64) : Duration :=
  ⟨ms.toNat / 1000, ms.toNat % 1000 * 1000000,
    Nat.le_trans (Nat.div_le_self _ _) (Nat.le_of_lt_succ ms.toNat_lt), by
      have h : ms.toNat % 1000 < 1000 := Nat.mod_lt _ (by decide)
      simp only [nanosPerSecond]
      omega⟩

/-- A span taken `factor` times, at most the longest span. -/
def scale (d : Duration) (factor : UInt32) : Duration :=
  saturating (d.secs * factor.toNat) (d.nanos * factor.toNat)

instance : LE Duration := ⟨fun a b => a.toNanos ≤ b.toNanos⟩

instance : LT Duration := ⟨fun a b => a.toNanos < b.toNanos⟩

instance (a b : Duration) : Decidable (a ≤ b) := inferInstanceAs (Decidable (a.toNanos ≤ b.toNanos))

instance (a b : Duration) : Decidable (a < b) := inferInstanceAs (Decidable (a.toNanos < b.toNanos))

/-- The shorter of two spans. -/
def shorter (a b : Duration) : Duration := if a ≤ b then a else b

theorem toNanos_shorter (a b : Duration) :
    (shorter a b).toNanos = min a.toNanos b.toNanos := by
  unfold shorter
  split
  · rename_i h
    exact (Nat.min_eq_left h).symm
  · rename_i h
    exact (Nat.min_eq_right (Nat.le_of_not_le h)).symm

theorem toNanos_saturating (secs nanos : Nat) :
    (saturating secs nanos).toNanos = min (secs * nanosPerSecond + nanos) longest.toNanos := by
  unfold saturating
  split
  · rename_i h
    simp only [toNanos, longest, maxSeconds, nanosPerSecond] at h ⊢
    omega
  · rename_i h
    simp only [toNanos, longest, maxSeconds, nanosPerSecond] at h ⊢
    omega

theorem toNanos_scale (d : Duration) (factor : UInt32) :
    (d.scale factor).toNanos = min (d.toNanos * factor.toNat) longest.toNanos := by
  have h : d.toNanos * factor.toNat =
      d.secs * factor.toNat * nanosPerSecond + d.nanos * factor.toNat := by
    rw [toNanos, Nat.add_mul, Nat.mul_right_comm]
  rw [scale, toNanos_saturating, h]

/-- Whole milliseconds, any rest dropped, at most 2^64 - 1. -/
def millis (d : Duration) : UInt64 :=
  UInt64.ofNat (min (d.secs * 1000 + d.nanos / 1000000) maxSeconds)

theorem millis_ofMillis (ms : UInt64) : (ofMillis ms).millis = ms := by
  have small := ms.toNat_lt
  refine UInt64.toNat_inj.1 ?_
  simp only [millis, ofMillis, maxSeconds, UInt64.toNat_ofNat']
  omega

/-- Spans of this many seconds and more lie beyond the range of the clock. -/
def clockRange : Nat := 9223372036854775808

/-- The milliseconds that pass in place of a span beyond the range of the clock: thirty years. -/
def horizon : Nat := 86400 * 365 * 30 * 1000

/-- The milliseconds after which a clock with millisecond resolution sees the span over. -/
def ticks (d : Duration) : Nat :=
  if clockRange ≤ d.secs then horizon else d.secs * 1000 + (d.nanos + 999999) / 1000000

/-- Whether the span is empty. -/
def isZero (d : Duration) : Bool := d.secs = 0 ∧ d.nanos = 0

/-- Decimals of a part of `10 ^ width`, without trailing zeros. -/
def decimals (width part : Nat) : String :=
  let digits := (toString (Nat.pow 10 width + part)).toList.drop 1
  let kept := (digits.reverse.dropWhile (· = '0')).reverse
  if kept.isEmpty then "" else "." ++ String.ofList kept

/-- The span in its largest unit that is not empty, with the decimals that it needs. -/
def text (d : Duration) : String :=
  if 0 < d.secs then toString d.secs ++ decimals 9 d.nanos ++ "s"
  else if 1000000 ≤ d.nanos then
    toString (d.nanos / 1000000) ++ decimals 6 (d.nanos % 1000000) ++ "ms"
  else if 1000 ≤ d.nanos then
    toString (d.nanos / 1000) ++ decimals 3 (d.nanos % 1000) ++ "µs"
  else toString d.nanos ++ "ns"

end Duration

end ReplicaDiff
