import Leasehold.Text.Numeral

/-!
# Durations and instants

A duration is a whole number of nanoseconds below `2 ^ 64` seconds, and sums
stop at the longest one. An instant counts nanoseconds from the start of the
clock; the clock ends after `2 ^ 63` seconds, and an instant past its end
cannot be named.
-/

namespace Leasehold

/-- A length of time in nanoseconds, shorter than `2 ^ 64` seconds. -/
@[ext] structure Duration where
  nanos : Nat
  nanos_lt : nanos < 18446744073709551616000000000
deriving DecidableEq

namespace Duration

/-- One nanosecond more than the longest duration. -/
abbrev limit : Nat := 18446744073709551616000000000

/-- The duration of `n` nanoseconds, or the longest one. -/
def ofNanos (n : Nat) : Duration := ⟨min n (limit - 1), by unfold limit; omega⟩

def ofMillis (n : Nat) : Duration := ofNanos (n * 1000000)

def ofSeconds (n : Nat) : Duration := ofNanos (n * 1000000000)

def zero : Duration := ⟨0, by omega⟩

def longest : Duration := ⟨limit - 1, by decide⟩

variable (d : Duration)

def isZero : Bool := d.nanos == 0

def seconds : Nat := d.nanos / 1000000000

/-- Nanoseconds past the last whole second. -/
def subsecond : Nat := d.nanos % 1000000000

/-- The sum, or the longest duration. -/
def add (e : Duration) : Duration := ofNanos (d.nanos + e.nanos)

/-- Whole milliseconds as a server takes them: at least one, at most `2 ^ 64 - 1`. -/
def wholeMillis : Nat := max 1 (min (d.nanos / 1000000) 18446744073709551615)

@[simp] theorem nanos_ofNanos {n : Nat} (h : n < limit) : (ofNanos n).nanos = n := by
  unfold limit at h
  simp only [ofNanos, limit]
  omega

/-- Milliseconds as a server takes them are not cut off. -/
theorem nanos_ofMillis {n : Nat} (h : n < 18446744073709551616) : (ofMillis n).nanos = n * 1000000 :=
  nanos_ofNanos (by unfold limit; omega)

theorem isZero_iff : d.isZero = true ↔ d.nanos = 0 := by simp [isZero]

theorem wholeMillis_pos : 0 < d.wholeMillis := by
  simp only [wholeMillis]
  omega

theorem wholeMillis_lt : d.wholeMillis < 18446744073709551616 := by
  simp only [wholeMillis]
  omega

/-- A whole number and a fraction of so many places, without trailing zeros. -/
def decimalText (whole places fraction : Nat) : String :=
  let shown := ((Numeral.padded places fraction).reverse.dropWhile (· == '0')).reverse
  if shown.isEmpty then Numeral.ofNat whole
  else Numeral.ofNat whole ++ "." ++ String.ofList shown

/-- The duration in the largest of the units s, ms, µs and ns that it fills. -/
def text : String :=
  if 1000000000 ≤ d.nanos then
    decimalText (d.nanos / 1000000000) 9 (d.nanos % 1000000000) ++ "s"
  else if 1000000 ≤ d.nanos then
    decimalText (d.nanos / 1000000) 6 (d.nanos % 1000000) ++ "ms"
  else if 1000 ≤ d.nanos then
    decimalText (d.nanos / 1000) 3 (d.nanos % 1000) ++ "µs"
  else
    Numeral.ofNat d.nanos ++ "ns"

end Duration

/-- Nanoseconds since the clock started. -/
abbrev Instant := Nat

namespace Instant

/-- The first instant that the clock cannot name, `2 ^ 63` seconds from its start. -/
abbrev clockEnd : Instant := 9223372036854775808000000000

/-- The instant `d` after `now`, if the clock reaches it. -/
def after? (now : Instant) (d : Duration) : Option Instant :=
  if now + d.nanos < clockEnd then some (now + d.nanos) else none

/-- The time from `earlier` to `later`, zero when they are out of order. -/
def since (later earlier : Instant) : Duration := Duration.ofNanos (later - earlier)

theorem after?_eq_some {now t : Instant} {d : Duration} :
    after? now d = some t ↔ now + d.nanos < clockEnd ∧ t = now + d.nanos := by
  unfold after?
  split <;> rename_i h <;> simp [h, eq_comm]

theorem after?_eq_none {now : Instant} {d : Duration} :
    after? now d = none ↔ clockEnd ≤ now + d.nanos := by
  unfold after?
  split <;> simp_all

/-- Between two instants of the clock nothing is cut off. -/
theorem nanos_since {later earlier : Instant} (h : later < clockEnd) :
    (since later earlier).nanos = later - earlier := by
  have hlimit : clockEnd ≤ Duration.limit := by decide
  exact Duration.nanos_ofNanos (Nat.lt_of_le_of_lt (Nat.sub_le ..) (Nat.lt_of_lt_of_le h hlimit))

end Instant
end Leasehold
