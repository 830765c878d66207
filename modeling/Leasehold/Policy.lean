import Leasehold.Duration

/-!
# Lease and wait policy

How long a lock is leased, how long an owner may wait for it and how often it
tries. A lease or a pause of zero stands for the default.
-/

namespace Leasehold

structure Policy where
  /-- How long the record outlives an owner that never releases it. -/
  lease : Duration
  /-- How long polling may go on; zero means a single attempt. -/
  wait : Duration
  /-- The pause between two attempts. -/
  retry : Duration
deriving DecidableEq

namespace Policy

def defaultLease : Duration := Duration.ofSeconds 10

def defaultRetry : Duration := Duration.ofMillis 100

/-- Added to the lease in the record, against clocks and networks that are off. -/
def tolerance : Duration := Duration.ofMillis 500

/-- A lease of ten seconds, no waiting, a pause of a tenth of a second. -/
def standard : Policy := ⟨defaultLease, Duration.zero, defaultRetry⟩

variable (p : Policy)

/-- Puts the defaults in the place of a zero lease and a zero pause. -/
def normalized : Policy :=
  { lease := if p.lease.isZero then defaultLease else p.lease
    wait := p.wait
    retry := if p.retry.isZero then defaultRetry else p.retry }

/-- How long the record lives. -/
def expiry : Duration := p.lease.add tolerance

theorem lease_normalized_pos : 0 < p.normalized.lease.nanos := by
  simp only [normalized]
  split
  · decide
  · rename_i h
    simp only [Duration.isZero_iff] at h
    omega

theorem retry_normalized_pos : 0 < p.normalized.retry.nanos := by
  simp only [normalized]
  split
  · decide
  · rename_i h
    simp only [Duration.isZero_iff] at h
    omega

/-- A policy without zeros is left alone. -/
theorem normalized_eq_self (hl : 0 < p.lease.nanos) (hr : 0 < p.retry.nanos) : p.normalized = p := by
  have hl : p.lease.isZero = false := by simp [Duration.isZero]; omega
  have hr : p.retry.isZero = false := by simp [Duration.isZero]; omega
  simp [normalized, hl, hr]

@[simp] theorem normalized_normalized : p.normalized.normalized = p.normalized :=
  p.normalized.normalized_eq_self p.lease_normalized_pos p.retry_normalized_pos

def describe : String :=
  "LockOptions \x7b lease_duration: " ++ p.lease.text ++ ", wait_timeout: " ++ p.wait.text ++
    ", retry_interval: " ++ p.retry.text ++ " \x7d"

end Policy
end Leasehold
