import Leasehold.Lock

/-!
# Waiting for a lock

An owner that may wait tries again after every pause, for as long as a whole
pause fits before its deadline. A call that fails counts as a refusal.
-/

namespace Leasehold
namespace Lock

variable {σ : Type} (store : LeaseStore σ) (l : Lock)

/-- The largest number of attempts that is told apart from more. -/
abbrev attemptLimit : Nat := 4294967295

/-- One attempt of an owner that waits: whether it holds the lock now. -/
def attempt (count : Nat) (w : Session σ) : Outcome Empty Bool × Session σ :=
  match l.acquire store w with
  | (.ok true, w) =>
    (.ok true, w.note (.info ("Acquired lock " ++ l.key ++ " after " ++ Numeral.ofNat count ++ " attempt(s)")))
  | (.ok false, w) =>
    (.ok false, w.note (.debug
      ("Lock " ++ l.key ++ " is held by another owner (attempt " ++ Numeral.ofNat count ++ ")")))
  | (.error why, w) =>
    (.ok false, w.note (.warn
      ("Failed to acquire lock " ++ l.key ++ " (attempt " ++ Numeral.ofNat count ++ "): " ++ why.message)))
  | (.clockOverflow, w) => (.clockOverflow, w)

/-- Whether another pause ends in time; without a deadline it always does. -/
def hasTime (deadline : Option Instant) (now : Instant) : Bool :=
  !l.policy.wait.isZero &&
    match deadline with
    | some deadline => l.policy.retry.nanos ≤ deadline - now
    | none => true

/-- How many pauses fit between the start and the deadline, or else the end of the clock. -/
def pauses (start : Instant) (deadline : Option Instant) : Nat :=
  (deadline.getD Instant.clockEnd - start) / l.policy.retry.nanos

/-- Attempts after `tried` earlier ones, with at most so many pauses between them; when these do
not suffice the clock has run out. -/
def poll (start : Instant) (deadline : Option Instant) :
    Nat → Nat → Session σ → Outcome LockError Unit × Session σ
  | pauses, tried, w =>
    let count := min (tried + 1) attemptLimit
    match l.attempt store count w with
    | (.clockOverflow, w) => (.clockOverflow, w)
    | (.ok true, w) => (.ok (), w)
    | (_, w) =>
      if l.hasTime deadline w.now then
        match pauses with
        | 0 => (.clockOverflow, w)
        | pauses + 1 => poll start deadline pauses count (w.sleep l.policy.retry)
      else (.error (.unavailable l.key count (Instant.since w.now start)), w)

section Rules

variable {store l} {start : Instant} {deadline : Option Instant} {pauses tried : Nat}
  {w w' : Session σ}

theorem poll_of_granted (h : l.attempt store (min (tried + 1) attemptLimit) w = (.ok true, w')) :
    l.poll store start deadline pauses tried w = (.ok (), w') := by
  rw [poll, h]

theorem poll_of_overflow (h : l.attempt store (min (tried + 1) attemptLimit) w = (.clockOverflow, w')) :
    l.poll store start deadline pauses tried w = (.clockOverflow, w') := by
  rw [poll, h]

theorem poll_of_refused (h : l.attempt store (min (tried + 1) attemptLimit) w = (.ok false, w'))
    (hlate : l.hasTime deadline w'.now = false) :
    l.poll store start deadline pauses tried w =
      (.error (.unavailable l.key (min (tried + 1) attemptLimit) (Instant.since w'.now start)), w') := by
  rw [poll, h]
  simp only [hlate]
  rfl

theorem poll_succ_of_refused (h : l.attempt store (min (tried + 1) attemptLimit) w = (.ok false, w'))
    (htime : l.hasTime deadline w'.now = true) :
    l.poll store start deadline (pauses + 1) tried w =
      l.poll store start deadline pauses (min (tried + 1) attemptLimit) (w'.sleep l.policy.retry) := by
  rw [poll, h]
  simp only [htime, if_true]

/-- No pause is left, though there is time for one. -/
theorem poll_zero_of_refused (h : l.attempt store (min (tried + 1) attemptLimit) w = (.ok false, w'))
    (htime : l.hasTime deadline w'.now = true) :
    l.poll store start deadline 0 tried w = (.clockOverflow, w') := by
  rw [poll, h]
  simp only [htime, if_true]

end Rules

/-- Tries until the lock is held or the time that the policy grants is over. -/
def acquireWithin (w : Session σ) : Outcome LockError Unit × Session σ :=
  let deadline := Instant.after? w.now l.policy.wait
  l.poll store w.now deadline (l.pauses w.now deadline) 0 w

end Lock
end Leasehold
