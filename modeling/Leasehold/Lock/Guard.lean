import Leasehold.Lock.Waiting

/-!
# Guards

A guard stands for a lock that is held. Ending it gives the lock back once:
either by releasing it, which reports a loss, or by dropping it, which leaves
the loss in the journal.
-/

namespace Leasehold

structure Guard where
  lock : Lock
  released : Bool

variable {σ : Type} (store : LeaseStore σ)

namespace Lock

def acquireGuard (l : Lock) (w : Session σ) : Outcome LockError Guard × Session σ :=
  let r := l.acquireWithin store w
  (r.1.map fun _ => ⟨l, false⟩, r.2)

end Lock

namespace Guard

variable (g : Guard) (w : Session σ)

/-- Ends the guard without a report. -/
def drop : Session σ :=
  if g.released then w
  else
    match g.lock.release store w with
    | (.ok true, w) => w
    | (.ok false, w) =>
      w.note (.warn ("Lock " ++ g.lock.key ++ " was lost before its guard was dropped"))
    | (.error why, w) =>
      w.note (.error ("Failed to release lock " ++ g.lock.key ++ ": " ++ why.message))
    | (.clockOverflow, w) => w

/-- Ends the guard and reports whether the lock was still held. -/
def release : Outcome LockError Unit × Session σ :=
  let r := g.lock.releaseStrict store w
  (r.1, (Guard.mk g.lock true).drop store r.2)

@[simp] theorem drop_released (l : Lock) : (Guard.mk l true).drop store w = w := by
  simp [drop]

def describe : String :=
  "LockGuard \x7b lock: " ++ g.lock.describe ++ ", released: " ++ (if g.released then "true" else "false") ++
    " \x7d"

end Guard
end Leasehold
