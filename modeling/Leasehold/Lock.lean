import Leasehold.Lock.Error
import Leasehold.Policy
import Leasehold.Store
import Leasehold.Token

/-!
# Locks

A lock is one owner's hold on one key: it keeps its token for its whole life,
takes the key when nobody else holds it, and gives back only what is its own.
-/

namespace Leasehold

structure Lock where
  key : String
  token : Token
  policy : Policy
  key_ne_empty : key ≠ ""
  lease_pos : 0 < policy.lease.nanos
  retry_pos : 0 < policy.retry.nanos

namespace Lock

/-- A lock on the key, with the defaults in the place of a zero lease and a zero pause. -/
def make (key : String) (token : Token) (policy : Policy) : Except LockError Lock :=
  if h : key = "" then .error (.invalidArgument "lock key must not be empty")
  else .ok ⟨key, token, policy.normalized, h, policy.lease_normalized_pos, policy.retry_normalized_pos⟩

variable {σ : Type} (store : LeaseStore σ) (l : Lock) (w : Session σ)

def expiryMillis : Nat := l.policy.expiry.wholeMillis

/-- One attempt: takes the key if it is free, and renews it if this owner holds it. -/
def acquire : Outcome LockError Bool × Session σ :=
  match store.eval .acquire l.key [l.token.text, Numeral.ofNat l.expiryMillis] w with
  | (.ok reply, w) =>
    (.ok reply.isOk, w.note (.debug ("acquire " ++ l.key ++ " -> " ++ reply.describe)))
  | (.error why, w) => (.error (.transport why), w)
  | (.clockOverflow, w) => (.clockOverflow, w)

/-- Deletes the record if this owner still holds it; says whether it did. -/
def release : Outcome LockError Bool × Session σ :=
  match store.eval .release l.key [l.token.text] w with
  | (.ok reply, w) =>
    if reply = .int 1 then (.ok true, w.note (.info ("Released lock " ++ l.key)))
    else (.ok false, w.note (.warn ("Lock " ++ l.key ++ " was not held by this owner at release")))
  | (.error why, w) => (.error (.transport why), w)
  | (.clockOverflow, w) => (.clockOverflow, w)

/-- Releases, and reports a lock that was lost. -/
def releaseStrict : Outcome LockError Unit × Session σ :=
  match l.release store w with
  | (.ok true, w) => (.ok (), w)
  | (.ok false, w) => (.error (.notHeld l.key), w)
  | (.error why, w) => (.error why, w)
  | (.clockOverflow, w) => (.clockOverflow, w)

/-- What is left of the key's life, whoever holds it. -/
def remainingLease : Outcome LockError (Option Duration) × Session σ :=
  let r := store.remaining l.key w
  (r.1.mapError .transport, r.2)

def describe : String :=
  "Lock \x7b key: " ++ Quoted.encode l.key ++ ", token: " ++ Quoted.encode l.token.text ++
    ", options: " ++ l.policy.describe ++ ", .. \x7d"

end Lock
end Leasehold
