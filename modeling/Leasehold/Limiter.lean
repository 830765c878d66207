import Leasehold.Lock.Error
import Leasehold.Store

/-!
# Limiters

A limiter admits one unit of work per key and window: the first comer opens
the window, and only the value that opened it can close it or move its end.
-/

namespace Leasehold

structure Limiter where
  expiry : Duration
  expiry_pos : 0 < expiry.nanos

namespace Limiter

def defaultExpiry : Duration := Duration.ofSeconds 15

def standard : Limiter := ⟨defaultExpiry, by decide⟩

/-- The limiter with the given window, or the default one for zero. -/
def withExpiry (d : Duration) : Limiter :=
  if h : d.nanos = 0 then standard else ⟨d, by omega⟩

variable {σ : Type} (store : LimitStore σ) (l : Limiter) (key value : String) (w : Session σ)

/-- Takes the key if nobody holds it. -/
def set : Outcome LockError Bool × Session σ :=
  match store.setIfAbsent key value l.expiry w with
  | (.ok created, w) =>
    (.ok created, w.note (.debug
      ("set limit " ++ key ++ " -> " ++ (if created then "true" else "false"))))
  | (.error why, w) => (.error (.transport why), w)
  | (.clockOverflow, w) => (.clockOverflow, w)

/-- Turns a refusal into a mismatch, with a line that says what was not done. -/
def expectHeld (undone : String) :
    Outcome StoreError Bool × Session σ → Outcome LockError Unit × Session σ
  | (.ok true, w) => (.ok (), w)
  | (.ok false, w) =>
    (.error (.limitMismatch key), w.note (.warn
      ("Limit " ++ key ++ " is not held with the expected value, not " ++ undone)))
  | (.error why, w) => (.error (.transport why), w)
  | (.clockOverflow, w) => (.clockOverflow, w)

/-- Ends the window if the key still holds the value. -/
def delete : Outcome LockError Unit × Session σ :=
  expectHeld key "deleted" (store.deleteIfEqual key value w)

/-- Starts the window anew if the key still holds the value. -/
def refresh : Outcome LockError Unit × Session σ :=
  expectHeld key "refreshed" (store.expireIfEqual key value l.expiry w)

end Limiter
end Leasehold
