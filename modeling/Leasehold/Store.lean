import Leasehold.Journal
import Leasehold.Script
import Leasehold.Store.Error

/-!
# Stores

A session is a clock, a journal and a store of some kind. Locks are kept by a
store that runs the two lock scripts; limits by a store that compares a value
and then writes.
-/

namespace Leasehold

/-- The state that operations run in. -/
structure Session (σ : Type) where
  now : Instant
  store : σ
  journal : Array Line

namespace Session

variable {σ β : Type} (s : Session σ)

def start (store : σ) : Session σ := ⟨0, store, #[]⟩

def note (line : Line) : Session σ := { s with journal := s.journal.push line }

def sleep (d : Duration) : Session σ := { s with now := s.now + d.nanos }

/-- Runs a computation that reads the clock and changes only the store. -/
def onStore (f : Instant → σ → β × σ) : β × Session σ :=
  let (answer, store) := f s.now s.store
  (answer, { s with store })

@[simp] theorem now_note (line : Line) : (s.note line).now = s.now := rfl

@[simp] theorem store_note (line : Line) : (s.note line).store = s.store := rfl

@[simp] theorem now_sleep (d : Duration) : (s.sleep d).now = s.now + d.nanos := rfl

@[simp] theorem store_sleep (d : Duration) : (s.sleep d).store = s.store := rfl

@[simp] theorem journal_sleep (d : Duration) : (s.sleep d).journal = s.journal := rfl

@[simp] theorem onStore_fst (f : Instant → σ → β × σ) : (s.onStore f).1 = (f s.now s.store).1 := rfl

@[simp] theorem onStore_store (f : Instant → σ → β × σ) :
    (s.onStore f).2.store = (f s.now s.store).2 := rfl

@[simp] theorem onStore_now (f : Instant → σ → β × σ) : (s.onStore f).2.now = s.now := rfl

@[simp] theorem onStore_journal (f : Instant → σ → β × σ) :
    (s.onStore f).2.journal = s.journal := rfl

end Session

/-- A store that locks can be kept in. -/
structure LeaseStore (σ : Type) where
  /-- Runs a script on a key as one step. -/
  eval : LockScript → String → List String → Session σ → Outcome StoreError Reply × Session σ
  /-- What is left of the key's life; nothing for a key that is absent or does not expire. -/
  remaining : String → Session σ → Outcome StoreError (Option Duration) × Session σ

/-- A store that limits can be kept in. -/
structure LimitStore (σ : Type) where
  setIfAbsent : String → String → Duration → Session σ → Outcome StoreError Bool × Session σ
  deleteIfEqual : String → String → Session σ → Outcome StoreError Bool × Session σ
  expireIfEqual : String → String → Duration → Session σ → Outcome StoreError Bool × Session σ

end Leasehold
