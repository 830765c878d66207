import Leasehold.Store.Access
import Leasehold.Token.Roster

/-!
# Rehearsals

A memory store that plays its part by cues: before a call is answered others
may act and time may pass, and the answer may be a failure or a made-up value.
The calls are kept for inspection.
-/

namespace Leasehold

/-- What happens at a call: others act first, then the call is answered as the cue says, or by
the memory store. -/
structure Cue (α : Type) where
  interlude : List Access
  answer : Option (Except StoreError α)

/-- A call that a lock or a limiter made. -/
inductive StoreCall where
  | eval (script : LockScript) (key : String) (arguments : List String)
  | setIfAbsent (key value : String) (ttl : Duration)
  | deleteIfEqual (key expected : String)
  | expireIfEqual (key expected : String) (ttl : Duration)
deriving DecidableEq

structure Rehearsal where
  memory : MemoryStore
  /-- The tokens that interludes may name. -/
  roster : Roster
  evalCues : List (Cue Reply)
  remainingCues : List (Cue (Option Duration))
  limitCues : List (Cue Bool)
  calls : Array StoreCall

namespace Rehearsal

def empty : Rehearsal := ⟨.empty, .empty, [], [], [], #[]⟩

variable {α : Type} (w : Session Rehearsal)

def record (call : StoreCall) : Session Rehearsal :=
  { w with store := { w.store with calls := w.store.calls.push call } }

def access (a : Access) : Outcome StoreError Answer × Session Rehearsal :=
  let r := (a.mapText w.store.roster.resolve).run w.now w.store.memory
  (r.1, { w with now := r.2.1, store := { w.store with memory := r.2.2 } })

def interlude (accesses : List Access) : Session Rehearsal :=
  let r := Access.runAll w.now w.store.memory (accesses.map (·.mapText w.store.roster.resolve))
  { w with now := r.1, store := { w.store with memory := r.2 } }

def fromMemory (f : Instant → MemoryStore → Outcome StoreError α × MemoryStore) :
    Outcome StoreError α × Session Rehearsal :=
  let r := f w.now w.store.memory
  (r.1, { w with store := { w.store with memory := r.2 } })

/-- Answers a call by its cue, if there is one. -/
def play (cue : Option (Cue α)) (f : Instant → MemoryStore → Outcome StoreError α × MemoryStore) :
    Outcome StoreError α × Session Rehearsal :=
  match cue with
  | none => fromMemory w f
  | some cue =>
    let w := interlude w cue.interlude
    match cue.answer with
    | some answer => (.ofExcept answer, w)
    | none => fromMemory w f

def leases : LeaseStore Rehearsal where
  eval script key arguments w :=
    let w := record w (.eval script key arguments)
    let cue := w.store.evalCues.head?
    let w := { w with store := { w.store with evalCues := w.store.evalCues.tail } }
    play w cue fun now s => s.eval now key script arguments
  remaining key w :=
    let cue := w.store.remainingCues.head?
    let w := { w with store := { w.store with remainingCues := w.store.remainingCues.tail } }
    play w cue fun now s => (.ok (s.remaining now key).1, (s.remaining now key).2)

/-- Takes the next cue for a limit. -/
def playLimit (call : StoreCall)
    (f : Instant → MemoryStore → Outcome StoreError Bool × MemoryStore) :
    Outcome StoreError Bool × Session Rehearsal :=
  let w := record w call
  let cue := w.store.limitCues.head?
  let w := { w with store := { w.store with limitCues := w.store.limitCues.tail } }
  play w cue f

def limits : LimitStore Rehearsal where
  setIfAbsent key value ttl w :=
    playLimit w (.setIfAbsent key value ttl) fun now s => s.setIfAbsent now key value ttl
  deleteIfEqual key expected w :=
    playLimit w (.deleteIfEqual key expected) fun now s =>
      (.ok (s.deleteIfEqual now key expected).1, (s.deleteIfEqual now key expected).2)
  expireIfEqual key expected ttl w :=
    playLimit w (.expireIfEqual key expected ttl) fun now s => s.expireIfEqual now key expected ttl

end Rehearsal
end Leasehold
