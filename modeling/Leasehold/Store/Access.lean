import Leasehold.Store.Memory

/-!
# Direct access

The operations of the memory store as data, together with the passing of
time, so that a run of them is a list.
-/

namespace Leasehold

/-- One operation on the memory store, or a move of the clock. -/
inductive Access where
  | advance (d : Duration)
  | eval (script : LockScript) (key : String) (arguments : List String)
  | remaining (key : String)
  | get (key : String)
  | setIfAbsent (key value : String) (ttl : Duration)
  | deleteIfEqual (key expected : String)
  | expireIfEqual (key expected : String) (ttl : Duration)
deriving DecidableEq

inductive Answer where
  | done
  | reply (r : Reply)
  | life (left : Option Duration)
  | text (value : Option String)
  | flag (b : Bool)
deriving DecidableEq

namespace Access

/-- Rewrites the texts that may name a token. -/
def mapText (f : String → String) : Access → Access
  | eval script key arguments => eval script (f key) (arguments.map f)
  | setIfAbsent key value ttl => setIfAbsent key (f value) ttl
  | deleteIfEqual key expected => deleteIfEqual key (f expected)
  | expireIfEqual key expected ttl => expireIfEqual key (f expected) ttl
  | access => access

def run (now : Instant) (s : MemoryStore) :
    Access → Outcome StoreError Answer × Instant × MemoryStore
  | advance d => (.ok .done, now + d.nanos, s)
  | eval script key arguments =>
    let r := s.eval now key script arguments
    (r.1.map .reply, now, r.2)
  | remaining key =>
    let r := s.remaining now key
    (.ok (.life r.1), now, r.2)
  | get key =>
    let r := s.get now key
    (.ok (.text r.1), now, r.2)
  | setIfAbsent key value ttl =>
    let r := s.setIfAbsent now key value ttl
    (r.1.map .flag, now, r.2)
  | deleteIfEqual key expected =>
    let r := s.deleteIfEqual now key expected
    (.ok (.flag r.1), now, r.2)
  | expireIfEqual key expected ttl =>
    let r := s.expireIfEqual now key expected ttl
    (r.1.map .flag, now, r.2)

/-- Performs the accesses one after the other; the answers are dropped. -/
def runAll (now : Instant) (s : MemoryStore) : List Access → Instant × MemoryStore
  | [] => (now, s)
  | a :: rest =>
    let r := a.run now s
    runAll r.2.1 r.2.2 rest

end Access
end Leasehold
