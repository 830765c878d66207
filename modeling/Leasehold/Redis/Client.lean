import Leasehold.Redis.Dialogue
import Leasehold.Redis.Settings
import Leasehold.Store
import Leasehold.Store.Value

/-!
# Clients

A client knows the address of a server and opens a connection of its own for
every operation. It keeps locks and limits. What it leaves in the journal
never holds the address.
-/

namespace Leasehold
namespace Redis

structure Client where
  settings : Settings
  address : Address
deriving DecidableEq

namespace Client

def ofSettings (s : Settings) : Except StoreError Client × List Line :=
  match Address.ofUrl s.url with
  | .ok address => (.ok ⟨s, address⟩, [])
  | .error why =>
    (.error (.connection (.address why)),
      [.error ("Failed to open Redis client: " ++ (Fault.address why).message)])

variable {σ α : Type} (t : Transport σ) (c : Client) (w : Session σ)

/-- Holds a dialogue on a connection of its own. -/
def hold (timeout : Option Duration) (d : Dialogue σ α) : Except Fault α × Session σ :=
  let w := t.tick w
  let r := (do Dialogue.enter t c.address timeout; d : Dialogue σ α) w.store
  (r.1, t.tick { w with store := r.2 })

def call (d : Dialogue σ α) : Except StoreError α × Session σ :=
  let r := c.hold t w none d
  (r.1.mapError .connection, r.2)

/-- Asks the server for a sign of life, within a time. -/
def ping (timeout : Duration) : Except StoreError Unit × Session σ :=
  let r := c.hold t w (some timeout) (do (← t.ask ["PING"]).text)
  (match r.1 with
    | .ok reply => if reply = "PONG" then .ok () else .error (.unexpectedReply reply)
    | .error why => .error (if why.isTimeout then .timeout timeout else .connection why),
   r.2)

/-- A client of the settings whose server has shown a sign of life. -/
def connect (s : Settings) : Except StoreError Client × Session σ :=
  let (made, lines) := ofSettings s
  let w := lines.foldl Session.note w
  match made with
  | .error why => (.error why, w)
  | .ok c =>
    match c.ping t w s.connectTimeout with
    | (.error why, w) => (.error why, w)
    | (.ok _, w) => (.ok c, w.note (.info "Redis connection established"))

def invoke (s : LockScript) (key : String) (arguments : List String) : Except StoreError Value × Session σ :=
  c.call t w (Dialogue.runScript t s key arguments)

def eval (s : LockScript) (key : String) (arguments : List String) : Except StoreError Reply × Session σ :=
  let r := c.invoke t w s key arguments
  (r.1.bind Reply.ofValue, r.2)

/-- What is left of a key's life in milliseconds; negative for a key without end, or no key. -/
def remainingMillis (key : String) : Except StoreError Int × Session σ :=
  c.call t w (Dialogue.remaining t key)

def remaining (key : String) : Except StoreError (Option Duration) × Session σ :=
  let r := c.remainingMillis t w key
  (r.1.map fun n => if n < 0 then none else some (.ofMillis n.toNat), r.2)

def set (key value : String) (ttl : Duration) (onlyIfAbsent : Bool) : Except StoreError Bool × Session σ :=
  c.call t w (Dialogue.set t key value ttl onlyIfAbsent)

def compareAndDelete (key expected : String) : Except StoreError Bool × Session σ :=
  c.call t w (Dialogue.compareAndDelete t key expected)

def compareAndExpire (key expected : String) (ttl : Duration) : Except StoreError Bool × Session σ :=
  c.call t w (Dialogue.compareAndExpire t key expected ttl)

def settle (r : Except StoreError α × Session σ) : Outcome StoreError α × Session σ := (.ofExcept r.1, r.2)

def leases : LeaseStore σ where
  eval script key arguments w := settle (c.eval t w script key arguments)
  remaining key w := settle (c.remaining t w key)

def limits : LimitStore σ where
  setIfAbsent key value ttl w := settle (c.set t w key value ttl true)
  deleteIfEqual key expected w := settle (c.compareAndDelete t w key expected)
  expireIfEqual key expected ttl w := settle (c.compareAndExpire t w key expected ttl)

end Client
end Redis
end Leasehold
