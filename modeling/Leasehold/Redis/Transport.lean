import Leasehold.Duration
import Leasehold.Redis.Address
import Leasehold.Redis.Wire
import Leasehold.Store

/-!
# Transports

How a client reaches a server: it opens one connection after another, sends
commands and takes answers in the order of the commands.
-/

namespace Leasehold
namespace Redis

structure Transport (σ : Type) where
  /-- Lets the clock of a session catch up with the time that has passed. -/
  tick : Session σ → Session σ
  /-- Opens a connection, within a time if one is given. -/
  connect : Endpoint → Option Duration → σ → Except Fault Unit × σ
  /-- Sends commands in one go. -/
  send : List Command → σ → σ
  /-- Takes the next answer. -/
  receive : σ → Except Fault Value × σ
  /-- More rounds of commands than can be answered. -/
  rounds : σ → Nat

/-- What a client does with a server; it ends at the first fault. -/
abbrev Dialogue (σ : Type) := ExceptT Fault (StateM σ)

/-- What comes of a part of a dialogue, fault or not. -/
def Dialogue.attempt {σ α : Type} (d : Dialogue σ α) : Dialogue σ (Except Fault α) :=
  fun s => let r := d s; (.ok r.1, r.2)

namespace Transport

variable {σ : Type} (t : Transport σ)

/-- Opens a connection; over the network that takes some time. -/
def opening (e : Endpoint) (timeout : Option Duration) : Dialogue σ Unit :=
  match e with
  | .socket _ => t.connect e timeout
  | .tcp .. => if timeout.any Duration.isZero then throw .zeroTimeout else t.connect e timeout

def take : Dialogue σ Value := t.receive

/-- Sends a command and takes its answer. -/
def ask (c : Command) : Dialogue σ Value := do
  modify (t.send [c])
  t.take

/-- Takes so many answers, whatever they are. -/
def takeAll : Nat → Dialogue σ (List (Except Fault Value))
  | 0 => pure []
  | n + 1 => do
    let a ← t.take.attempt
    return a :: (← takeAll n)

/-- Sends commands in one go and takes all their answers; the first fault stands for them. -/
def askAll (cs : List Command) : Dialogue σ (List Value) := do
  modify (t.send cs)
  let answers ← t.takeAll cs.length
  (answers.mapM id : Except Fault (List Value))

end Transport
end Redis
end Leasehold
