import Leasehold.Redis.Transport

/-!
# Playback

A server without logic: it answers each command with the next entry of a
queue. The commands are kept, one list for each connection.
-/

namespace Leasehold
namespace Redis

/-- What a server does with a command. -/
inductive Turn where
  | answer (bytes : List UInt8)
  /-- Ends the stream. -/
  | close
  /-- Falls silent. -/
  | hang
deriving DecidableEq

def Turn.bytes : Turn → List UInt8
  | answer bytes => bytes
  | close => []
  | hang => []

/-- A network with a playing server in it, and the connection that is in use. -/
structure Network where
  /-- Whether anything can be reached at all. -/
  reachable : Bool
  server : Endpoint
  queue : List Turn
  /-- The commands that each connection has brought. -/
  received : List (List Command)
  /-- The bytes that have come in on the connection. -/
  pending : List UInt8
  /-- Why nothing more will come in on it. -/
  ended : Option Fault

namespace Network

def start (reachable : Bool) (server : Endpoint) : Network := ⟨reachable, server, [], [], [], none⟩

def lastAnswer : List UInt8 := Utf8.encode "-ERR no reply left\r\n"

variable (n : Network)

def connect (e : Endpoint) : Except Fault Unit × Network :=
  match e with
  | .socket _ => (.error .noSocket, n)
  | .tcp .. =>
    if !n.reachable then (.error .unreachable, n)
    else if e = n.server then
      (.ok (), { n with received := n.received ++ [[]], pending := [], ended := none })
    else (.error .refused, n)

def keep (c : Command) (received : List (List Command)) : List (List Command) :=
  received.dropLast ++ [received.getLast?.getD [] ++ [c]]

def answer (n : Network) (c : Command) : Network :=
  if n.ended.isSome then n
  else
    let n' := { n with received := keep c n.received, queue := n.queue.tail }
    match n.queue.head? with
    | none => { n' with pending := n.pending ++ lastAnswer }
    | some (.answer bytes) => { n' with pending := n.pending ++ bytes }
    | some .close => { n' with ended := some .streamEnded }
    | some .hang => { n' with ended := some .timedOut }

def send (cs : List Command) : Network := cs.foldl answer n

def receive : Except Fault Value × Network :=
  match Wire.read n.pending with
  | .more => (.error (n.ended.getD .timedOut), n)
  | .malformed => (.error .malformed, n)
  | .done (.ok v) rest => (.ok v, { n with pending := rest })
  | .done (.error e) rest => (.error (.server e), { n with pending := rest })

/-- More than all bytes and entries there are. -/
def size : Nat := n.queue.length + (n.queue.flatMap Turn.bytes).length + n.pending.length + 1

/-- The network takes no time. -/
def transport : Transport Network where
  tick w := w
  connect e _ n := n.connect e
  send cs n := n.send cs
  receive n := n.receive
  rounds n := n.size

/-- Ends the server, which has to be reached for it. -/
def stop : Except Fault Unit := (n.connect n.server).1

end Network
end Redis
end Leasehold
