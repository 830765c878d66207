import Leasehold.Proofs.Redis.Keyspace
import Leasehold.Proofs.Store.Fate
import Leasehold.Redis.Client

/-!
# A shared server

One client's connection to a server that others use as well. Before each of
the client's commands the others do what they like to the keyspace, and time
passes. A watched key that somebody touches makes the next transaction void;
whether one that expires does is left open. A command may be lost on its way,
and its answer on the way back. The server keeps a log of what each command of
the client did to the keyspace.
-/

namespace Leasehold
namespace Redis

/-- A command of somebody else. Commands see no difference in a key that it does not touch. -/
structure Deed where
  act : Instant → Keyspace → Keyspace
  touches : Instant → Keyspace → String → Bool
  live_act : ∀ now ks key, touches now ks key = false → (act now ks).live now key = ks.live now key

inductive Occurrence where
  | deed (d : Deed)
  | advance (d : Duration)

/-- What precedes a command of the client, and what becomes of the command. -/
structure Gap where
  events : List Occurrence
  /-- Whether a transaction is void because a watched key has expired. -/
  expiryCounts : Bool
  fate : Fate Fault

def Gap.quiet : Gap := ⟨[], false, .answered⟩

/-- One command's moment: the keyspace just before it and just after it. -/
structure Moment where
  now : Instant
  before : Keyspace
  after : Keyspace

structure Server where
  now : Instant
  keys : Keyspace
  gaps : List Gap
  /-- The keys that the client watches, and whether each was there when it was marked. -/
  watched : List (String × Bool)
  dirty : Bool
  queue : Option (List Command)
  log : List Moment

namespace Server

variable (s : Server)

def happen : Occurrence → Server
  | .deed d =>
    { s with
      keys := d.act s.now s.keys
      dirty := s.dirty || s.watched.any fun (key, _) => d.touches s.now s.keys key }
  | .advance d => { s with now := s.now + d.nanos }

def lost : Bool := s.watched.any fun (key, present) => present && (s.keys.live s.now key).isNone

def executeAll (now : Instant) : List Command → Keyspace → List (Except ServerError Value) × Keyspace
  | [], ks => ([], ks)
  | c :: cs, ks =>
    let r := ks.execute now c
    let rest := executeAll now cs r.2
    (r.1 :: rest.1, rest.2)

def nestedTransaction : ServerError := ⟨.response, some "MULTI calls can not be nested"⟩

def noTransaction : ServerError := ⟨.response, some "EXEC without MULTI"⟩

/-- Ends a transaction: executes its commands, unless it is void. -/
def commit (isVoid : Bool) (cs : List Command) : Except Fault Value × Server :=
  let ended := { s with watched := [], dirty := false, queue := none }
  if isVoid then (.ok .nil, ended)
  else
    let r := executeAll s.now cs s.keys
    (((r.1.mapM id).map .bulk).mapError .server, { ended with keys := r.2 })

def handle (expiryCounts : Bool) (c : Command) : Except Fault Value × Server :=
  match c, s.queue with
  | "AUTH" :: _, _ => (.ok .okay, s)
  | "SELECT" :: _, _ => (.ok .okay, s)
  | ["WATCH", key], _ =>
    (.ok .okay, { s with watched := (key, (s.keys.live s.now key).isSome) :: s.watched })
  | ["UNWATCH"], _ => (.ok .okay, { s with watched := [], dirty := false })
  | ["MULTI"], none => (.ok .okay, { s with queue := some [] })
  | ["MULTI"], some _ => (.error (.server nestedTransaction), s)
  | ["EXEC"], some cs => s.commit (s.dirty || expiryCounts && s.lost) cs
  | ["EXEC"], none => (.error (.server noTransaction), s)
  | c, some cs => (.ok (.status "QUEUED"), { s with queue := some (cs ++ [c]) })
  | c, none =>
    let r := s.keys.execute s.now c
    (r.1.mapError .server, { s with keys := r.2 })

def gap : Gap := s.gaps.head?.getD .quiet

def meet : Server := s.gap.events.foldl happen { s with gaps := s.gaps.tail }

def carryOut (expiryCounts : Bool) (c : Command) : Except Fault Value × Server :=
  let r := s.handle expiryCounts c
  (r.1, { r.2 with log := s.log ++ [⟨s.now, s.keys, r.2.keys⟩] })

/-- The next command of the client, and what the client hears of it. -/
def turn (c : Command) : Except Fault Value × Server :=
  match s.gap.fate with
  | .answered => s.meet.carryOut s.gap.expiryCounts c
  | .refused why => (.error why, s.meet)
  | .unheard why => (.error why, (s.meet.carryOut s.gap.expiryCounts c).2)

def connect : Except Fault Unit × Server :=
  match s.gap.fate with
  | .answered => (.ok (), { s.meet with watched := [], dirty := false, queue := none })
  | .refused why => (.error why, s.meet)
  | .unheard why => (.error why, s.meet)

end Server

/-- A connection with the answers that have not been taken. -/
structure Connection where
  server : Server
  inbox : List (Except Fault Value)

namespace Connection

variable (n : Connection)

def connect : Except Fault Unit × Connection :=
  let r := n.server.connect
  (r.1, ⟨r.2, []⟩)

def send (cs : List Command) : Connection :=
  cs.foldl (fun n c => let r := n.server.turn c; ⟨r.2, n.inbox ++ [r.1]⟩) n

def receive : Except Fault Value × Connection :=
  match n.inbox with
  | [] => (.error .timedOut, n)
  | a :: rest => (a, { n with inbox := rest })

/-- The server's clock is everybody's; a client may give up after any number of rounds. -/
def transport (rounds : Connection → Nat) : Transport Connection where
  tick w := { w with now := w.store.server.now }
  connect _ _ n := n.connect
  send cs n := n.send cs
  receive n := n.receive
  rounds n := rounds n

end Connection
end Redis
end Leasehold
