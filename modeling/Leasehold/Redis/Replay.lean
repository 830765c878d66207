import Leasehold.Redis.Transport

/-!
# Replays

A run is fixed by what the world answers it. So it is made again from its
start with every answer that has come in, and stops at the first thing that is
not known yet: whoever performs that adds the answer and makes the run again.
What a run does behind that point is void.
-/

namespace Leasehold
namespace Redis

inductive Demand where
  /-- The time, once it is not before the given instant; the journal up to there holds good. -/
  | time (earliest : Instant) (journal : Array Line)
  | connection (e : Endpoint) (timeout : Option Duration)
  /-- An answer, once the commands are sent. -/
  | answer (commands : List Command)

inductive Event where
  | time (now : Instant)
  | connection (result : Except Fault Unit)
  | answer (result : Except Fault Value)

/-- The events that a run has not come to yet, the commands it has sent since the last answer, and
what it waits for. -/
structure Replay where
  events : List Event
  unsent : List Command
  demand : Option Demand

namespace Replay

def start (events : List Event) : Replay := ⟨events, [], none⟩

variable (r : Replay)

/-- Waits for something, unless the run has stopped before. -/
def await (d : Demand) : Replay := { r with demand := r.demand.or (some d) }

def next? : Option (Event × Replay) :=
  match r.demand, r.events with
  | none, e :: rest => some (e, { r with events := rest })
  | _, _ => none

def tick (w : Session Replay) : Session Replay :=
  match w.store.next? with
  | some (.time now, r) => { w with now, store := r }
  | _ => { w with store := w.store.await (.time w.now w.journal) }

def connect (e : Endpoint) (timeout : Option Duration) : Except Fault Unit × Replay :=
  match r.next? with
  | some (.connection result, r) => (result, { r with unsent := [] })
  | _ => (.ok (), r.await (.connection e timeout))

def send (cs : List Command) : Replay := { r with unsent := r.unsent ++ cs }

def receive : Except Fault Value × Replay :=
  match r.next? with
  | some (.answer result, r) => (result, { r with unsent := [] })
  | _ => (.ok .okay, r.await (.answer r.unsent))

/-- A stopped run finds every lock free and no lock kept, so that it ends soon. -/
def transport : Transport Replay where
  tick := tick
  connect e timeout r := r.connect e timeout
  send cs r := r.send cs
  receive r := r.receive
  rounds r := r.events.length + 1

end Replay
end Redis
end Leasehold
