import Leasehold.CommandLine.Arguments
import Leasehold.Files
import Leasehold.Lock.Guard
import Leasehold.Policy.Document
import Leasehold.Redis.Client
import Leasehold.Yaml.Document

/-!
# The command line

What the program does for a request: it finds its settings, reaches the
server, and performs the task. The exit code of a task that holds a lock says
whether the lock was had and whether it was kept to the end.
-/

namespace Leasehold
namespace CommandLine

/-- How a run ends. -/
inductive Exit where
  | success
  /-- The lock was not to be had in time. -/
  | unavailable
  /-- The lock was lost while it was held. -/
  | lost
deriving DecidableEq

def Exit.code : Exit → Nat
  | success => 0
  | unavailable => 2
  | lost => 3

/-- Why a run ends without a verdict. -/
inductive RunFault where
  | file (why : Files.Fault)
  /-- The settings file is no document. -/
  | notDocument
  | store (why : StoreError)
  | lock (why : LockError)

def RunFault.message : RunFault → String
  | file why => why.message
  | notDocument => "the settings file is not a document"
  | store why => why.message
  | lock why => why.message

structure Printed where
  out : String
  err : String
deriving DecidableEq

namespace Printed

def nothing : Printed := ⟨"", ""⟩

def say (p : Printed) (line : String) : Printed := { p with out := p.out ++ line ++ "\n" }

def warn (p : Printed) (line : String) : Printed := { p with err := p.err ++ line ++ "\n" }

def since (p earlier : Printed) : Printed :=
  ⟨String.ofList (p.out.toList.drop earlier.out.length), String.ofList (p.err.toList.drop earlier.err.length)⟩

end Printed

/-- An ended run, what it has written and the session after it. -/
structure Ended (σ : Type) where
  result : Outcome RunFault Exit
  printed : Printed
  session : Session σ

def document (disk : Files.Disk) (path : String) : Except RunFault Yaml.Value :=
  match disk.text path with
  | .error why => .error (.file why)
  | .ok text =>
    match Yaml.value? text with
    | some v => .ok v
    | none => .error .notDocument

def Request.document? (r : Request) (disk : Files.Disk) : Except RunFault (Option Yaml.Value) :=
  match r.config with
  | none => .ok none
  | some path => (document disk path).map some

/-- The server settings of a request: its own URL, else those of a document that has one, else
those of the environment. -/
def Request.settings (r : Request) (document : Option Yaml.Value) (env : Environment)
    (directory : String) (envFile : Option (List UInt8)) : Except StoreError Redis.Settings × List Line :=
  match r.redisUrl with
  | some url => (.ok (.ofUrl url), [])
  | none =>
    match document.filter fun v => (v.lookup? "redis.url").isSome with
    | some v => (Redis.Settings.ofDocument v, [])
    | none =>
      let (env, first) := Redis.Settings.loadEnvFile env directory envFile
      let (settings, more) := Redis.Settings.ofEnvironment env
      (settings, first ++ more)

/-- The policy of a run: that of the document, if there is one, with what the request overrides. -/
def policy (document : Option Yaml.Value) (o : Policy.Override) : Policy :=
  o.apply ((document.map Policy.ofDocument).getD Policy.standard)

variable {σ : Type}

/-- A lock that is held for a while, what has been written so far, and the session. -/
structure Holding (σ : Type) where
  store : LeaseStore σ
  guard : Guard
  hold : Duration
  printed : Printed
  session : Session σ

/-- How far a run has come: to its end, or to a lock that it holds. -/
inductive Progress (σ : Type) where
  | ended (e : Ended σ)
  | holding (h : Holding σ)

def takeLock (store : LeaseStore σ) (l : Lock) (hold : Duration) (w : Session σ) : Progress σ :=
  match l.acquireGuard store w with
  | (.error (.unavailable key attempts waited), w) =>
    .ended ⟨.ok .unavailable, Printed.nothing.warn (LockError.unavailable key attempts waited).message, w⟩
  | (.error why, w) => .ended ⟨.error (.lock why), .nothing, w⟩
  | (.clockOverflow, w) => .ended ⟨.clockOverflow, .nothing, w⟩
  | (.ok guard, w) =>
    .holding
      { store, guard, hold
        printed := Printed.nothing.say ("acquired " ++ l.key ++ " as " ++ l.token.text)
        session := w.note (.info ("Holding lock " ++ l.key ++ " for " ++ hold.text)) }

def Holding.finish (h : Holding σ) : Ended σ :=
  match h.guard.release h.store (h.session.sleep h.hold) with
  | (.ok _, w) => ⟨.ok .success, h.printed.say ("released " ++ h.guard.lock.key), w⟩
  | (.error (.notHeld key), w) =>
    let text := (LockError.notHeld key).message
    ⟨.ok .lost, h.printed.warn text, w.note (.error (text ++ "; the hold outlived the lease"))⟩
  | (.error why, w) => ⟨.error (.lock why), h.printed, w⟩
  | (.clockOverflow, w) => ⟨.clockOverflow, h.printed, w⟩

def Progress.session : Progress σ → Session σ
  | ended e => e.session
  | holding h => h.session

def Progress.finish : Progress σ → Ended σ
  | ended e => e
  | holding h => h.finish

/-- Holds a lock for a while and releases it. -/
def holdLock (store : LeaseStore σ) (l : Lock) (hold : Duration) (w : Session σ) : Ended σ :=
  (takeLock store l hold w).finish

def Task.start (t : Redis.Transport σ) (c : Redis.Client) (document : Option Yaml.Value) (token : Token)
    (w : Session σ) : Task → Progress σ
  | .ping => .ended ⟨.ok .success, Printed.nothing.say "PONG", w⟩
  | .run key override hold =>
    match Lock.make key token (policy document override) with
    | .error why => .ended ⟨.error (.lock why), .nothing, w⟩
    | .ok l => takeLock (c.leases t) l (.ofMillis hold) w
  | .ttl key =>
    match c.remaining t w key with
    | (.error why, w) => .ended ⟨.error (.store why), .nothing, w⟩
    | (.ok (some left), w) =>
      .ended ⟨.ok .success, Printed.nothing.say (Numeral.ofNat (left.nanos / 1000000) ++ " ms"), w⟩
    | (.ok none, w) => .ended ⟨.ok .success, Printed.nothing.say (key ++ " is not locked"), w⟩

/-- What a process finds around it. -/
structure Surroundings where
  disk : Files.Disk
  /-- The path of the top folder. -/
  directory : String
  env : Environment

def Surroundings.envFile (s : Surroundings) : Option (List UInt8) := (s.disk.bytes ".env").toOption

/-- Does what a request asks for, up to its end or to a lock that is held. -/
def Request.start (t : Redis.Transport σ) (s : Surroundings) (token : Token) (r : Request) (w : Session σ) :
    Progress σ :=
  match r.document? s.disk with
  | .error why => .ended ⟨.error why, .nothing, w⟩
  | .ok document =>
    let (settings, lines) := r.settings document s.env s.directory s.envFile
    let w := lines.foldl Session.note w
    match settings with
    | .error why => .ended ⟨.error (.store why), .nothing, w⟩
    | .ok settings =>
      match Redis.Client.connect t w settings with
      | (.error why, w) => .ended ⟨.error (.store why), .nothing, w⟩
      | (.ok c, w) => r.task.start t c document token w

def Request.run (t : Redis.Transport σ) (s : Surroundings) (token : Token) (r : Request) (w : Session σ) :
    Ended σ :=
  (r.start t s token w).finish

/-- The line for a run without a verdict. -/
def Ended.reported (e : Ended σ) : Ended σ :=
  match e.result with
  | .error why =>
    { e with printed := e.printed.warn ("error: " ++ why.message), session := e.session.note (.error why.message) }
  | _ => e

def Ended.code (e : Ended σ) : Nat :=
  match e.result with
  | .ok exit => exit.code
  | .error _ => 1
  | .clockOverflow => 101

end CommandLine
end Leasehold
