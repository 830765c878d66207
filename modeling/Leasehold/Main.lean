import Leasehold.CommandLine.Process
import Leasehold.Redis.Replay
import Std.Async.DNS
import Std.Async.TCP
import Std.Async.Timer
import Std.Time

/-!
# The program

The outer layer: it reads files, the environment and the clock, performs what
a run asks of the network, and writes what the run has written.
-/

namespace Leasehold
namespace CommandLine

open Logging Redis Std.Async

structure Link where
  socket : TCP.Socket.Client
  timeout : Option Duration
  pending : List UInt8

/-- What a process keeps between two demands of its run. -/
structure Machine where
  env : Environment
  /-- The instant at which the monotonic clock of the machine shows zero. -/
  clockStart : Nat
  log : IO.Ref (Installation × Files.Disk)
  link : IO.Ref (Option Link)

namespace Machine

/-- What the monotonic clock has to be added to. -/
def readClockStart : IO Nat := do
  let sinceStart := (← Std.Time.Timestamp.now).toNanosecondsSinceUnixEpoch.val - Calendar.startSeconds * 1000000000
  return sinceStart.toNat - (← IO.monoNanosNow)

variable (m : Machine)

def now : IO Instant := return m.clockStart + (← IO.monoNanosNow)

partial def waitFor (t : Instant) : IO Unit := do
  let now ← m.now
  if now < t then
    IO.sleep (min 60000 ((t - now) / 1000000 + 1)).toUInt32
    waitFor t

/-- Makes the files of the machine what they are on a changed disk. -/
def sync (old new : Files.Disk) : IO Unit := do
  for (path, content) in new.listing do
    let path := "/" ++ path
    if content.isNone then IO.FS.createDirAll path
    else if let .ok bytes := new.bytes path then
      if (old.bytes path).toOption != some bytes then
        if let some parent := Files.Path.parent? path then IO.FS.createDirAll parent
        IO.FS.writeBinFile path ⟨bytes.toArray⟩
  for (path, content) in old.listing do
    let path := "/" ++ path
    if content.isSome && (new.bytes path).toOption.isNone then IO.FS.removeFile path

def note (lines : Array Line) : IO Unit := do
  let now ← m.now
  for line in lines do
    let (installation, disk) ← m.log.get
    let record : Logging.Record := ⟨line.level, "leasehold", none, none, line.text⟩
    let (installation, output) := installation.log m.env now record ⟨disk, ""⟩
    IO.print output.console
    sync disk output.disk
    m.log.set (installation, output.disk)

def within (timeout : Option Duration) (act : Async α) : Async (Option α) :=
  match timeout with
  | none => return some (← act)
  | some d => Async.race (return some (← act)) do
    sleep (.ofNat (d.nanos / 1000000 + 1))
    return none

/-- The code, counted down from zero, of a connection that nobody takes. -/
def refusedCode : UInt32 := 0 - 111

def faultOf : IO.Error → Redis.Fault
  | .noSuchThing _ code text => if code = refusedCode then .refused else .machine text
  | why => .machine (toString why)

/-- Connects to the first address of a host that answers. -/
def dial (host : String) (port : Nat) (timeout : Option Duration) : IO (Except Redis.Fault Link) := do
  let mut failure := .machine "failed to lookup address information"
  for address in ← (DNS.getAddrInfo host "" none).block do
    let goal : Std.Net.SocketAddress := match address with
      | .v4 a => .v4 ⟨a, port.toUInt16⟩
      | .v6 a => .v6 ⟨a, port.toUInt16⟩
    try
      let socket ← TCP.Socket.Client.mk
      match ← (within timeout (socket.connect goal)).block with
      | some _ => return .ok ⟨socket, timeout, []⟩
      | none => failure := .timedOut
    catch why => failure := faultOf why
  return .error failure

def connect (e : Endpoint) (timeout : Option Duration) : IO (Except Redis.Fault Unit) := do
  m.link.set none
  match e with
  | .socket _ => return .error (.machine "sockets in the file system are not supported")
  | .tcp host port =>
    match ← dial host port timeout with
    | .error why => return .error why
    | .ok link =>
      m.link.set (some link)
      return .ok ()

partial def read (link : Link) : IO (Except Redis.Fault Value) := do
  match Wire.read link.pending with
  | .malformed => return .error .malformed
  | .done answer rest =>
    m.link.set (some { link with pending := rest })
    return answer.mapError .server
  | .more =>
    match ← (within link.timeout (link.socket.recv? 65536)).block with
    | none => return .error .timedOut
    | some none => return .error .streamEnded
    | some (some bytes) => read { link with pending := link.pending ++ bytes.toList }

def answer (commands : List Command) : IO (Except Redis.Fault Value) := do
  match ← m.link.get with
  | none => return .error .streamEnded
  | some link =>
    try
      unless commands.isEmpty do (link.socket.send ⟨(commands.flatMap Wire.encode).toArray⟩).block
      m.read link
    catch why => return .error (faultOf why)

/-- Makes a run again and again, each time with one more event, until it waits for nothing. The
journal is logged as it grows beyond the size it has had. -/
partial def drive {β : Type} (session : β → Session Replay) (run : Session Replay → β) (w : Session Replay)
    (events : Array Event) (seen : Nat) : IO β := do
  let result := run { w with store := .start events.toList }
  let s := session result
  match s.store.demand with
  | none =>
    m.note (s.journal.extract seen s.journal.size)
    return result
  | some (.time earliest journal) =>
    m.note (journal.extract seen journal.size)
    m.waitFor earliest
    drive session run w (events.push (.time (← m.now))) journal.size
  | some (.connection e timeout) =>
    drive session run w (events.push (.connection (← m.connect e timeout))) seen
  | some (.answer commands) =>
    drive session run w (events.push (.answer (← m.answer commands))) seen

end Machine

namespace Printed

def write (p : Printed) : IO Unit := do
  IO.print p.out
  IO.eprint p.err

end Printed

/-- Takes files of the machine onto a disk, as far as they can be read. -/
def loadFiles (disk : Files.Disk) (paths : List String) : IO Files.Disk :=
  paths.foldlM (fun disk (path : String) => do
    match ← (IO.FS.readBinFile path).toBaseIO with
    | .ok content => return disk.after (Files.Act.plant path content.toList)
    | .error _ => return disk) disk

def loadVariables (names : List String) : IO Environment := do
  let entries ← names.filterMapM fun name => do
    return (← IO.getEnv name).map fun value => (name, Utf8.encode value)
  return ⟨entries⟩

/-- What a process finds around it that its request can be about. -/
def loadSurroundings (r : Request) : IO Surroundings := do
  let directory := toString (← IO.currentDir)
  let home := Files.Path.components directory
  let empty := Files.Disk.empty.after (Files.Act.makeAll directory)
  let disk ← loadFiles { empty with home } r.files
  let env ← loadVariables (variableNames (r.files.filterMap fun path => (disk.text path).toOption))
  let s : Surroundings := ⟨disk, directory, env⟩
  return { s with disk := ← loadFiles disk (r.logFiles s) }

def drawToken : IO Token := do
  let bytes ← IO.getRandomBytes 16
  return .ofNumber (bytes.foldl (fun n b => n * 256 + b.toNat) 0)

/-- Runs a request to its end; the answer is the exit code. -/
def serve (r : Request) : IO UInt32 := do
  let s ← loadSurroundings r
  let clockStart ← Machine.readClockStart
  let now := clockStart + (← IO.monoNanosNow)
  let (installed, installation, disk) := r.installLog s now
  IO.eprint (installFailure installed)
  Machine.sync s.disk disk
  let m : Machine := ⟨s.env, clockStart, ← IO.mkRef (installation, disk), ← IO.mkRef none⟩
  let token ← drawToken
  let begun ← m.drive Progress.session (r.start Replay.transport { s with disk } token)
    ⟨now, .start [], #[]⟩ #[] 0
  let (ended, written) ← match begun with
    | .ended e => pure (e, Printed.nothing)
    | .holding h => do
      h.printed.write
      let w := h.session
      let e ← m.drive Ended.session (fun w => { h with session := w }.finish) w #[] w.journal.size
      pure (e, h.printed)
  let reported := ended.reported
  let noted := ended.session.journal.size
  m.note (reported.session.journal.extract noted reported.session.journal.size)
  (reported.printed.since written).write
  return reported.code.toUInt32

def refuse (why : UsageFault) : IO UInt32 := do
  match why with
  | .help => IO.print usage
  | .version => IO.print versionLine
  | _ => IO.eprint ("error: " ++ why.name ++ "\n\n" ++ usage)
  return why.code.toUInt32

end CommandLine
end Leasehold

open Leasehold.CommandLine in
def main (words : List String) : IO UInt32 :=
  match Request.ofWords words with
  | .ok r => serve r
  | .error why => refuse why
