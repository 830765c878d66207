import Leasehold.Files.Search
import Leasehold.Logging.Layout
import Leasehold.Logging.Record
import Leasehold.Logging.RollingFile

/-!
# Running logs

A layout with its files open. A process may install one; an attempt to install
another one fails, but its most verbose level counts from then on.
-/

namespace Leasehold
namespace Logging

open Files

inductive Appender where
  | console
  | file (f : RollingFile)

/-- A layout with its appenders at work. -/
structure Facility where
  layout : Layout
  appenders : List (String × Appender)

inductive BuildFault where
  | file (why : Fault)
  | layout (faults : List LayoutFault)
deriving DecidableEq

def BuildFault.message : BuildFault → String
  | file why => why.message
  | layout faults => LayoutFault.message faults

/-- The files and what was written to the console. -/
structure Output where
  disk : Disk
  console : String

def Output.print (o : Output) (text : String) : Output := { o with console := o.console ++ text }

namespace Facility

variable (env : Environment) (now : Instant)

def baseDirectory (s : Settings) : String :=
  s.outputDirectory.getD ((env.find? "LOG_OUTPUT_DIR").getD ".")

def paths (s : Settings) : List String := s.entries.map (RollingFile.pathOf env (baseDirectory env s))

def openAll (base : String) : List (String × Option Entry) → Act (List (String × Appender))
  | [] => return []
  | (name, none) :: rest => return (name, .console) :: (← openAll base rest)
  | (name, some e) :: rest => do
    let f ← RollingFile.create env now base e
    return (name, .file f) :: (← openAll base rest)

/-- Builds the log that settings ask for. Files are opened before names are compared. -/
def build (s : Settings) (disk : Disk) : Except BuildFault Facility × Disk :=
  let layout := Layout.ofSettings s
  match (openAll env now (baseDirectory env s) layout.appenders).run disk with
  | (.error why, disk) => (.error (.file why), disk)
  | (.ok appenders, disk) =>
    match layout.faults with
    | [] => (.ok ⟨layout, appenders⟩, disk)
    | faults => (.error (.layout faults), disk)

def writeTo (line name : String) : List (String × Appender) → Output → List (String × Appender) × Output
  | [], o => ([], o)
  | (n, a) :: rest, o =>
    if n = name then
      match a with
      | .console => ((n, a) :: rest, o.print line)
      | .file f =>
        let (f, printed, disk) := f.append env line o.disk
        ((n, .file f) :: rest, { o with disk }.print printed)
    else
      let (rest, o) := writeTo line name rest o
      ((n, a) :: rest, o)

/-- Takes a record to the appenders of its route, if it passes the threshold. -/
def log (r : Record) (f : Facility) (o : Output) : Facility × Output :=
  let (threshold, names) := f.layout.route r.target
  if threshold.admits r.level then
    let line := r.render now
    let (appenders, o) := names.foldl (fun (appenders, o) name => writeTo env line name appenders o)
      (f.appenders, o)
    ({ f with appenders }, o)
  else (f, o)

end Facility

inductive InstallFault where
  | settings (why : SettingsFault)
  | build (why : BuildFault)
  | alreadyInstalled
deriving DecidableEq

def InstallFault.message : InstallFault → String
  | settings why => why.message
  | build why => why.message
  | alreadyInstalled => "attempted to set a logger after the logging system was already initialized"

/-- What a process has installed, and the threshold before any logger's. -/
structure Installation where
  facility : Option Facility
  threshold : Threshold

namespace Installation

def start : Installation := ⟨none, .off⟩

variable (env : Environment) (now : Instant)

def install (s : Settings) (i : Installation) (disk : Disk) : Except InstallFault Unit × Installation × Disk :=
  match Facility.build env now s disk with
  | (.error why, disk) => (.error (.build why), i, disk)
  | (.ok f, disk) =>
    match i.facility with
    | none => (.ok (), ⟨some f, f.layout.widest⟩, disk)
    | some _ => (.error .alreadyInstalled, { i with threshold := f.layout.widest }, disk)

def installFile (path : String) (i : Installation) (disk : Disk) :
    Except InstallFault Unit × Installation × Disk :=
  match Settings.ofFile disk path with
  | .error why => (.error (.settings why), i, disk)
  | .ok s => install env now s i disk

def fileName : String := "logging.yaml"

/-- Installs the log of the nearest settings file. -/
def installFound (i : Installation) (disk : Disk) : Except InstallFault Unit × Installation × Disk :=
  match disk.search none fileName with
  | .ok place => installFile env now ("/".intercalate place) i disk
  | .error _ => installFile env now fileName i disk

/-- Hands a record to the log that is installed. -/
def log (r : Record) (i : Installation) (o : Output) : Installation × Output :=
  match i.facility with
  | none => (i, o)
  | some f =>
    if i.threshold.admits r.level then
      let (f, o) := f.log env now r o
      ({ i with facility := some f }, o)
    else (i, o)

end Installation
end Logging
end Leasehold
