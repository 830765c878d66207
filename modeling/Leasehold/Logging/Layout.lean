import Leasehold.Logging.ModulePath
import Leasehold.Logging.Settings
import Leasehold.Logging.Threshold
import Leasehold.Text.Quoted

/-!
# Layouts

Which appenders and loggers settings ask for, by name. Each module gets a
logger and an appender of its own and keeps its lines from the root; without a
root entry the root writes to the console.
-/

namespace Leasehold
namespace Logging

structure Logger where
  name : String
  threshold : Threshold
  appenders : List String
  /-- Whether lines go to the appenders further up as well. -/
  additive : Bool
deriving DecidableEq

/-- Where lines go that no logger takes. -/
structure Root where
  threshold : Threshold
  appenders : List String
deriving DecidableEq

/-- Appenders that write to the file of an entry or, without an entry, to the console. -/
structure Layout where
  appenders : List (String × Option Entry)
  loggers : List Logger
  root : Root
deriving DecidableEq

inductive LayoutFault where
  | duplicateAppender (name : String)
  | duplicateLogger (name : String)
  | invalidName (name : String)
  | missingAppender (name : String)
deriving DecidableEq

namespace LayoutFault

def render (kind name : String) : String :=
  "    " ++ kind ++ "(\n        " ++ Quoted.encode name ++ ",\n    ),\n"

def text : LayoutFault → String
  | duplicateAppender name => render "DuplicateAppenderName" name
  | duplicateLogger name => render "DuplicateLoggerName" name
  | invalidName name => render "InvalidLoggerName" name
  | missingAppender name => render "NonexistentAppender" name

/-- All faults of a layout, each on lines of its own. -/
def message (faults : List LayoutFault) : String :=
  "Configuration errors: [\n" ++ String.join (faults.map text) ++ "]"

end LayoutFault

namespace Layout

def consoleName : String := "console_appender"

def appenderName (path : String) : String := path ++ "_appender"

def loggerOf (e : Entry) : Logger :=
  ⟨e.pathPrefix, .read e.level, [appenderName e.pathPrefix], false⟩

def rootOf (root : Option Entry) : List (String × Option Entry) × Root :=
  let name := appenderName Settings.rootPrefix
  match root with
  | none => ([(consoleName, none)], ⟨.upTo .info, [consoleName]⟩)
  | some e =>
    if e.console then ([(name, some e), (consoleName, none)], ⟨.read e.level, [name, consoleName]⟩)
    else ([(name, some e)], ⟨.read e.level, [name]⟩)

def ofSettings (s : Settings) : Layout :=
  let (appenders, root) := rootOf s.root?
  { appenders := s.modules.map (fun e => (appenderName e.pathPrefix, some e)) ++ appenders
    loggers := s.modules.map loggerOf
    root }

/-- The names that stand a second time, in order. -/
def repeated : List String → List String → List String
  | _, [] => []
  | seen, name :: rest =>
    if seen.contains name then name :: repeated seen rest else repeated (name :: seen) rest

/-- The faults of loggers, of which some have come before. -/
def loggerFaults (appenders : List String) : List String → List Logger → List LayoutFault
  | _, [] => []
  | seen, l :: rest =>
    if seen.contains l.name then .duplicateLogger l.name :: loggerFaults appenders seen rest
    else
      (if ModulePath.isValid l.name then
          (l.appenders.filter (!appenders.contains ·)).map .missingAppender
        else [.invalidName l.name]) ++
        loggerFaults appenders (l.name :: seen) rest

def faults (l : Layout) : List LayoutFault :=
  let names := l.appenders.map (·.1)
  (repeated [] names).map .duplicateAppender ++
    (l.root.appenders.filter (!names.contains ·)).map .missingAppender ++
    loggerFaults names [] l.loggers

/-- The threshold and the appenders for a target: those of its nearest logger, or else the root's. -/
def route (l : Layout) (target : String) : Threshold × List String :=
  match ModulePath.nearest? Logger.name l.loggers target with
  | some logger => (logger.threshold, logger.appenders)
  | none => (l.root.threshold, l.root.appenders)

/-- The most that any logger lets through. -/
def widest (l : Layout) : Threshold :=
  l.loggers.foldl (fun t logger => t.max logger.threshold) l.root.threshold

end Layout
end Logging
end Leasehold
