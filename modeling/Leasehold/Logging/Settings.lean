import Leasehold.Files
import Leasehold.Yaml.Shape

/-!
# Log settings

Which modules log where: one entry for each module prefix, with a file, its
limits and a level. The entry of the prefix `root` is for everything else.
-/

namespace Leasehold
namespace Logging

structure Entry where
  pathPrefix : String
  directory : String
  fileName : String
  maxSize : Nat
  maxArchives : Nat
  level : String
  /-- Whether lines go to the console too; counts for the root only. -/
  console : Bool
deriving DecidableEq

structure Settings where
  outputDirectory : Option String
  entries : List Entry
deriving DecidableEq

namespace Settings

def rootPrefix : String := "root"

variable (s : Settings)

/-- The first entry whose prefix starts the path of a module. -/
def entryFor? (path : String) : Option Entry :=
  s.entries.find? fun e => e.pathPrefix.toList.isPrefixOf path.toList

/-- The first entry for everything else. -/
def root? : Option Entry := s.entries.find? (·.pathPrefix == rootPrefix)

def modules : List Entry := s.entries.filter (·.pathPrefix != rootPrefix)

end Settings

structure Entry.Draft where
  pathPrefix : Option String
  directory : Option String
  fileName : Option String
  maxSize : Option Nat
  maxArchives : Option Nat
  level : Option String
  console : Option Bool

namespace Entry.Draft

open Yaml

def empty : Draft := ⟨none, none, none, none, none, none, none⟩

def put (d : Document) (e : Draft) (name : String) (step : Step) (node : Node) : Fitted Draft :=
  match name with
  | "path_prefix" =>
    (setOnce e.pathPrefix name step (d.text node)).map fun a => { e with pathPrefix := some a }
  | "log_directory" =>
    (setOnce e.directory name step (d.text node)).map fun a => { e with directory := some a }
  | "log_file_name" =>
    (setOnce e.fileName name step (d.text node)).map fun a => { e with fileName := some a }
  | "max_file_size" =>
    (setOnce e.maxSize name step (d.word 64 node)).map fun a => { e with maxSize := some a }
  | "max_zip_count" =>
    (setOnce e.maxArchives name step (d.word 32 node)).map fun a => { e with maxArchives := some a }
  | "level" => (setOnce e.level name step (d.text node)).map fun a => { e with level := some a }
  | "console" => (setOnce e.console name step (d.truth node)).map fun a => { e with console := some a }
  | _ => .ok e

/-- The entry, if all its fields are there; a console has to be asked for. -/
def finish (e : Draft) : Fitted Entry := do
  let pathPrefix ← require "path_prefix" e.pathPrefix
  let directory ← require "log_directory" e.directory
  let fileName ← require "log_file_name" e.fileName
  let maxSize ← require "max_file_size" e.maxSize
  let maxArchives ← require "max_zip_count" e.maxArchives
  let level ← require "level" e.level
  return { pathPrefix, directory, fileName, maxSize, maxArchives, level, console := e.console.getD false }

end Entry.Draft

structure Settings.Draft where
  outputDirectory : Option (Option String)
  entries : Option (List Entry)

inductive SettingsFault where
  /-- The file cannot be read. -/
  | file (why : Files.Fault)
  /-- The text is no document. -/
  | notDocument
  | misfit (why : Yaml.Misfit)
deriving DecidableEq

def SettingsFault.message : SettingsFault → String
  | file why => why.message
  | notDocument => "the text is not a document"
  | misfit why => why.message

namespace Settings

open Yaml

def entryOf (d : Document) (node : Node) : Fitted Entry :=
  match d.record "struct LoggerConfig" (Entry.Draft.put d) .empty node with
  | .ok draft => draft.finish
  | .error m => .error m

def Draft.put (d : Document) (s : Draft) (name : String) (step : Step) (node : Node) : Fitted Draft :=
  match name with
  | "output_dir" =>
    (setOnce s.outputDirectory name step (d.optional d.text node)).map fun a =>
      { s with outputDirectory := some a }
  | "loggers" =>
    (setOnce s.entries name step (d.row (entryOf d) node)).map fun a => { s with entries := some a }
  | _ => .ok s

def ofDocument (d : Document) : Fitted Settings :=
  match d.record "struct LogConfig" (Draft.put d) ⟨none, none⟩ (d.root.getD Node.omitted) with
  | .error m => .error m
  | .ok s => (require "loggers" s.entries).map fun entries => ⟨s.outputDirectory.getD none, entries⟩

/-- Reads the settings in a text. A text that is no document is told from one of another shape. -/
def ofText (text : String) : Except SettingsFault Settings :=
  match document? text with
  | none => .error .notDocument
  | some d =>
    match ofDocument d with
    | .ok s => .ok s
    | .error m => .error (if d.value?.isSome then .misfit m else .notDocument)

def ofFile (disk : Files.Disk) (path : String) : Except SettingsFault Settings :=
  match disk.text path with
  | .ok text => ofText text
  | .error why => .error (.file why)

end Settings
end Logging
end Leasehold
