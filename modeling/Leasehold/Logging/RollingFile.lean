import Leasehold.Environment
import Leasehold.Files.Writing
import Leasehold.Logging.Settings
import Leasehold.Calendar
import Leasehold.Text.Alphanumeric

/-!
# Rolling files

A file that grows past its limit moves into a row of numbered archives: the
newest has the number zero, the others move up by one, and the last one is
given up. Without archives the file is deleted. Numbers stand where the
pattern of the archives has a pair of braces.
-/

namespace Leasehold
namespace Logging

open Files

/-- A file under way: its number and the size that its writer knows of. -/
structure Writer where
  number : Nat
  size : Nat
deriving DecidableEq

structure RollingFile where
  path : String
  /-- The path of an archive, with braces for its number. -/
  pattern : String
  maxSize : Nat
  maxArchives : Nat
  writer : Option Writer

namespace Reference

/-- The mark of a reference to the environment in a path. -/
def mark : List Char := "$ENV\x7b".toList

/-- The name between the mark and a closing brace, if it is one. -/
def name? (cs : List Char) : Option String :=
  let isPart := fun (c : Char) => Alphanumeric.isAlphanumeric c || c == '_' || c == '.'
  let name := cs.takeWhile isPart
  match name, cs.dropWhile isPart with
  | c :: _, close :: _ => if c == '.' || close != '\x7d' then none else some (String.ofList name)
  | _, _ => none

/-- The names that a path refers to. -/
def names : List Char → List String
  | [] => []
  | c :: cs =>
    (if mark.isPrefixOf (c :: cs) then (name? ((c :: cs).drop mark.length)).toList else []) ++ names cs

/-- The path with the values of the environment in the place of references to it. -/
def expand (env : Environment) (path : String) : String :=
  (names path.toList).foldl (fun path name =>
    match env.find? name with
    | some value => Pieces.replace (String.ofList mark ++ name ++ "\x7d") value path
    | none => path) path

end Reference

namespace RollingFile

variable (env : Environment)

def archive (f : RollingFile) (number : Nat) : String :=
  Reference.expand env (Pieces.replace "\x7b\x7d" (Numeral.ofNat number) f.pattern)

def makeParent (path : String) : Act Unit :=
  match Path.parent? path with
  | some parent => Act.makeAll parent
  | none => pure ()

/-- The writer of a file, opened where there is none. -/
def opened (f : RollingFile) : Act Writer := do
  match f.writer with
  | some w => return w
  | none =>
    let (number, size) ← Act.openToAppend f.path
    return ⟨number, size⟩

def pathOf (base : String) (e : Entry) : String :=
  Reference.expand env (Path.join (Path.join base e.directory) e.fileName)

/-- Opens the file of an entry below a base folder. The time in the names of its archives is that of
the opening. -/
def create (now : Instant) (base : String) (e : Entry) : Act RollingFile := do
  let directory := Path.join base e.directory
  Act.makeAll directory
  let path := pathOf env base e
  makeParent path
  let f : RollingFile :=
    { path
      pattern := directory ++ "/" ++ e.fileName ++ "-\x7b\x7d-" ++ (Calendar.ofInstant now).digits ++ ".gz"
      maxSize := e.maxSize
      maxArchives := e.maxArchives
      writer := none }
  return { f with writer := some (← f.opened) }

/-- Moves the archives below a number up by one, the last first. -/
def shift (f : RollingFile) : Nat → Act Unit
  | 0 => pure ()
  | number + 1 => do
    makeParent (f.archive env (number + 1))
    Act.move (f.archive env number) (f.archive env (number + 1))
    shift f number

/-- Packs the content of the file into the first archive. -/
def pack (f : RollingFile) : Act Unit := do
  let content ← Act.look (·.bytes f.path)
  Act.write (f.archive env 0) true content
  Act.remove f.path

/-- Moves the file into the archives, or deletes it where there are none. A file that cannot be
packed leaves a line for the console. -/
def roll (f : RollingFile) (disk : Disk) : String × Disk :=
  if f.maxArchives = 0 then ("", disk.after (Act.remove f.path))
  else
    let prepare : Act Unit := do
      makeParent (f.archive env 0)
      f.shift env (f.maxArchives - 1)
    match prepare.run disk with
    | (.error _, disk) => ("", disk)
    | (.ok _, disk) =>
      match (f.pack env).run disk with
      | (.ok _, disk) => ("", disk)
      | (.error _, disk) => ("err compressing: " ++ f.path ++ ", dst: " ++ f.archive env 0 ++ "\n", disk)

def append (f : RollingFile) (line : String) (disk : Disk) : RollingFile × String × Disk :=
  match f.opened.run disk with
  | (.error _, disk) => (f, "", disk)
  | (.ok w, disk) =>
    let more := Utf8.encode line
    let disk := disk.after (Act.append f.path w.number more)
    let size := w.size + more.length
    if f.maxSize < size then
      let (printed, disk) := f.roll env disk
      ({ f with writer := none }, printed, disk)
    else ({ f with writer := some ⟨w.number, size⟩ }, "", disk)

end RollingFile
end Logging
end Leasehold
