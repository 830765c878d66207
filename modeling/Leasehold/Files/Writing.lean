import Leasehold.Files

/-!
# Making and changing files

Operations that may fail and may have changed something all the same: folders
made on the way to a place that cannot be made stay.
-/

namespace Leasehold
namespace Files

/-- A computation on a disk; what it did before it failed stays done. -/
abbrev Act := ExceptT Fault (StateM Disk)

namespace Path

/-- The path with another one behind it, unless that one starts at the top. -/
def join (base path : String) : String :=
  if path.startsWith "/" then path
  else if base.isEmpty || base.endsWith "/" then base ++ path
  else base ++ "/" ++ path

/-- The names that count: all but empty ones and dots, except that a dot may come first. -/
def components (path : String) : List String :=
  match Pieces.texts '/' path with
  | [] => []
  | first :: rest =>
    (if first.isEmpty then [] else [first]) ++ rest.filter fun n => !(n.isEmpty || n == ".")

def parent? (path : String) : Option String :=
  match components path with
  | [] => none
  | names => some ((if path.startsWith "/" then "/" else "") ++ "/".intercalate names.dropLast)

end Path

/-- A place that a path names in a folder that is there: the folder and the last name, and whether
the path asks for a folder by a slash at its end. -/
structure Target where
  folder : Location
  name : String
  slash : Bool

namespace Target

def place (t : Target) : Location := t.folder ++ [t.name]

/-- Whether the last name leads to a folder without naming it. -/
def isDots (t : Target) : Bool := t.name == "." || t.name == ".." || t.name == ""

end Target

namespace Disk

variable (d : Disk)

def target (path : String) : Except Fault Target :=
  match unusable? path with
  | some why => .error why
  | none =>
    let names := Pieces.texts '/' path
    let solid := (names.reverse.dropWhile (·.isEmpty)).reverse
    match d.walk (d.origin path) solid.dropLast with
    | .error why => .error why
    | .ok folder =>
      match d.find? folder with
      | some (.folder rights _) =>
        let name := solid.getLast?.getD ""
        if !rights.enter then .error .denied
        else if nameLimit < name.utf8ByteSize then .error .nameTooLong
        else .ok ⟨folder, name, decide (solid.length < names.length)⟩
      | some (.file ..) => .error .notFolder
      | none => .error .missing

def hasFolder (path : String) : Bool :=
  match d.resolve path with
  | .ok place => (d.find? place).any Item.isFolder
  | .error _ => false

end Disk

namespace Act

/-- Runs what may fail without a change. -/
def look (f : Disk → Except Fault α) : Act α := do
  match f (← get) with
  | .ok a => pure a
  | .error why => throw why

def put (place : Location) (item : Option Item) : Act Unit := modify fun d => d.put place item

def makeFolder (path : String) : Act Unit := do
  let t ← look (·.target path)
  if t.isDots || ((← get).find? t.place).isSome then throw .alreadyThere
  put t.place (some (.folder .all []))

def ensureFolder (path : String) : Act Unit := do
  match (makeFolder path).run (← get) with
  | (.ok _, d) => set d
  | (.error why, _) => unless (← get).hasFolder path do throw why

/-- Makes a folder and those above it, where they are missing; `levels` bounds their number. -/
def makeFolders : Nat → String → Act Unit
  | 0, _ => pure ()
  | levels + 1, path => do
    if path.isEmpty then return
    match (makeFolder path).run (← get) with
    | (.ok _, d) => set d
    | (.error .missing, _) =>
      match Path.parent? path with
      | some parent => makeFolders levels parent
      | none => throw .missing
      ensureFolder path
    | (.error why, _) => unless (← get).hasFolder path do throw why

def makeAll (path : String) : Act Unit := makeFolders (path.length + 2) path

/-- Makes a file with the content, packed or not, in the place of whatever file has its name. -/
def write (path : String) (packed : Bool) (content : List UInt8) : Act Unit := do
  let t ← look (·.target path)
  if t.slash || t.isDots then throw .isFolder
  match (← get).find? t.place with
  | some (.folder ..) => throw .isFolder
  | some (.file number ..) => put t.place (some (.file number packed content))
  | none =>
    put t.place (some (.file (← get).made packed content))
    modify fun d => { d with made := d.made + 1 }

/-- Opens a file to write at its end, making it if it is missing: its number and its size. -/
def openToAppend (path : String) : Act (Nat × Nat) := do
  let t ← look (·.target path)
  if t.slash || t.isDots then throw .isFolder
  match (← get).find? t.place with
  | some (.folder ..) => throw .isFolder
  | some (.file number packed content) => return (number, (Item.stored packed content).length)
  | none =>
    let number := (← get).made
    put t.place (some (.file number false []))
    modify fun d => { d with made := d.made + 1 }
    return (number, 0)

/-- Writes at the end of a file that has kept its name; what is written to a file without a name
is lost. -/
def append (path : String) (number : Nat) (more : List UInt8) : Act Unit := do
  match (← get).target path with
  | .ok t =>
    match (← get).find? t.place with
    | some (.file n packed content) =>
      if n = number then put t.place (some (.file n false (Item.stored packed content ++ more)))
    | _ => pure ()
  | .error _ => pure ()

def remove (path : String) : Act Unit := do
  let t ← look (·.target path)
  match (← get).find? t.place with
  | some (.file ..) => put t.place none
  | some (.folder ..) => throw .isFolder
  | none => throw .missing

/-- Gives a file another name; a missing file is no failure. -/
def move (source goal : String) : Act Unit := do
  match (← get).target source with
  | .error .missing => pure ()
  | .error why => throw why
  | .ok s =>
    match (← get).find? s.place with
    | none => pure ()
    | some item =>
      let t ← look (·.target goal)
      match (← get).find? t.place with
      | some (.folder ..) => throw .isFolder
      | _ =>
        put s.place none
        put t.place (some item)

/-- Makes a file and the folders above it, or a folder for a path that ends in a slash. -/
def plant (path : String) (content : List UInt8) : Act Unit := do
  if path.endsWith "/" then makeAll path
  else
    makeAll ((Path.parent? path).getD "")
    write path false content

end Act

def Disk.after (d : Disk) (act : Act α) : Disk := (act.run d).2

end Files
end Leasehold
