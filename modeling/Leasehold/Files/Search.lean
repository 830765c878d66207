import Leasehold.Files

/-!
# Looking for a file

A file is looked for by name in a folder and the folders below it, down to a
limit. The nearest file is taken, and among equally near ones the first. The
way to it is gone once more at the end, and this can fail.
-/

namespace Leasehold
namespace Files

inductive SearchFault where
  /-- The own folder is gone. -/
  | noHome (why : Fault)
  /-- There is no folder to look in. -/
  | noRoot (why : Fault)
  | notFound (name : String) (root : Location)
  /-- A file is listed but not to be reached. -/
  | outOfReach (why : Fault)
deriving DecidableEq

def Location.render (origin : String) (place : Location) : String :=
  place.foldl (fun path name => path ++ "/" ++ name) origin

def SearchFault.message (origin : String) : SearchFault → String
  | noHome why => "Failed to get current directory: " ++ why.message
  | noRoot why => "Failed to canonicalize path: " ++ why.message
  | notFound name root => "File '" ++ name ++ "' not found in " ++ Location.render origin root
  | outOfReach why => "Failed to canonicalize file path: " ++ why.message

def byName (entries : List (String × Item)) : List (String × Item) :=
  entries.mergeSort fun a b => !(decide (b.1 < a.1))

/-- Everything down to a depth: a folder comes before what is in it, and siblings come by name. Only
folders that can be listed show what is in them, and a folder below another one is opened only if the
other one can be entered and the path, which may grow by `room` bytes, is not too long. -/
def visit : Nat → Nat → Item → List (Location × Item)
  | 0, _, _ => []
  | depth + 1, room, item =>
    (byName item.entries).flatMap fun (name, inner) =>
      ([name], inner) ::
        if item.opens && decide (name.utf8ByteSize < room) then
          (visit depth (room - (name.utf8ByteSize + 1)) inner).map fun (place, found) => (name :: place, found)
        else []

def depthLimit : Nat := 4

/-- Of two locations the nearer, or the first of equally near ones. -/
def nearer : Option Location → Location → Option Location
  | none, b => some b
  | some a, b => if b.length < a.length then some b else some a

def isMatch (name : String) (found : Location × Item) : Bool :=
  !found.2.isFolder && found.1.getLast? == some name

/-- The nearest file of the name below an item, which may itself be a file of the given name. -/
def search? (name : String) (room : Nat) (own : Option String) (item : Item) : Option Location :=
  match item with
  | .file .. => if own = some name then some [] else none
  | .folder .. =>
    (((visit depthLimit room item).filter (isMatch name)).map (·.1)).foldl nearer none

/-- Looks for a file below a location, and makes the path of what it finds canonical. -/
def Disk.searchAt (d : Disk) (root : Location) (name : String) : Except SearchFault Location :=
  match (d.find? root).bind (search? name (pathLimit - root.size) root.getLast?) with
  | some place => (d.follow [] (root ++ place)).mapError .outOfReach
  | none => .error (.notFound name root)

def Disk.searchBelow (d : Disk) (root : Except Fault Location) (name : String) : Except SearchFault Location :=
  match root with
  | .ok root => d.searchAt root name
  | .error why => .error (.noRoot why)

/-- Looks for a file below the folder that a path leads to, or else below the own folder. -/
def Disk.search (d : Disk) (root : Option String) (name : String) : Except SearchFault Location :=
  match root with
  | some path => d.searchBelow (d.canonical path) name
  | none =>
    match d.find? d.home with
    | some _ => d.searchBelow (d.follow [] d.home) name
    | none => .error (.noHome .missing)

end Files
end Leasehold
