import Leasehold.Files.Gzip
import Leasehold.Text.Pieces
import Leasehold.Text.Utf8

/-!
# Files and folders

A tree of files and folders, and the folder in it that a process works in.
Files are numbered as they are made, so that a file can be told from another
that has taken its name. Folders have rights to list and to enter them; names
are texts, there are no links, and every file may be read and written.
-/

namespace Leasehold
namespace Files

/-- Why an operation on files fails. -/
inductive Fault where
  | missing
  | alreadyThere
  | notFolder
  | isFolder
  | denied
  | nameTooLong
  | nulByte
  | notText
deriving DecidableEq

def Fault.message : Fault → String
  | missing => "No such file or directory (os error 2)"
  | alreadyThere => "File exists (os error 17)"
  | notFolder => "Not a directory (os error 20)"
  | isFolder => "Is a directory (os error 21)"
  | denied => "Permission denied (os error 13)"
  | nameTooLong => "File name too long (os error 36)"
  | nulByte => "file name contained an unexpected NUL byte"
  | notText => "stream did not contain valid UTF-8"

/-- Whether the names in a folder can be listed, and whether what they name can be reached. -/
structure Rights where
  list : Bool
  enter : Bool
deriving DecidableEq

def Rights.all : Rights := ⟨true, true⟩

/-- A file or a folder. A packed file stands for its content in packed form. -/
inductive Item where
  | file (number : Nat) (packed : Bool) (content : List UInt8)
  | folder (rights : Rights) (entries : List (String × Item))

/-- The names that lead from the top folder to an item. -/
abbrev Location := List String

/-- The length of the location as a path, in bytes. -/
def Location.size : Location → Nat
  | [] => 0
  | name :: rest => name.utf8ByteSize + 1 + size rest

namespace Item

def isFolder : Item → Bool
  | folder .. => true
  | file .. => false

def stored (packed : Bool) (content : List UInt8) : List UInt8 :=
  if packed then Gzip.encode content else content

/-- Whether the item is a folder that can be entered. -/
def opens : Item → Bool
  | folder rights _ => rights.enter
  | file .. => false

/-- What is in a folder. -/
def content : Item → List (String × Item)
  | folder _ entries => entries
  | file .. => []

/-- What a folder shows. -/
def entries : Item → List (String × Item)
  | folder rights entries => if rights.list then entries else []
  | file .. => []

/-- Changes what stands under a name, or puts something there; names stay in order. -/
def alterEntry (name : String) (f : Option Item → Option Item) :
    List (String × Item) → List (String × Item)
  | [] => ((f none).map fun item => (name, item)).toList
  | (n, item) :: rest =>
    if n = name then ((f (some item)).map fun item => (name, item)).toList ++ rest
    else if name < n then ((f none).map fun item => (name, item)).toList ++ (n, item) :: rest
    else (n, item) :: alterEntry name f rest

/-- Changes what stands at a location below folders that are there. -/
def alter (f : Option Item → Option Item) : Location → Option Item → Option Item
  | [], item => f item
  | name :: rest, some (folder rights entries) =>
    some (folder rights (alterEntry name (alter f rest) entries))
  | _ :: _, item => item

def find? : Location → Item → Option Item
  | [], item => some item
  | name :: rest, folder _ entries =>
    match entries.lookup name with
    | some item => find? rest item
    | none => none
  | _ :: _, file .. => none

end Item

/-- The items from a top folder on, the folder that relative paths start from, and how many files
were ever made. -/
structure Disk where
  top : Item
  home : Location
  made : Nat

namespace Disk

def empty : Disk := ⟨.folder .all [], [], 0⟩

variable (d : Disk)

def find? (place : Location) : Option Item := d.top.find? place

def put (place : Location) (item : Option Item) : Disk :=
  { d with top := (Item.alter (fun _ => item) place (some d.top)).getD d.top }

/-- The longest name, in bytes. -/
def nameLimit : Nat := 255

/-- The longest path, in bytes. -/
def pathLimit : Nat := 4095

/-- Goes from a location by one name of a path. The top folder is its own parent. -/
def enter (place : Location) (name : String) : Except Fault Location :=
  match d.find? place with
  | none => .error .missing
  | some (.file ..) => .error .notFolder
  | some (.folder rights _) =>
    if name = "" then .ok place
    else if !rights.enter then .error .denied
    else if name = "." then .ok place
    else if name = ".." then .ok place.dropLast
    else if nameLimit < name.utf8ByteSize then .error .nameTooLong
    else if (d.find? (place ++ [name])).isSome then .ok (place ++ [name])
    else .error .missing

def origin (path : String) : Location := if path.startsWith "/" then [] else d.home

def walk (start : Location) (names : List String) : Except Fault Location := names.foldlM d.enter start

/-- Why a text is no path, if it is none. -/
def noPath? (path : String) : Option Fault :=
  if path = "" then some .missing
  else if path.toList.contains (Char.ofNat 0) then some .nulByte
  else none

def unusable? (path : String) : Option Fault :=
  (noPath? path).or (if pathLimit < path.utf8ByteSize then some .nameTooLong else none)

/-- The location that a path leads to. -/
def resolve (path : String) : Except Fault Location :=
  match unusable? path with
  | some why => .error why
  | none => d.walk (d.origin path) (Pieces.texts '/' path)

/-- Looks at what is at a location, by its path from the top folder. -/
def lookAt (place : Location) : Except Fault Location :=
  if pathLimit < place.size then .error .nameTooLong else d.walk [] place

/-- Goes by one name of a path that is made canonical. Each location on the way is looked at anew,
and dots are taken out of the path: all they ask is that a folder is there. -/
def step (place : Location) (name : String) : Except Fault Location :=
  if name = "" ∨ name = "." then d.lookAt (place ++ [""])
  else if name = ".." then (d.lookAt (place ++ [""])).map List.dropLast
  else d.lookAt (place ++ [name])

/-- Goes by all names of a path that is made canonical. -/
def follow (start : Location) (names : List String) : Except Fault Location := names.foldlM d.step start

/-- The location that a path leads to when it is made canonical; only this may be too long, not the
path. -/
def canonical (path : String) : Except Fault Location :=
  match noPath? path with
  | some why => .error why
  | none => d.follow (d.origin path) (Pieces.texts '/' path)

def bytes (path : String) : Except Fault (List UInt8) :=
  match d.resolve path with
  | .error why => .error why
  | .ok place =>
    match d.find? place with
    | some (.file _ packed content) => .ok (Item.stored packed content)
    | some (.folder ..) => .error .isFolder
    | none => .error .missing

def asText (content : List UInt8) : Except Fault String :=
  match Utf8.decode? content with
  | some s => .ok s
  | none => .error .notText

def text (path : String) : Except Fault String :=
  match d.bytes path with
  | .ok content => asText content
  | .error why => .error why

end Disk

mutual

/-- Every file with its path and its content, unpacked, and every empty folder, in order. -/
def listing (path : String) : Item → List (String × Option (List UInt8))
  | .file _ _ content => [(path, some content)]
  | .folder _ [] => [(path ++ "/", none)]
  | .folder _ (entry :: rest) => listingOf (path ++ "/") (entry :: rest)

def listingOf (path : String) : List (String × Item) → List (String × Option (List UInt8))
  | [] => []
  | (name, item) :: rest => listing (path ++ name) item ++ listingOf path rest

end

def Disk.listing (d : Disk) : List (String × Option (List UInt8)) :=
  match d.top with
  | .folder _ entries => listingOf "" entries
  | .file .. => []

end Files
end Leasehold
