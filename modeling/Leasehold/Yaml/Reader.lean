import Leasehold.Yaml.Lexer
import Leasehold.Yaml.Node

/-!
# From tokens to nodes

A descent along the grammar of documents. A text holds at most one document,
and everything in it has to fit.
-/

namespace Leasehold
namespace Yaml

/-- What is still to be read, and what is known about anchors and tags. -/
structure Reader where
  tokens : List Token
  /-- What the tag handles stand for. -/
  handles : List (String × List UInt8)
  /-- The number of each anchor name. -/
  names : List (String × Nat)
  anchored : List Anchored
  ranks : Nat
  size : Nat

/-- The tag and the anchor in front of a node. -/
structure Properties where
  tag : Option (List UInt8)
  anchor : Option (Nat × Nat)

namespace Reader

/-- The handles that every document knows. -/
def commonHandles : List (String × List UInt8) :=
  [("!", ['!'].flatMap Property.charBytes),
   ("!!", "tag:yaml.org,2002:".toList.flatMap Property.charBytes)]

variable (r : Reader)

def peek? : Option Token := r.tokens.head?

def sees (t : Token) : Bool := r.tokens.head? == some t

def seesAny (ts : List Token) : Bool := r.tokens.head?.any ts.contains

def skip : Reader := { r with tokens := r.tokens.tail }

def grow (n : Nat) : Reader := { r with size := r.size + n }

/-- Numbers an anchor. A name that is used again gets a new number, but the names stay as many as
they were. -/
def enter (name : String) : (Nat × Nat) × Reader :=
  let number := r.names.length
  ((number, r.ranks),
    { r with names := (name, number) :: r.names.filter (·.1 != name), ranks := r.ranks + 1 })

def keep (p : Properties) (node : Node) : Node × Reader :=
  match p.anchor with
  | some (number, rank) => (node, { r with anchored := ⟨number, rank, node⟩ :: r.anchored })
  | none => (node, r)

def resolveTag? (handle : String) (suffix : List UInt8) : Option (List UInt8) :=
  if handle.isEmpty then some suffix else (r.handles.lookup handle).map (· ++ suffix)

/-- The anchor and the tag in front of a node, in either order, each at most once. -/
def properties? : Option (Properties × Reader) :=
  let anchorFirst := match r.peek? with
    | some (.anchor name) => (some name, r.skip)
    | _ => (none, r)
  let withTag := match anchorFirst.2.peek? with
    | some (.tag handle suffix) => (some (handle, suffix), anchorFirst.2.skip)
    | _ => (none, anchorFirst.2)
  let (name, r) := match anchorFirst.1, withTag.1, withTag.2.peek? with
    | none, some _, some (.anchor name) => (some name, withTag.2.skip)
    | name, _, _ => (name, withTag.2)
  let tag := match withTag.1 with
    | none => some none
    | some (handle, suffix) => (r.resolveTag? handle suffix).map some
  tag.map fun tag =>
    match name with
    | some name =>
      let (anchor, r) := r.enter name
      (⟨tag, some anchor⟩, r)
    | none => (⟨tag, none⟩, r)

/-- A scalar keeps a tag other than the bare mark. -/
def scalarTag (tag : Option (List UInt8)) : Option (List UInt8) :=
  match tag with
  | some [0x21] => none
  | tag => tag

mutual

/-- Reads a node; blocks only where they may stand, and in the place of a value a sequence may
stand at the indentation of its key. -/
def node? (block unindented : Bool) : Nat → Reader → Option (Node × Reader)
  | 0, _ => none
  | fuel + 1, r =>
    match r.peek? with
    | some (.alias name) =>
      match r.names.lookup name with
      | some number => some (.alias number, r.skip.grow 1)
      | none => none
    | _ =>
      match r.properties? with
      | none => none
      | some (p, r) =>
        let finish (items : Option (Node × Reader)) : Option (Node × Reader) :=
          items.map fun (node, r) => (r.grow 2).keep p node
        match r.peek? with
        | some .blockEntry =>
          if unindented then
            finish ((unindentedItems? fuel r).map fun (items, r) => (.sequence p.tag items, r))
          else empty? p r
        | some (.scalar text form) =>
          some ((r.skip.grow 1).keep p (.scalar (scalarTag p.tag) text form))
        | some .flowSequence =>
          finish ((flowItems? true fuel r.skip).map fun (items, r) => (.sequence p.tag items, r))
        | some .flowMapping =>
          finish ((flowEntries? true fuel r.skip).map fun (entries, r) => (.mapping p.tag entries, r))
        | some .blockSequence =>
          if block then
            finish ((blockItems? fuel r.skip).map fun (items, r) => (.sequence p.tag items, r))
          else empty? p r
        | some .blockMapping =>
          if block then
            finish ((blockEntries? fuel r.skip).map fun (entries, r) => (.mapping p.tag entries, r))
          else empty? p r
        | _ => empty? p r

/-- A node of which only the properties are written. -/
def empty? (p : Properties) (r : Reader) : Option (Node × Reader) :=
  if p.tag.isSome || p.anchor.isSome then
    some ((r.grow 1).keep p (.scalar p.tag "" .plain))
  else none

/-- Reads a node, or leaves it out where one of the given tokens follows. -/
def nodeUnless? (block unindented : Bool) (stops : List Token) :
    Nat → Reader → Option (Node × Reader)
  | 0, _ => none
  | fuel + 1, r =>
    if r.seesAny stops then some (.omitted, r.grow 1) else node? block unindented fuel r

def blockItems? : Nat → Reader → Option (List Node × Reader)
  | 0, _ => none
  | fuel + 1, r =>
    if r.sees .blockEntry then
      match nodeUnless? true false [.blockEntry, .blockEnd] fuel r.skip with
      | none => none
      | some (item, r) => (blockItems? fuel r).map fun (items, r) => (item :: items, r)
    else if r.sees .blockEnd then some ([], r.skip)
    else none

def unindentedItems? : Nat → Reader → Option (List Node × Reader)
  | 0, _ => none
  | fuel + 1, r =>
    if r.sees .blockEntry then
      match nodeUnless? true false [.blockEntry, .key, .value, .blockEnd] fuel r.skip with
      | none => none
      | some (item, r) => (unindentedItems? fuel r).map fun (items, r) => (item :: items, r)
    else some ([], r)

def blockEntries? : Nat → Reader → Option (List (Node × Node) × Reader)
  | 0, _ => none
  | fuel + 1, r =>
    if r.sees .key then
      match nodeUnless? true true [.key, .value, .blockEnd] fuel r.skip with
      | none => none
      | some (key, r) =>
        match value? true [.key, .value, .blockEnd] fuel r with
        | none => none
        | some (value, r) =>
          (blockEntries? fuel r).map fun (entries, r) => ((key, value) :: entries, r)
    else if r.sees .blockEnd then some ([], r.skip)
    else none

/-- The value after a key, or nothing where no colon follows. -/
def value? (block : Bool) (stops : List Token) : Nat → Reader → Option (Node × Reader)
  | 0, _ => none
  | fuel + 1, r =>
    if r.sees .value then nodeUnless? block block stops fuel r.skip else some (.omitted, r.grow 1)

/-- Passes the comma in front of every entry but the first. -/
def comma? (first : Bool) (close : Token) (r : Reader) : Option Reader :=
  if first || r.sees close then some r else if r.sees .flowEntry then some r.skip else none

def flowItems? (first : Bool) : Nat → Reader → Option (List Node × Reader)
  | 0, _ => none
  | fuel + 1, r =>
    match comma? first .flowSequenceEnd r with
    | none => none
    | some r =>
      if r.sees .flowSequenceEnd then some ([], r.skip)
      else
        let item := if r.sees .key then pair? fuel r.skip else node? false false fuel r
        match item with
        | none => none
        | some (item, r) => (flowItems? false fuel r).map fun (items, r) => (item :: items, r)

/-- A key and its value as an item of a sequence. Where the key is left out, the token after it is
passed over. -/
def pair? : Nat → Reader → Option (Node × Reader)
  | 0, _ => none
  | fuel + 1, r =>
    let key :=
      if r.seesAny [.value, .flowEntry, .flowSequenceEnd] then some (Node.omitted, r.skip.grow 1)
      else node? false false fuel r
    match key with
    | none => none
    | some (key, r) =>
      (value? false [.flowEntry, .flowSequenceEnd] fuel r).map fun (value, r) =>
        (.mapping none [(key, value)], r.grow 2)

def flowEntries? (first : Bool) : Nat → Reader → Option (List (Node × Node) × Reader)
  | 0, _ => none
  | fuel + 1, r =>
    match comma? first .flowMappingEnd r with
    | none => none
    | some r =>
      if r.sees .flowMappingEnd then some ([], r.skip)
      else
        let entry :=
          if r.sees .key then
            match nodeUnless? false false [.value, .flowEntry, .flowMappingEnd] fuel r.skip with
            | none => none
            | some (key, r) =>
              (value? false [.flowEntry, .flowMappingEnd] fuel r).map fun (value, r) => ((key, value), r)
          else (node? false false fuel r).map fun (key, r) => ((key, Node.omitted), r.grow 1)
        match entry with
        | none => none
        | some (entry, r) =>
          (flowEntries? false fuel r).map fun (entries, r) => (entry :: entries, r)

end

/-- Reads the directives: at most one version, which has to be known, and at most one meaning for
each handle. -/
def directives? (versioned : Bool) : List Token → List (String × List UInt8) →
    Option (List (String × List UInt8) × List Token)
  | .version major minor :: rest, handles =>
    if !versioned && major == 1 && (minor == 1 || minor == 2) then directives? true rest handles
    else none
  | .shorthand handle meaning :: rest, handles =>
    if (handles.lookup handle).isSome then none
    else directives? versioned rest ((handle, meaning) :: handles)
  | rest, handles => some (handles ++ commonHandles, rest)

def isOver : List Token → Bool
  | .documentEnd :: rest => isOver rest
  | .streamEnd :: _ => true
  | _ => false

def document? (ts : List Token) : Option Document :=
  let fuel := 4 * ts.length + 8
  let start (ts : List Token) (handles : List (String × List UInt8)) : Reader :=
    ⟨ts, handles, [], [], 0, 0⟩
  let finish (found : Option (Node × Reader)) : Option Document :=
    match found with
    | some (root, r) => if isOver r.tokens then some ⟨some root, r.anchored, r.size⟩ else none
    | none => none
  match ts with
  | .streamEnd :: _ => some ⟨none, [], 1⟩
  | first :: _ =>
    let directed := match first with
      | .version .. | .shorthand .. | .documentStart => true
      | _ => false
    if directed then
      match directives? false ts [] with
      | some (handles, .documentStart :: rest) =>
        let bare := match rest with
          | .version .. :: _ | .shorthand .. :: _ => true
          | .documentStart :: _ | .documentEnd :: _ | .streamEnd :: _ => true
          | _ => false
        if bare then finish (some (.omitted, (start rest handles).grow 1))
        else finish (node? true false fuel (start rest handles))
      | _ => none
    else finish (node? true false fuel (start ts commonHandles))
  | [] => none

end Reader

def document? (text : String) : Option Document :=
  match tokens? text with
  | some ts => Reader.document? ts
  | none => none

end Yaml
end Leasehold
