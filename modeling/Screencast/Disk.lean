import Screencast.Path

/-!
The disk: what lies where, by the names on the way down from the root. A path is walked one name at
a time, and every name but the last must be that of a folder.
-/

namespace Screencast

inductive Node where
  | folder
  | file (text : String)
deriving DecidableEq, Repr

abbrev Place := List String

abbrev Disk := Table Place Node

namespace Disk

def node? (disk : Disk) : Place → Option Node
  | [] => some .folder
  | place => Table.find? place disk

def step (disk : Disk) (here : Place) (name : String) : Except Failure Place :=
  match disk.node? here with
  | none => .error .noSuchFile
  | some (.file _) => .error .notFolder
  | some .folder => .ok (if name = ".." then here.dropLast else here ++ [name])

/-- The place that a path leads to, whether or not anything lies there. -/
def walk (disk : Disk) (path : Path) : Except Failure Place :=
  path.names.foldlM disk.step []

def has (disk : Disk) (path : Path) : Bool :=
  match disk.walk path with
  | .ok place => (disk.node? place).isSome
  | .error _ => false

def read (disk : Disk) (path : Path) : Except Failure String := do
  match disk.node? (← disk.walk path) with
  | none => .error .noSuchFile
  | some .folder => .error .isFolder
  | some (.file text) => .ok text

/-- Puts a text into a file, which is made if nothing lies there. -/
def write (disk : Disk) (path : Path) (text : String) : Except Failure Disk := do
  let place ← disk.walk path
  match disk.node? place with
  | some .folder => .error .isFolder
  | _ => .ok (Table.put place (.file text) disk)

def same (disk : Disk) (path other : Path) : Bool :=
  match disk.walk path, disk.walk other with
  | .ok here, .ok there => here == there && (disk.node? here).isSome
  | _, _ => false

def copy (disk : Disk) (source target : Path) : Except Failure Disk :=
  if disk.same source target then .error .sameFile
  else do disk.write target (← disk.read source)

def remove (disk : Disk) (path : Path) : Disk :=
  match disk.walk path with
  | .ok place => Table.erase place disk
  | .error _ => disk

def addFolders (disk : Disk) (place : Place) : Disk :=
  (List.range place.length).foldl
    (fun disk depth =>
      let above := place.take (depth + 1)
      if (disk.node? above).isSome then disk else Table.put above .folder disk)
    disk

def filesBelow (disk : Disk) (place : Place) : List (Place × String) :=
  disk.filterMap fun (lies, node) =>
    match node with
    | .file text =>
      if place.isPrefixOf lies then some (lies.drop place.length, text) else none
    | .folder => none

end Disk

end Screencast
