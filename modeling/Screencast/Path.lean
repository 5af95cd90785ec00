import Screencast.Failure
import Screencast.Table

/-!
Paths. A path keeps the names between its slashes, without the empty ones and the single dots; two
slashes in front, and only two, are told apart from one. `resolve` also takes out the double dots.
-/

namespace Screencast

inductive Anchor where
  | here
  | root
  | doubleRoot
deriving DecidableEq, Repr

structure Path where
  anchor : Anchor
  names : List String
deriving DecidableEq, Repr

namespace Path

def splitSlashes : List Char → List (List Char)
  | [] => [[]]
  | '/' :: rest => [] :: splitSlashes rest
  | c :: rest =>
    match splitSlashes rest with
    | [] => [[c]]
    | first :: others => (c :: first) :: others

def anchorOf : List Char → Anchor
  | '/' :: '/' :: '/' :: _ => .root
  | '/' :: '/' :: _ => .doubleRoot
  | '/' :: _ => .root
  | _ => .here

def isName (name : List Char) : Bool :=
  name ≠ [] && name ≠ ['.']

def ofString (text : String) : Path :=
  let cs := text.toList
  ⟨anchorOf cs, ((splitSlashes cs).filter isName).map String.ofList⟩

def anchorText : Anchor → String
  | .here => ""
  | .root => "/"
  | .doubleRoot => "//"

protected def toString (path : Path) : String :=
  match path.anchor, path.names with
  | .here, [] => "."
  | anchor, names => anchorText anchor ++ String.intercalate "/" names

instance : ToString Path := ⟨Path.toString⟩

def isAbsolute (path : Path) : Bool :=
  path.anchor ≠ .here

def name (path : Path) : String :=
  path.names.getLast?.getD ""

/-- The second path, seen from the first unless it starts at a root itself. -/
def join (base path : Path) : Path :=
  if path.isAbsolute then path else ⟨base.anchor, base.names ++ path.names⟩

def reduce (names : List String) : List String :=
  names.foldl (fun above name => if name = ".." then above.dropLast else above ++ [name]) []

/-- The path from the root, without double dots. A relative path starts at the working folder. -/
def resolve (folder path : Path) : Path :=
  ⟨.root, reduce (folder.join path).names⟩

structure Homes where
  own : Path
  others : Table String Path

def Homes.find? (homes : Homes) (name : String) : Option Path :=
  match name.toList with
  | ['~'] => some homes.own
  | '~' :: user => homes.others.find? (String.ofList user)
  | _ => none

def expandHome (homes : Homes) (path : Path) : Except Failure Path :=
  match path.names with
  | [] => .ok path
  | first :: rest =>
    match homes.find? first with
    | some home => .ok ⟨home.anchor, home.names ++ rest⟩
    | none => .error .unknownHome

/-- Where a media file lies: a path from a home or from the root stands for itself, any other is
seen from the base, and that from the working folder. -/
def ofMediaFrom (folder : Path) (homes : Homes) (base : Path) (file : String) :
    Except Failure Path :=
  if file.startsWith "~" then (ofString file).expandHome homes
  else
    let path := ofString file
    .ok (if path.isAbsolute then path else resolve folder (base.join path))

def ofMedia (homes : Homes) (base : Path) (file : String) : Except Failure Path :=
  ofMediaFrom ⟨.root, []⟩ homes base file

end Path

end Screencast
