import Screencast.Table
import Screencast.Text.Blank

/-!
Files of variables: one `name=value` a line, perhaps after the word `export`. Names and values may
stand between quotes, a value in quotes over several lines; a line that is none of this is passed
over. In a value, a name in braces after a dollar sign stands for that variable's value.
-/

namespace Screencast.EnvFile

abbrev Binding := List Char × Option (List Char)

def isLineBlank (c : Char) : Bool := Text.isBlank c && c != '\n'

def skipLineBlanks (s : List Char) : List Char := s.dropWhile isLineBlank

def restOfLine (s : List Char) : List Char := (s.dropWhile (· != '\n')).drop 1

/-- The text up to the quote that closes it, and what follows. A quote behind a backslash closes
only if no other does. -/
def closing (quote : Char) (escaped : Bool) : List Char → Option (List Char × List Char)
  | [] => none
  | c :: rest =>
    if c = quote then
      match escaped, closing quote false rest with
      | true, some (text, left) => some (c :: text, left)
      | _, _ => some ([], rest)
    else (closing quote (c == '\\') rest).map fun (text, left) => (c :: text, left)

def doubleEscape? : Char → Option Char
  | '\\' => some '\\'
  | '\'' => some '\''
  | '"' => some '"'
  | 'a' => some '\x07'
  | 'b' => some '\x08'
  | 'f' => some '\x0c'
  | 'n' => some '\n'
  | 'r' => some '\r'
  | 't' => some '\t'
  | 'v' => some '\x0b'
  | _ => none

def singleEscape? : Char → Option Char
  | '\\' => some '\\'
  | '\'' => some '\''
  | _ => none

def unescape (escape? : Char → Option Char) : List Char → List Char
  | '\\' :: c :: rest =>
    match escape? c with
    | some plain => plain :: unescape escape? rest
    | none => '\\' :: unescape escape? (c :: rest)
  | c :: rest => c :: unescape escape? rest
  | [] => []
termination_by s => s.length

def beforeComment (afterBlank : Bool) : List Char → List Char
  | [] => []
  | c :: rest =>
    if afterBlank && c == '#' then [] else c :: beforeComment (Text.isBlank c) rest

def skipExport (s : List Char) : List Char :=
  match s with
  | 'e' :: 'x' :: 'p' :: 'o' :: 'r' :: 't' :: c :: rest =>
    if isLineBlank c then skipLineBlanks rest else s
  | _ => s

/-- The name at the front; none in front of a comment. What cannot be read is left in the error. -/
def name (s : List Char) : Except (List Char) (Option (List Char) × List Char) :=
  match s with
  | '#' :: _ => .ok (none, s)
  | '\'' :: rest =>
    match rest.takeWhile (· != '\''), rest.dropWhile (· != '\'') with
    | c :: cs, _ :: left => .ok (some (c :: cs), left)
    | _, _ => .error s
  | _ =>
    let isOuter (c : Char) : Bool := c == '=' || c == '#' || Text.isBlank c
    match s.takeWhile (!isOuter ·), s.dropWhile (!isOuter ·) with
    | [], _ => .error s
    | cs, left => .ok (some cs, left)

def value (s : List Char) : Except (List Char) (List Char × List Char) :=
  let quotedBy (quote : Char) (escape? : Char → Option Char) (rest : List Char) :=
    match closing quote false rest with
    | some (text, left) => .ok (unescape escape? text, left)
    | none => .error s
  match s with
  | '\'' :: rest => quotedBy '\'' singleEscape? rest
  | '"' :: rest => quotedBy '"' doubleEscape? rest
  | _ =>
    .ok (Text.dropRight Text.isBlank (beforeComment false (s.takeWhile (· != '\n'))),
      s.dropWhile (· != '\n'))

def lineEnd (s : List Char) : Except (List Char) (List Char) :=
  let s := skipLineBlanks s
  let s := if s.head? = some '#' then s.dropWhile (· != '\n') else s
  match s with
  | [] => .ok []
  | '\n' :: rest => .ok rest
  | _ => .error s

def binding (s : List Char) : Except (List Char) (Option Binding × List Char) := do
  let (key, s) ← name (skipExport s)
  let (text, s) ← match skipLineBlanks s with
    | '=' :: rest => do
      let (text, left) ← value (skipLineBlanks rest)
      pure (some text, left)
    | s => pure (none, s)
  let s ← lineEnd s
  pure (key.map fun key => (key, text), s)

/-- The bindings, line after line; each line takes one character at least. -/
def bindingsIn : (lines : Nat) → List Char → List Binding
  | 0, _ => []
  | lines + 1, s =>
    match s.dropWhile Text.isBlank with
    | [] => []
    | s =>
      match binding s with
      | .ok (bound, left) => bound.toList ++ bindingsIn lines left
      | .error left => bindingsIn lines (restOfLine left)

def unifyLines : List Char → List Char
  | '\r' :: '\n' :: rest => '\n' :: unifyLines rest
  | '\r' :: rest => '\n' :: unifyLines rest
  | c :: rest => c :: unifyLines rest
  | [] => []

/-- The values of variables; one that is named without a value has none. -/
abbrev Variables := Table String (Option String)

/-- A reference behind `$` and the opening brace: a name, what stands for it if there is no such
variable, and the rest of the text. -/
def reference? (s : List Char) : Option (List Char × List Char × List Char) :=
  let inName (c : Char) : Bool := c != '\x7d' && c != ':'
  let name := s.takeWhile inName
  match s.dropWhile inName with
  | '\x7d' :: rest => some (name, [], rest)
  | ':' :: '-' :: rest =>
    match rest.dropWhile (· != '\x7d') with
    | _ :: left => some (name, rest.takeWhile (· != '\x7d'), left)
    | [] => none
  | _ => none

def expandIn (known : Variables) : (steps : Nat) → List Char → List Char
  | 0, s => s
  | _, [] => []
  | steps + 1, '$' :: '\x7b' :: rest =>
    match reference? rest with
    | some (name, other, left) =>
      let text := match known.find? (String.ofList name) with
        | some found => (found.getD "").toList
        | none => other
      text ++ expandIn known steps left
    | none => '$' :: '\x7b' :: expandIn known steps rest
  | steps + 1, c :: rest => c :: expandIn known steps rest

def expand (known : Variables) (text : List Char) : String :=
  String.ofList (expandIn known text.length text)

/-- The variables of a file. A reference is to a line above or to the environment. -/
def read (environment : Table String String) (text : String) : Variables :=
  let cs := unifyLines text.toList
  let outer : Variables := environment.map fun (name, value) => (name, some value)
  (bindingsIn cs.length cs).foldl
    (fun read (name, text) =>
      let known := read.foldl (fun all (name, value) => Table.put name value all) outer
      Table.put (String.ofList name) (text.map (expand known)) read) []

end Screencast.EnvFile
