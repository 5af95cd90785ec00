import Screencast.Json.Basic
import Screencast.Number.Shortest

/-!
The writers of JSON text: `compact` on one line, `indented` with one member or item a line and two
blanks for each level. Characters beyond ASCII are written by their UTF-16 units.
-/

namespace Screencast.Json

def unitText (unit : Nat) : List Char :=
  let ds := Nat.toDigits 16 unit
  '\\' :: 'u' :: List.replicate (4 - ds.length) '0' ++ ds

def charText (c : Char) : List Char :=
  if c = '"' then ['\\', '"']
  else if c = '\\' then ['\\', '\\']
  else if c = '\n' then ['\\', 'n']
  else if c = '\r' then ['\\', 'r']
  else if c = '\t' then ['\\', 't']
  else if c = '\x08' then ['\\', 'b']
  else if c = '\x0c' then ['\\', 'f']
  else if c.val < 0x20 ∨ (0x7F ≤ c.val ∧ c.val < 0x10000) then unitText c.toNat
  else if c.val < 0x7F then [c]
  else
    let n := c.toNat - 0x10000
    unitText (0xD800 + n / 0x400) ++ unitText (0xDC00 + n % 0x400)

def stringText (s : String) : List Char :=
  '"' :: s.toList.flatMap charText ++ ['"']

def floatChars (x : Float) : List Char :=
  match Binary.exact x with
  | .nan => "NaN".toList
  | .infinite negative => if negative then "-Infinity".toList else "Infinity".toList
  | .ratio .. => Shortest.chars x

def intChars (n : Int) : List Char :=
  if n < 0 then '-' :: Nat.toDigits 10 n.natAbs else Nat.toDigits 10 n.natAbs

mutual

def compactChars : Json → List Char
  | null => "null".toList
  | bool b => if b then "true".toList else "false".toList
  | int n => intChars n
  | float x => floatChars x
  | string s => stringText s
  | array items => '[' :: compactItems items ++ [']']
  | object members => '\x7b' :: compactMembers members ++ ['\x7d']

def compactItems : List Json → List Char
  | [] => []
  | [x] => x.compactChars
  | x :: rest => x.compactChars ++ ',' :: compactItems rest

def compactMembers : List (String × Json) → List Char
  | [] => []
  | [(key, x)] => stringText key ++ ':' :: x.compactChars
  | (key, x) :: rest => stringText key ++ ':' :: x.compactChars ++ ',' :: compactMembers rest

end

def newline (level : Nat) : List Char :=
  '\n' :: List.replicate (2 * level) ' '

mutual

def indentedChars (level : Nat) : Json → List Char
  | array [] => ['[', ']']
  | array items =>
    '[' :: newline (level + 1) ++ indentedItems (level + 1) items ++ newline level ++ [']']
  | object [] => ['\x7b', '\x7d']
  | object members =>
    '\x7b' :: newline (level + 1) ++ indentedMembers (level + 1) members ++
      newline level ++ ['\x7d']
  | other => other.compactChars

def indentedItems (level : Nat) : List Json → List Char
  | [] => []
  | [x] => x.indentedChars level
  | x :: rest => x.indentedChars level ++ ',' :: newline level ++ indentedItems level rest

def indentedMembers (level : Nat) : List (String × Json) → List Char
  | [] => []
  | [(key, x)] => stringText key ++ ':' :: ' ' :: x.indentedChars level
  | (key, x) :: rest =>
    stringText key ++ ':' :: ' ' :: x.indentedChars level ++ ',' :: newline level ++
      indentedMembers level rest

end

def compact (value : Json) : String := String.ofList value.compactChars

def indented (value : Json) : String := String.ofList (value.indentedChars 0)

end Screencast.Json
