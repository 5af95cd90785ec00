import Screencast.Json.Basic
import Screencast.Number.Reader

/-!
The reader of JSON text. Besides the standard it takes `NaN`, `Infinity` and `-Infinity` as numbers;
half of a surrogate pair alone becomes the replacement character.
-/

namespace Screencast.Json.Reader

def isBlank (c : Char) : Bool :=
  c == ' ' || c == '\t' || c == '\n' || c == '\r'

def skip (s : List Char) : List Char :=
  s.dropWhile isBlank

def hexValue? (c : Char) : Option Nat :=
  if '0' ≤ c ∧ c ≤ '9' then some (c.toNat - 48)
  else if 'a' ≤ c ∧ c ≤ 'f' then some (c.toNat - 87)
  else if 'A' ≤ c ∧ c ≤ 'F' then some (c.toNat - 55)
  else none

def unit? (a b c d : Char) : Option Nat := do
  let a ← hexValue? a
  let b ← hexValue? b
  let c ← hexValue? c
  let d ← hexValue? d
  pure (((a * 16 + b) * 16 + c) * 16 + d)

def isHigh (unit : Nat) : Bool := 0xD800 ≤ unit && unit < 0xDC00
def isLow (unit : Nat) : Bool := 0xDC00 ≤ unit && unit < 0xE000

def unitChar (unit : Nat) : Char :=
  if isHigh unit || isLow unit then Char.ofNat 0xFFFD else Char.ofNat unit

def pairChar (high low : Nat) : Char :=
  Char.ofNat (0x10000 + (high - 0xD800) * 0x400 + (low - 0xDC00))

def escape? : Char → Option Char
  | '"' => some '"'
  | '\\' => some '\\'
  | '/' => some '/'
  | 'b' => some '\x08'
  | 'f' => some '\x0c'
  | 'n' => some '\n'
  | 'r' => some '\r'
  | 't' => some '\t'
  | _ => none

def cons (c : Char) (read : List Char × List Char) : List Char × List Char :=
  (c :: read.1, read.2)

def body : List Char → Except Failure (List Char × List Char)
  | [] => .error .invalidJson
  | '"' :: rest => .ok ([], rest)
  | '\\' :: 'u' :: a :: b :: c :: d :: rest =>
    match unit? a b c d with
    | none => .error .invalidJson
    | some high =>
      match rest with
      | '\\' :: 'u' :: e :: f :: g :: h :: more =>
        match unit? e f g h with
        | none => .error .invalidJson
        | some low =>
          if isHigh high && isLow low then (body more).map (cons (pairChar high low))
          else (body ('\\' :: 'u' :: e :: f :: g :: h :: more)).map (cons (unitChar high))
      | other => (body other).map (cons (unitChar high))
  | '\\' :: c :: rest =>
    match escape? c with
    | none => .error .invalidJson
    | some plain => (body rest).map (cons plain)
  | c :: rest =>
    if c.val < 0x20 then .error .invalidJson
    else (body rest).map (cons c)
termination_by s => s.length

def isDigit (c : Char) : Bool := '0' ≤ c && c ≤ '9'

def integerPart : List Char → Option (List Char × List Char)
  | '0' :: rest => some (['0'], rest)
  | s =>
    match s.takeWhile isDigit with
    | [] => none
    | ds => some (ds, s.dropWhile isDigit)

def fractionPart : List Char → List Char × List Char
  | '.' :: rest =>
    match rest.takeWhile isDigit with
    | [] => ([], '.' :: rest)
    | ds => ('.' :: ds, rest.dropWhile isDigit)
  | s => ([], s)

def powerPart : List Char → List Char × List Char
  | c :: rest =>
    if c = 'e' ∨ c = 'E' then
      let (mark, tail) := match rest with
        | '+' :: more => (['+'], more)
        | '-' :: more => (['-'], more)
        | _ => ([], rest)
      match tail.takeWhile isDigit with
      | [] => ([], c :: rest)
      | ds => (c :: mark ++ ds, tail.dropWhile isDigit)
    else ([], c :: rest)
  | [] => ([], [])

def number (s : List Char) : Except Failure (Json × List Char) :=
  let (mark, s) := match s with
    | '-' :: rest => (['-'], rest)
    | _ => ([], s)
  match integerPart s with
  | none => .error .invalidJson
  | some (whole, s) =>
    let (fraction, s) := fractionPart s
    let (power, s) := powerPart s
    let text := mark ++ whole ++ fraction ++ power
    if fraction.isEmpty && power.isEmpty then do
      let n ← NumberText.toInteger (String.ofList text)
      pure (.int n, s)
    else
      match NumberText.toFloat? text with
      | some x => .ok (.float x, s)
      | none => .error .invalidJson

mutual

/-- One value. `depth` bounds the steps into it. -/
def value : (depth : Nat) → List Char → Except Failure (Json × List Char)
  | 0, _ => .error .invalidJson
  | depth + 1, s =>
    match s with
    | '"' :: rest => do
      let (cs, left) ← body rest
      pure (.string (String.ofList cs), left)
    | '[' :: rest =>
      match skip rest with
      | ']' :: left => .ok (.array [], left)
      | inner => do
        let (xs, left) ← items depth inner
        pure (.array xs, left)
    | '{' :: rest =>
      match skip rest with
      | '}' :: left => .ok (.object [], left)
      | inner => do
        let (members, left) ← members depth inner
        pure (ofMembers members, left)
    | 'n' :: 'u' :: 'l' :: 'l' :: left => .ok (.null, left)
    | 't' :: 'r' :: 'u' :: 'e' :: left => .ok (.bool true, left)
    | 'f' :: 'a' :: 'l' :: 's' :: 'e' :: left => .ok (.bool false, left)
    | 'N' :: 'a' :: 'N' :: left => .ok (.float Binary.nan, left)
    | 'I' :: 'n' :: 'f' :: 'i' :: 'n' :: 'i' :: 't' :: 'y' :: left =>
      .ok (.float (Binary.infinity false), left)
    | '-' :: 'I' :: 'n' :: 'f' :: 'i' :: 'n' :: 'i' :: 't' :: 'y' :: left =>
      .ok (.float (Binary.infinity true), left)
    | other => number other

def items : (depth : Nat) → List Char → Except Failure (List Json × List Char)
  | 0, _ => .error .invalidJson
  | depth + 1, s => do
    let (first, left) ← value depth s
    match skip left with
    | ',' :: more =>
      let (others, left) ← items depth (skip more)
      pure (first :: others, left)
    | ']' :: left => pure ([first], left)
    | _ => .error .invalidJson

def members : (depth : Nat) → List Char → Except Failure (List (String × Json) × List Char)
  | 0, _ => .error .invalidJson
  | depth + 1, '"' :: s => do
    let (key, left) ← body s
    match skip left with
    | ':' :: left =>
      let (first, left) ← value depth (skip left)
      match skip left with
      | ',' :: more =>
        let (others, left) ← members depth (skip more)
        pure ((String.ofList key, first) :: others, left)
      | '}' :: left => pure ([(String.ofList key, first)], left)
      | _ => .error .invalidJson
    | _ => .error .invalidJson
  | _, _ => .error .invalidJson

end

def read (s : List Char) : Except Failure Json := do
  let (result, left) ← value (2 * s.length + 2) (skip s)
  match skip left with
  | [] => pure result
  | _ => .error .invalidJson

end Screencast.Json.Reader

namespace Screencast

def Json.parse (text : String) : Except Failure Json :=
  Json.Reader.read text.toList

end Screencast
