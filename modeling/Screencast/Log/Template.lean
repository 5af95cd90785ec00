import Screencast.Json.Coerce
import Screencast.Json.Display
import Screencast.Number.Significant

/-!
Templates of messages. A per cent sign opens a slot, which says how one of the arguments is shown
there; two of them are one per cent sign. A template whose slots do not suit the arguments has no
text.
-/

namespace Screencast.Log

inductive Size where
  | fixed (size : Nat)
  | given
deriving DecidableEq, Repr

structure Slot where
  /-- The member of the argument that is shown. -/
  key : Option String
  flags : List Char
  width : Option Size
  places : Option Size
  letter : Char
deriving DecidableEq, Repr

inductive Piece where
  | plain (c : Char)
  | slot (slot : Slot)
deriving DecidableEq, Repr

namespace Template

def bracketed : (depth : Nat) → List Char → Option (List Char × List Char)
  | _, [] => none
  | 0, ')' :: rest => some ([], rest)
  | depth + 1, ')' :: rest => (bracketed depth rest).map fun (key, left) => (')' :: key, left)
  | depth, '(' :: rest => (bracketed (depth + 1) rest).map fun (key, left) => ('(' :: key, left)
  | depth, c :: rest => (bracketed depth rest).map fun (key, left) => (c :: key, left)

def isFlag (c : Char) : Bool := "-+ #0".contains c

def isDigit (c : Char) : Bool := '0' ≤ c && c ≤ '9'

def natural (ds : List Char) : Nat :=
  ds.foldl (fun n d => 10 * n + (d.toNat - 48)) 0

def size? : List Char → Option Size × List Char
  | '*' :: rest => (some .given, rest)
  | s =>
    match s.takeWhile isDigit with
    | [] => (none, s)
    | ds => (some (.fixed (natural ds)), s.dropWhile isDigit)

def places? : List Char → Option Size × List Char
  | '.' :: rest =>
    let (size, left) := size? rest
    (some (size.getD (.fixed 0)), left)
  | s => (none, s)

def key? : List Char → Option (Option String × List Char)
  | '(' :: rest => (bracketed 0 rest).map fun (key, left) => (some (String.ofList key), left)
  | s => some (none, s)

/-- One letter that changes nothing. -/
def dropLength : List Char → List Char
  | c :: rest => if "hlL".contains c then rest else c :: rest
  | [] => []

def slot? (s : List Char) : Option (Slot × List Char) := do
  let (key, s) ← key? s
  let flags := s.takeWhile isFlag
  let (width, s) := size? (s.dropWhile isFlag)
  let (places, s) := places? s
  match dropLength s with
  | letter :: rest => pure (⟨key, flags, width, places, letter⟩, rest)
  | [] => none

/-- The pieces of a template; each step takes one character at least. -/
def piecesIn : (steps : Nat) → List Char → Option (List Piece)
  | _, [] => some []
  | 0, _ => none
  | steps + 1, '%' :: '%' :: rest => (piecesIn steps rest).map (.plain '%' :: ·)
  | steps + 1, '%' :: rest => do
    let (slot, left) ← slot? rest
    return .slot slot :: (← piecesIn steps left)
  | steps + 1, c :: rest => (piecesIn steps rest).map (.plain c :: ·)

def pieces (template : String) : Option (List Piece) :=
  let cs := template.toList
  piecesIn cs.length cs

end Template

/-- What is shown in a slot: a number has a sign and signs of its base in front, and can be filled
up with noughts between these and its digits. -/
structure Shown where
  isNumber : Bool
  negative : Bool := false
  base : List Char := []
  digits : List Char

namespace Slot

def has (slot : Slot) (flag : Char) : Bool := slot.flags.contains flag

def upper (s : List Char) : List Char := s.map Char.toUpper

def integer? : Json → Option Int
  | .string _ => none
  | value => value.toInteger.toOption

def exactInteger? : Json → Option Int
  | .bool b => some (if b then 1 else 0)
  | .int n => some n
  | _ => none

def float? : Json → Option Float
  | .string _ => none
  | value => value.toFloat.toOption

def ofInteger (places : Nat) (base : List Char) (radix : Nat) (n : Int) : Shown :=
  let ds := Nat.toDigits radix n.natAbs
  ⟨true, n < 0, base, List.replicate (places - ds.length) '0' ++ ds⟩

def ofFloat (slot : Slot) (places : Nat) (letter : Char) (x : Float) : Shown :=
  let point := slot.has '#'
  match Binary.exact x with
  | .nan => ⟨true, false, [], "nan".toList⟩
  | .infinite negative => ⟨true, negative, [], "inf".toList⟩
  | .ratio negative num den =>
    let digits := match letter with
      | 'e' => Significant.scientific point places num den
      | 'g' => Significant.general point places num den
      | _ =>
        Significant.decimalText point ⟨false, nearestEven (num * tenTo places) den, places⟩
    ⟨true, negative, [], digits⟩

def plainText (s : String) : List Char :=
  s.toList.flatMap fun c =>
    if c.toNat < 0x80 then [c]
    else if c.toNat < 0x100 then '\\' :: 'x' :: Text.hexDigits 2 c.toNat
    else if c.toNat < 0x10000 then '\\' :: 'u' :: Text.hexDigits 4 c.toNat
    else '\\' :: 'U' :: Text.hexDigits 8 c.toNat

def ofText (places : Option Nat) (s : List Char) : Shown :=
  ⟨false, false, [], match places with
    | some n => s.take n
    | none => s⟩

def character? : Json → Option Char
  | .string s =>
    match s.toList with
    | [c] => some c
    | _ => none
  | value => do
    let n ← exactInteger? value
    if 0 ≤ n ∧ n < 0x110000 then some (Char.ofNat n.toNat) else none

def shown? (slot : Slot) (places : Option Nat) (value : Json) : Option Shown :=
  let base (c : Char) : List Char := if slot.has '#' then ['0', c] else []
  let float (letter : Char) := (float? value).map (slot.ofFloat (places.getD 6) letter)
  let raised (shown : Shown) : Shown := { shown with digits := upper shown.digits }
  match slot.letter with
  | 's' => some (ofText places value.shown.toList)
  | 'r' => some (ofText places value.quoted.toList)
  | 'a' => some (ofText places (plainText value.quoted))
  | 'd' | 'i' | 'u' => (integer? value).map (ofInteger (places.getD 0) [] 10)
  | 'o' => (exactInteger? value).map (ofInteger (places.getD 0) (base 'o') 8)
  | 'x' => (exactInteger? value).map (ofInteger (places.getD 0) (base 'x') 16)
  | 'X' => (exactInteger? value).map fun n => raised (ofInteger (places.getD 0) (base 'X') 16 n)
  | 'f' => float 'f'
  | 'F' => (float 'f').map raised
  | 'e' => float 'e'
  | 'E' => (float 'e').map raised
  | 'g' => float 'g'
  | 'G' => (float 'g').map raised
  | 'c' => (character? value).map fun c => ofText none [c]
  | _ => none

def front (slot : Slot) (shown : Shown) : List Char :=
  let sign :=
    if shown.negative then ['-']
    else if !shown.isNumber then []
    else if slot.has '+' then ['+']
    else if slot.has ' ' then [' ']
    else []
  sign ++ shown.base

/-- Fills up to the width: on the right, with noughts behind the sign, or on the left. -/
def fill (slot : Slot) (left : Bool) (width : Nat) (shown : Shown) : List Char :=
  let front := slot.front shown
  let missing := width - (front.length + shown.digits.length)
  if left then front ++ shown.digits ++ List.replicate missing ' '
  else if slot.has '0' && shown.isNumber then
    front ++ List.replicate missing '0' ++ shown.digits
  else List.replicate missing ' ' ++ front ++ shown.digits

end Slot

namespace Template

/-- The arguments still to be shown, and the members of a lone object among them. -/
structure Arguments where
  queue : List Json
  members : Option (Table String Json)

def Arguments.ofList : List Json → Arguments
  | [.object (member :: members)] => ⟨[.object (member :: members)], some (member :: members)⟩
  | values => ⟨values, none⟩

def take? : List Json → Option (Json × List Json)
  | [] => none
  | value :: queue => some (value, queue)

/-- Sizes of this magnitude and greater are refused. -/
def sizeLimit : Nat := twoTo 31

def sizeOf? (size : Option Size) (queue : List Json) : Option (Option Int × List Json) :=
  match size with
  | none => some (none, queue)
  | some (.fixed n) => if n < sizeLimit then some (some n, queue) else none
  | some .given => do
    let (value, queue) ← take? queue
    let n ← Slot.exactInteger? value
    if n.natAbs < sizeLimit then some (some n, queue) else none

def slotText? (slot : Slot) (arguments : Arguments) : Option (List Char × Arguments) := do
  let queue ← match slot.key with
    | none => pure arguments.queue
    | some key => do
      let value ← Table.find? key (← arguments.members)
      pure [value]
  let (width, queue) ← sizeOf? slot.width queue
  let (places, queue) ← sizeOf? slot.places queue
  let (value, queue) ← take? queue
  let shown ← slot.shown? (places.map Int.toNat) value
  let width := width.getD 0
  let left := slot.has '-' || width < 0
  pure (slot.fill left width.natAbs shown, { arguments with queue })

/-- The text of the pieces, one after another; arguments left over must be an object's members. -/
def textOf? : List Piece → Arguments → Option (List Char)
  | [], arguments => if arguments.queue.isEmpty || arguments.members.isSome then some [] else none
  | .plain c :: rest, arguments => (textOf? rest arguments).map (c :: ·)
  | .slot slot :: rest, arguments => do
    let (text, arguments) ← slotText? slot arguments
    return text ++ (← textOf? rest arguments)

/-- The message of a template and its arguments. Without arguments it is the template itself. -/
def message? (template : String) (values : List Json) : Option String :=
  if values.isEmpty then some template
  else do
    let text ← textOf? (← pieces template) (Arguments.ofList values)
    pure (String.ofList text)

end Template

end Screencast.Log
