import Screencast.Number.Binary
import Screencast.Text.Blank
import Screencast.Text.Digit

/-!
Numbers read from text. Blanks around the number do not count, digits of every script do, and a
single underscore may stand between two digits.
-/

namespace Screencast.NumberText

def sign : List Char → Bool × List Char
  | '-' :: rest => (true, rest)
  | '+' :: rest => (false, rest)
  | s => (false, s)

def startsWithDigit (s : List Char) : Bool :=
  s.head?.any fun c => (Text.digitValue? c).isSome

/-- The digits from the front on. Right after a digit an underscore is passed over if a digit
follows it. -/
def digitRun (afterDigit : Bool) : List Char → List Nat × List Char
  | [] => ([], [])
  | c :: rest =>
    match Text.digitValue? c with
    | some d =>
      let (ds, left) := digitRun true rest
      (d :: ds, left)
    | none =>
      if afterDigit && c == '_' && startsWithDigit rest then digitRun false rest
      else ([], c :: rest)

def digits (s : List Char) : List Nat × List Char :=
  digitRun false s

def ofDigits (ds : List Nat) : Nat :=
  ds.foldl (fun n d => 10 * n + d) 0

def natural? (s : List Char) : Option (List Nat) :=
  match digits s with
  | ([], _) => none
  | (ds, []) => some ds
  | _ => none

def exponent? : List Char → Option Int
  | [] => some 0
  | c :: rest =>
    if c = 'e' ∨ c = 'E' then
      let (negative, s) := sign rest
      (natural? s).map fun ds => Exact.signed negative (ofDigits ds)
    else none

/-- Digits with a point among them or none, at least one digit in all, and a power of ten. -/
def unsigned? (s : List Char) : Option (Nat × Int) :=
  let (before, rest) := digits s
  let (after, rest) := match rest with
    | '.' :: more => digits more
    | _ => ([], rest)
  if before.isEmpty && after.isEmpty then none
  else (exponent? rest).map fun power => (ofDigits (before ++ after), power - after.length)

def word? (s : List Char) : Option Float :=
  match String.ofList (s.map Char.toLower) with
  | "inf" | "infinity" => some (Binary.infinity false)
  | "nan" => some Binary.nan
  | _ => none

def toFloat? (s : List Char) : Option Float :=
  let (negative, s) := sign (Text.stripNumber s)
  match word? s with
  | some x => some (if x == x then Binary.applySign negative x else x)
  | none => (unsigned? s).map fun (ds, power) => Binary.ofDecimal negative ds power

/-- The whole number written; more than 4300 digits are refused. -/
def toInteger (text : String) : Except Failure Int :=
  let (negative, s) := sign (Text.stripNumber text.toList)
  match natural? s with
  | none => .error (.notAnInteger text)
  | some ds =>
    if 4300 < ds.length then .error (.tooManyDigits ds.length)
    else .ok (Exact.signed negative (ofDigits ds))

def toFloat (text : String) : Except Failure Float :=
  match toFloat? text.toList with
  | some x => .ok x
  | none => .error (.notANumber text)

end Screencast.NumberText
