import Screencast.Text.Quoted

/-!
Why an operation gives no result. Each cause has its own constructor; `message` words the causes
that carry a text.
-/

namespace Screencast

inductive Failure where
  /-- A text that names no number. -/
  | notANumber (text : String)
  /-- A text that names no whole number. -/
  | notAnInteger (text : String)
  /-- A text with more digits than are read as a whole number. -/
  | tooManyDigits (count : Nat)
  /-- NaN has no whole number. -/
  | nanToInteger
  /-- An infinity has no whole number. -/
  | infinityToInteger
  /-- A whole number beyond the range of the machine's numbers. -/
  | integerTooLarge
  /-- A quotient of whole numbers beyond the range of the machine's numbers. -/
  | quotientTooLarge
  /-- A power that leaves the range of the machine's numbers. -/
  | powerOutOfRange
  /-- A name that a table does not hold. -/
  | missingKey (key : String)
  /-- A value of a kind that the operation does not take. -/
  | wrongType
  /-- A value that lacks the member asked for. -/
  | missingMember
  /-- A choice that takes three arguments got fewer or more. -/
  | threeExpected (got : Nat)
  /-- A home directory of a person unknown here. -/
  | unknownHome
  /-- A text that is no JSON document. -/
  | invalidJson
  /-- A place count below nought. -/
  | negativePlaces
  /-- A value that has no fixed-place form. -/
  | noFixedForm (kind : String)
  /-- A path that leads nowhere. -/
  | noSuchFile
  /-- A folder in the place of a file. -/
  | isFolder
  /-- A file in the place of a folder. -/
  | notFolder
  /-- A file that was to be copied onto itself. -/
  | sameFile
  /-- A program that could not be started. -/
  | notStarted
  /-- A program that was stopped because its time was up. -/
  | timedOut
  /-- A program that gave up, with its exit code. -/
  | exited (code : Int)
  /-- A rendering step whose tool failed. -/
  | renderFailed (text stderr : String)
  /-- Settings that break their field's rule: the field and the rule, in order of the fields. -/
  | invalidSettings (details : List (String × String))
deriving DecidableEq, Repr

namespace Failure

/-- The wording of a cause; `none` for the causes that have none. -/
def message : Failure → Option String
  | notANumber text => some ("could not convert string to float: " ++ Text.quoted text)
  | notAnInteger text => some ("invalid literal for int() with base 10: " ++ Text.quoted text)
  | tooManyDigits count =>
    some ("Exceeds the limit (4300 digits) for integer string conversion: value has " ++
      toString count ++ " digits; use sys.set_int_max_str_digits() to increase the limit")
  | nanToInteger => some "cannot convert float NaN to integer"
  | infinityToInteger => some "cannot convert float infinity to integer"
  | integerTooLarge => some "int too large to convert to float"
  | quotientTooLarge => some "integer division result too large for a float"
  | powerOutOfRange => some "(34, 'Numerical result out of range')"
  | missingKey key => some (Text.quoted key)
  | threeExpected got =>
    some (if got < 3 then "not enough values to unpack (expected 3, got " ++ toString got ++ ")"
      else "too many values to unpack (expected 3)")
  | unknownHome => some "Could not determine home directory."
  | negativePlaces => some "Format specifier missing precision"
  | noFixedForm kind => some ("Unknown format code 'f' for object of type '" ++ kind ++ "'")
  | renderFailed text _ => some text
  | wrongType | missingMember | invalidJson | noSuchFile | isFolder | notFolder
  | sameFile | notStarted | timedOut | exited _ | invalidSettings _ => none

end Failure

end Screencast
