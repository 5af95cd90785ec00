/-!
Blanks: the characters that are cut off both ends of a text. The four separators of ASCII are
blanks in text, but not around a number.
-/

namespace Screencast.Text

/-- The separators of files, groups, records and units. -/
def isSeparator (c : Char) : Bool :=
  28 ≤ c.toNat && c.toNat ≤ 31

def isBlank (c : Char) : Bool :=
  let n := c.toNat
  (9 ≤ n && n ≤ 13) || (28 ≤ n && n ≤ 32) || n == 0x85 || n == 0xA0 || n == 0x1680 ||
    (0x2000 ≤ n && n ≤ 0x200A) || n == 0x2028 || n == 0x2029 || n == 0x202F || n == 0x205F ||
    n == 0x3000

def isNumberBlank (c : Char) : Bool :=
  isBlank c && !isSeparator c

def dropRight (out : Char → Bool) (s : List Char) : List Char :=
  s.foldr (fun c rest => if rest.isEmpty && out c then [] else c :: rest) []

def trim (out : Char → Bool) (s : List Char) : List Char :=
  dropRight out (s.dropWhile out)

def strip (s : List Char) : List Char := trim isBlank s

def stripNumber (s : List Char) : List Char := trim isNumberBlank s

end Screencast.Text
