/-!
# Blank characters

The blank characters of Unicode text and the trimming of texts.  `trim` takes away exactly the blanks at both
ends.
-/

namespace EdgeFields.Text

/-- Blank characters: the separators of Unicode and the control characters that move the writing position. -/
def isBlank (c : Char) : Bool :=
  let n := c.toNat
  (9 ≤ n && n ≤ 13) || (28 ≤ n && n ≤ 32) || n == 0x85 || n == 0xA0 || n == 0x1680 ||
    (0x2000 ≤ n && n ≤ 0x200A) || n == 0x2028 || n == 0x2029 || n == 0x202F || n == 0x205F || n == 0x3000

/-- The control characters of ASCII. -/
def isControl (c : Char) : Bool :=
  c.toNat ≤ 0x1F || c.toNat == 0x7F

/-- Drops the characters of a class from both ends. -/
def trimWith (p : Char → Bool) (cs : List Char) : List Char :=
  ((cs.dropWhile p).reverse.dropWhile p).reverse

/-- Drops the blanks from both ends. -/
def trimChars (cs : List Char) : List Char :=
  trimWith isBlank cs

/-- A text without the blanks at its ends. -/
def trim (s : String) : String :=
  String.ofList (trimChars s.toList)

end EdgeFields.Text
