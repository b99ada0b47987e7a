import EdgeFields.Text.Blank
import EdgeFields.Text.Digit

/-!
# Integers in texts

Reading an integer: blanks may stand around it, one sign in front of it, and single underscores between its
digits, which may come from any script.  A text with more digits than the limit is refused as too long even when
something else follows them; leading zeros count, signs and underscores do not.
-/

namespace EdgeFields.Text

/-- The largest number of digits that is read or written. -/
def digitLimit : Nat := 4300

/-- Why a text is not read as an integer. -/
inductive IntegerFault where
  | malformed
  | tooLong (digits : Nat)
  deriving DecidableEq, Repr

/-- Blanks that may stand around an integer: all but the four information separators. -/
def isIntegerBlank (c : Char) : Bool :=
  isBlank c && !(28 ≤ c.toNat && c.toNat ≤ 31)

/-- A sign in front, if there is one, and the rest. -/
def splitSign : List Char → Bool × List Char
  | '-' :: cs => (true, cs)
  | '+' :: cs => (false, cs)
  | cs => (false, cs)

/-- Whether underscores stand only one at a time, between other characters. -/
def isGrouped : List Char → Bool
  | [] => false
  | '_' :: _ => false
  | [_] => true
  | _ :: '_' :: cs => isGrouped cs
  | _ :: cs => isGrouped cs

/-- The natural number with these digit values, the most significant first. -/
def ofDigits (ds : List Nat) : Nat :=
  ds.foldl (fun n d => 10 * n + d) 0

/-- The characters that the digits of an integer are written with: digits and the underscores between them. -/
def isDigitOrUnderscore (c : Char) : Bool :=
  c == '_' || (digitValue? c).isSome

/-- Reads an integer. -/
def readInteger (cs : List Char) : Except IntegerFault Int :=
  let (negative, body) := splitSign (cs.dropWhile isIntegerBlank)
  let run := body.takeWhile isDigitOrUnderscore
  let rest := body.dropWhile isDigitOrUnderscore
  let digits := run.filterMap digitValue?
  if !isGrouped run then .error .malformed
  else if digitLimit < digits.length then .error (.tooLong digits.length)
  else if rest.all isIntegerBlank then
    .ok (if negative then -(ofDigits digits : Int) else ofDigits digits)
  else .error .malformed

end EdgeFields.Text
