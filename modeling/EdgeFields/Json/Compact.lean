import EdgeFields.Fault
import EdgeFields.Text.Integer

/-!
# Compact JSON

Values as JSON on one line: no blanks between the parts, and every character outside printable ASCII escaped, those
beyond sixteen bits as a pair of surrogates.  So a rendered value holds no line break.  `render` has characters for
every value; `dumps` first refuses a value that has no text, for the first thing in it that is none of JSON or for the
first integer with more digits than the limit.
-/

namespace EdgeFields.Json

/-- The escape of one unit of sixteen bits. -/
def unitEscape (n : Nat) : List Char :=
  '\\' :: 'u' :: Text.hex 4 n

/-- A character inside a string. -/
def escapeChar (c : Char) : List Char :=
  if c = '"' ∨ c = '\\' then ['\\', c]
  else if c = '\n' then ['\\', 'n']
  else if c = '\r' then ['\\', 'r']
  else if c = '\t' then ['\\', 't']
  else if c = '\x0c' then ['\\', 'f']
  else if c = '\x08' then ['\\', 'b']
  else if 0x20 ≤ c.toNat ∧ c.toNat < 0x7F then [c]
  else if c.toNat < 0x10000 then unitEscape c.toNat
  else
    let n := c.toNat - 0x10000
    unitEscape (0xD800 + n / 0x400) ++ unitEscape (0xDC00 + n % 0x400)

/-- A string with its quotes. -/
def renderString (s : String) : List Char :=
  '"' :: s.toList.flatMap escapeChar ++ ['"']

/-- A floating-point number. -/
def renderFloat : Binary64 → List Char
  | .nan _ => "NaN".toList
  | .infinite negative => (if negative then ['-'] else []) ++ "Infinity".toList
  | x => x.toText.toList

/-- The characters of a key in an object, of an integer of any size; things and rows of keys have none. -/
def keyText? : Key → Option String
  | .null => some "null"
  | .bool b => some (if b then "true" else "false")
  | .int n => some (toString n)
  | .float x => some (String.ofList (renderFloat x))
  | .string s => some s
  | .tuple _ | .thing _ _ | .constant _ _ _ => none

/-- A key with its quotes. -/
def renderKey (k : Key) : List Char :=
  renderString ((keyText? k).getD "")

mutual

/-- The characters of a value, of integers of any size.  Things have no rendering. -/
def render : Value → List Char
  | .null => "null".toList
  | .bool b => (if b then "true" else "false").toList
  | .int n => (toString n).toList
  | .float x => renderFloat x
  | .string s => renderString s
  | .list xs | .tuple xs => '[' :: renderItems xs ++ [']']
  | .object ms => '{' :: renderMembers ms ++ ['}']
  | .thing _ _ | .bundle _ | .constant _ _ _ => []

/-- The items of a list, separated by commas. -/
def renderItems : List Value → List Char
  | [] => []
  | [x] => render x
  | x :: xs => render x ++ ',' :: renderItems xs

/-- The members of an object, separated by commas. -/
def renderMembers : List (Key × Value) → List Char
  | [] => []
  | [(k, x)] => renderKey k ++ ':' :: render x
  | (k, x) :: xs => renderKey k ++ ':' :: render x ++ ',' :: renderMembers xs

end

/-- Refuses an integer with more digits than the limit. -/
def checkInteger (n : Int) : Except Fault Unit :=
  if (Nat.toDigits 10 n.natAbs).length ≤ Text.digitLimit then .ok () else .error .unwritableInteger

/-- Refuses a key that has no text. -/
def checkKey : Key → Except Fault Unit
  | .int n => checkInteger n
  | k => if (keyText? k).isSome then .ok () else .error .wrongType

mutual

/-- Refuses a value that has no text, for the first part of it that has none, in the order of the text. -/
def check : Value → Except Fault Unit
  | .int n => checkInteger n
  | .list xs | .tuple xs => checkItems xs
  | .object ms => checkMembers ms
  | .thing _ _ | .bundle _ | .constant _ _ _ => .error .wrongType
  | .null | .bool _ | .float _ | .string _ => .ok ()

/-- Refuses a list with an item that has no text. -/
def checkItems : List Value → Except Fault Unit
  | [] => .ok ()
  | x :: xs => do
    check x
    checkItems xs

/-- Refuses an object with a member that has no text. -/
def checkMembers : List (Key × Value) → Except Fault Unit
  | [] => .ok ()
  | (k, x) :: ms => do
    checkKey k
    check x
    checkMembers ms

end

/-- The text of a value on one line. -/
def dumps (v : Value) : Except Fault (List Char) := do
  check v
  return render v

/-- The texts of values, each on a line of its own, every line ended. -/
def renderLines (vs : List Value) : Except Fault String := do
  let texts ← vs.mapM dumps
  return String.ofList (texts.flatMap fun t => t ++ ['\n'])

end EdgeFields.Json
