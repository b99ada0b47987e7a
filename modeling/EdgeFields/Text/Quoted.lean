import EdgeFields.Text.Printable

/-!
# Quoted texts

How messages show a text.  It stands between single quotes, or between double quotes when it holds a single quote
and no double one.  The quote in use and the backslash are escaped, line breaks and tabs have their short escapes,
and any other character that is not printable is written by its code point with two, four or eight digits.
-/

namespace EdgeFields.Text

/-- The lower-case hexadecimal digits of a number, with zeros in front up to the given width. -/
def hex (width n : Nat) : List Char :=
  let ds := Nat.toDigits 16 n
  List.replicate (width - ds.length) '0' ++ ds

/-- A character written by its code point, in the shortest of the three widths. -/
def codeEscape (c : Char) : List Char :=
  let n := c.toNat
  if n < 0x100 then '\\' :: 'x' :: hex 2 n
  else if n < 0x10000 then '\\' :: 'u' :: hex 4 n
  else '\\' :: 'U' :: hex 8 n

/-- One character of a text quoted with `quote`. -/
def quoteChar (quote c : Char) : List Char :=
  if c = quote ∨ c = '\\' then ['\\', c]
  else if c = '\n' then ['\\', 'n']
  else if c = '\r' then ['\\', 'r']
  else if c = '\t' then ['\\', 't']
  else if isPrintable c then [c]
  else codeEscape c

/-- The quote a text is shown with. -/
def quoteOf (cs : List Char) : Char :=
  if cs.contains '\'' && !cs.contains '"' then '"' else '\''

/-- A text between quotes, escaped. -/
def quoteChars (cs : List Char) : List Char :=
  let quote := quoteOf cs
  quote :: cs.flatMap (quoteChar quote) ++ [quote]

/-- A text as messages show it. -/
def quoted (s : String) : String :=
  String.ofList (quoteChars s.toList)

end EdgeFields.Text
