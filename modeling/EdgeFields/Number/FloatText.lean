import EdgeFields.Number.Shortest

/-!
# Written form of a floating-point number

A number is written with its shortest digits.  Between `0.0001` and `10 ^ 16` the digits stand around a point,
with `.0` after a whole number; outside, one digit stands before the point and a signed exponent of at least two
digits follows.
-/

namespace EdgeFields

/-- Where numbers leave positional notation, and how exponents are written. -/
structure FloatLayout where
  /-- The least exponent of the leading digit that is written positionally. -/
  least : Int
  /-- The first exponent of the leading digit that is written in exponent notation again. -/
  limit : Int
  /-- The least number of digits of a written exponent. -/
  exponentWidth : Nat

/-- Numbers in documents and messages are positional from `1e-4` on and below `1e16`. -/
def FloatLayout.standard : FloatLayout := ⟨-4, 16, 2⟩

namespace FloatLayout

/-- Digits with zeros in front up to the given width. -/
def padded (width n : Nat) : List Char :=
  let ds := Nat.toDigits 10 n
  List.replicate (width - ds.length) '0' ++ ds

/-- Digits without the zeros at their end. -/
def dropTrailingZeros (ds : List Char) : List Char :=
  (ds.reverse.dropWhile (· == '0')).reverse

/-- Significant digits with the leading one at `10 ^ top`, around a point. -/
def positional (ds : List Char) (top : Int) : List Char :=
  if top < 0 then
    ['0', '.'] ++ List.replicate ((-top).toNat - 1) '0' ++ ds
  else
    let whole := top.toNat + 1
    let front := ds.take whole ++ List.replicate (whole - ds.length) '0'
    let back := ds.drop whole
    front ++ '.' :: (if back.isEmpty then ['0'] else back)

/-- Significant digits with the leading one at `10 ^ top`, with a written exponent. -/
def scientific (width : Nat) (ds : List Char) (top : Int) : List Char :=
  let head := ds.take 1
  let tail := ds.drop 1
  head ++ (if tail.isEmpty then [] else '.' :: tail) ++
    ['e', if top < 0 then '-' else '+'] ++ padded width top.natAbs

/-- The text of a positive decimal. -/
def decimal (l : FloatLayout) (x : Shortest.Decimal) : List Char :=
  let all := Nat.toDigits 10 x.digits
  let top : Int := x.exponent + all.length - 1
  let ds := dropTrailingZeros all
  if l.least ≤ top ∧ top < l.limit then positional ds top else scientific l.exponentWidth ds top

/-- The text of a number; a negative one, the negative zero among them, starts with a minus sign. -/
def render (l : FloatLayout) : Binary64 → List Char
  | .nan _ => ['n', 'a', 'n']
  | .infinite negative => (if negative then ['-'] else []) ++ ['i', 'n', 'f']
  | .finite negative m e =>
    (if negative then ['-'] else []) ++
      (if m = 0 then ['0', '.', '0'] else l.decimal (Shortest.decimal m e))

end FloatLayout

/-- The written form of a number. -/
def Binary64.toText (x : Binary64) : String :=
  String.ofList (FloatLayout.standard.render x)

end EdgeFields
