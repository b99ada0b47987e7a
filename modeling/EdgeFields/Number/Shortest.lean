import EdgeFields.Number.Binary64

/-!
# Shortest decimal digits of a binary number

The digits written for a positive number `m * 2 ^ e` are the fewest whose decimal reads back as the same double:
among the decimals inside the interval of reals that round to the number, those with the fewest digits, and of
these the nearest.  All comparisons are exact, between natural numbers.
-/

namespace EdgeFields.Shortest

/-- The decimal `digits * 10 ^ exponent`. -/
structure Decimal where
  digits : Nat
  exponent : Int
  deriving DecidableEq, Repr

/-- Compares `d * 10 ^ k` with `c * 2 ^ q`. -/
def compareScaled (d : Nat) (k : Int) (c : Nat) (q : Int) : Ordering :=
  compare (d * Nat.pow 10 k.toNat * Nat.pow 2 (-q).toNat) (c * Nat.pow 10 (-k).toNat * Nat.pow 2 q.toNat)

/-- A double's rounding interval in quarters of its last place: `low` and `high` times `2 ^ quarter`, with the
ends included when the significand is even. -/
structure Interval where
  low : Nat
  value : Nat
  high : Nat
  quarter : Int
  closed : Bool

/-- The reals that round to `m * 2 ^ e`; below a power of two the neighbours lie half as far apart. -/
def interval (m : Nat) (e : Int) : Interval :=
  { low := if m = Nat.pow 2 52 ∧ e ≠ -1074 then 4 * m - 1 else 4 * m - 2
    value := 4 * m
    high := 4 * m + 2
    quarter := e - 2
    closed := m % 2 == 0 }

/-- Whether a decimal reads back as the number of the interval. -/
def Interval.holds (i : Interval) (x : Decimal) : Bool :=
  let below := compareScaled x.digits x.exponent i.low i.quarter
  let above := compareScaled x.digits x.exponent i.high i.quarter
  (below == .gt || (below == .eq && i.closed)) && (above == .lt || (above == .eq && i.closed))

/-- Whether the lower of two neighbouring decimals is at least as near; of two equally near the even one is. -/
def Interval.lowerNearer (i : Interval) (d : Nat) (k : Int) : Bool :=
  match compareScaled (2 * d + 1) k (2 * i.value) i.quarter with
  | .gt => true
  | .eq => d % 2 == 0
  | .lt => false

/-- The number of decimal digits of a natural number. -/
def digitCount (n : Nat) : Nat :=
  (Nat.toDigits 10 n).length

/-- The exponent of the leading decimal digit of `m * 2 ^ e`. -/
def leading (m : Nat) (e : Int) : Int :=
  let n := m * Nat.pow 2 e.toNat
  let d := Nat.pow 2 (-e).toNat
  let guess : Int := (digitCount n : Int) - digitCount d
  if n * Nat.pow 10 (-guess).toNat < d * Nat.pow 10 guess.toNat then guess - 1 else guess

/-- The best decimal with the last digit at `10 ^ k`, if one of the two neighbours of the number reads back. -/
def onGrid? (m : Nat) (e : Int) (k : Int) : Option Decimal :=
  let i := interval m e
  let below := m * Nat.pow 2 e.toNat * Nat.pow 10 (-k).toNat / (Nat.pow 2 (-e).toNat * Nat.pow 10 k.toNat)
  let lower : Decimal := ⟨below, k⟩
  let upper : Decimal := ⟨below + 1, k⟩
  match i.holds lower && below != 0, i.holds upper with
  | true, true => some (if i.lowerNearer below k then lower else upper)
  | true, false => some lower
  | false, true => some upper
  | false, false => none

/-- The first grid, from coarse to fine, on which a decimal reads back; `steps` grids are tried. -/
def search (m : Nat) (e : Int) (k : Int) : Nat → Decimal
  | 0 => ⟨m * Nat.pow 2 e.toNat * Nat.pow 10 (-k).toNat / (Nat.pow 2 (-e).toNat * Nat.pow 10 k.toNat), k⟩
  | steps + 1 => (onGrid? m e k).getD (search m e (k - 1) steps)

/-- The shortest decimal that reads back as `m * 2 ^ e`; seventeen digits always do. -/
def decimal (m : Nat) (e : Int) : Decimal :=
  search m e (leading m e) 17

end EdgeFields.Shortest
