/-!
# Binary floating-point numbers

A double-precision number is kept exactly: a sign, a significand and a power of two, or one of the three
exceptional values.  Nothing is computed in floating point; numbers are only read from their 64 bits, cut to
integers and written.
-/

namespace EdgeFields

/-- A double-precision number; `finite s m e` is `m * 2 ^ e`, negated when `s` holds.  What is no number bears a mark,
by which it is told from others of its kind. -/
inductive Binary64 where
  | nan (mark : Nat)
  | infinite (negative : Bool)
  | finite (negative : Bool) (significand : Nat) (exponent : Int)
  deriving DecidableEq, Repr, Inhabited

namespace Binary64

/-- The number with these 64 bits in the interchange format: sign, eleven bits of exponent, 52 of fraction. -/
def ofBits (bits : Nat) : Binary64 :=
  let negative := bits / Nat.pow 2 63 % 2 == 1
  let biased : Nat := bits / Nat.pow 2 52 % Nat.pow 2 11
  let fraction : Nat := bits % Nat.pow 2 52
  if biased = 0 then finite negative fraction (-1074)
  else if biased = 2047 then (if fraction = 0 then infinite negative else nan 0)
  else finite negative (Nat.pow 2 52 + fraction) ((biased : Int) - 1075)

/-- The integer `m`, negated when `negative` holds. -/
def signed (negative : Bool) (m : Nat) : Int :=
  if negative then -(m : Int) else m

/-- Both zeros, and no other number. -/
def isZero : Binary64 → Bool
  | finite _ m _ => m == 0
  | _ => false

/-- The integer part of a finite number: its fraction is dropped, toward zero. -/
def truncate? : Binary64 → Option Int
  | finite s m e => some (signed s (m * Nat.pow 2 e.toNat / Nat.pow 2 (-e).toNat))
  | _ => none

end Binary64

end EdgeFields
