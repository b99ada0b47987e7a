import EdgeFields.Number.Binary64

/-!
# Quantities

What a number denotes, in whatever form it is given.  A finite number is a dyadic fraction, so that numbers are
compared exactly.  Main statements: integers denote different quantities, and they are compared as integers.
-/

namespace EdgeFields

/-- What a number denotes: a dyadic fraction, something infinite, or something that is known by its mark alone. -/
inductive Quantity where
  | exact (x : Dyadic)
  | infinite (negative : Bool)
  | unknown (mark : Nat)
  deriving DecidableEq

namespace Quantity

/-- The quantity of an integer. -/
def ofInt (n : Int) : Quantity :=
  exact n

/-- Whether a quantity is below an integer; an unknown one is below none. -/
def below (k : Int) : Quantity → Bool
  | exact x => x < (k : Dyadic)
  | infinite negative => negative
  | unknown _ => false

/-- Whether a quantity is at most an integer; an unknown one is at most none. -/
def atMost (k : Int) : Quantity → Bool
  | exact x => x ≤ (k : Dyadic)
  | infinite negative => negative
  | unknown _ => false

@[simp] theorem ofInt_inj {m n : Int} : ofInt m = ofInt n ↔ m = n := by
  simp only [ofInt, exact.injEq, ← Dyadic.toRat_inj, Dyadic.toRat_intCast]
  exact Rat.intCast_inj

@[simp] theorem below_ofInt (k n : Int) : (ofInt n).below k = decide (n < k) := by
  simp only [ofInt, below, ← Dyadic.toRat_lt_toRat_iff, Dyadic.toRat_intCast, Rat.intCast_lt_intCast]

@[simp] theorem atMost_ofInt (k n : Int) : (ofInt n).atMost k = decide (n ≤ k) := by
  simp only [ofInt, atMost, ← Dyadic.toRat_le_toRat_iff, Dyadic.toRat_intCast, Rat.intCast_le_intCast]

end Quantity

/-- The quantity that a double-precision number denotes; both zeros denote the same. -/
def Binary64.quantity : Binary64 → Quantity
  | nan mark => .unknown mark
  | infinite negative => .infinite negative
  | finite s m e => .exact (.ofIntWithPrec (signed s m) (-e))

end EdgeFields
