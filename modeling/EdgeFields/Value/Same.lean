import EdgeFields.Value.Basic

/-!
# Equality of values

Numbers are equal when they denote the same quantity, truth values counting as one and zero; lists are equal item by
item, and objects and things when they have equal members and attributes, in whatever order.  Values of different
kinds are otherwise never equal.
-/

namespace EdgeFields.Value

mutual

/-- Whether two values are equal. -/
def same : Value → Value → Bool
  | null, null => true
  | string s, string t => s == t
  | list xs, list ys => sameItems xs ys
  | tuple xs, tuple ys => sameItems xs ys
  | object xs, object ys => xs.length == ys.length && sameMembers xs ys
  | thing k xs, thing l ys => k == l && xs.length == ys.length && sameAttributes xs ys
  | bundle xs, bundle ys => xs.length == ys.length && sameAttributes xs ys
  | constant k m _, constant l n _ => k == l && m == n
  | x, y =>
    match x.quantity?, y.quantity? with
    | some p, some q => p == q
    | _, _ => false

/-- Whether two lists are equal item by item. -/
def sameItems : List Value → List Value → Bool
  | [], [] => true
  | x :: xs, y :: ys => same x y && sameItems xs ys
  | _, _ => false

/-- Whether every member of the first object is a member of the second. -/
def sameMembers : List (Key × Value) → List (Key × Value) → Bool
  | [], _ => true
  | (k, x) :: xs, ys =>
    (match ys.lookup k with
      | some y => same x y
      | none => false) && sameMembers xs ys

/-- Whether every attribute of the first thing is an attribute of the second. -/
def sameAttributes : List (String × Value) → List (String × Value) → Bool
  | [], _ => true
  | (name, x) :: xs, ys =>
    (match ys.lookup name with
      | some y => same x y
      | none => false) && sameAttributes xs ys

end

/-- Equality of values, as almost every comparison in this library uses it. -/
instance : BEq Value := ⟨same⟩

/-- Whether a value is a floating-point value that is no number. -/
def isUnknown : Value → Bool
  | float (.nan _) => true
  | _ => false

/-- Whether two values compare as equal: what is no number compares as equal to nothing, not even to itself, unless
it stands inside another value. -/
def equal (x y : Value) : Bool :=
  !x.isUnknown && x == y

@[simp] theorem beq_string (s t : String) : (string s == string t) = (s == t) := by
  change same _ _ = _
  simp [same]

@[simp] theorem beq_int (m n : Int) : (int m == int n) = (m == n) := by
  change same _ _ = _
  rw [Bool.eq_iff_iff]
  simp [same]

@[simp] theorem equal_string (s t : String) : (string s).equal (string t) = (s == t) := by
  simp [equal, isUnknown]

@[simp] theorem equal_int (m n : Int) : (int m).equal (int n) = (m == n) := by
  simp [equal, isUnknown]

/-- Adds to a list the items of another that are not in it yet, in order. -/
def union (xs ys : List Value) : List Value :=
  ys.foldl (fun kept y => if kept.contains y then kept else kept ++ [y]) xs

/-- The items of a list without those equal to an earlier one. -/
def dedup (xs : List Value) : List Value :=
  union [] xs

end EdgeFields.Value
