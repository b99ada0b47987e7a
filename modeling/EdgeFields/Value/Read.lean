import EdgeFields.Fault
import EdgeFields.Text.Integer

/-!
# Reading values

How a value is used where a list, an integer, an object or a key is wanted, and the fault when it cannot be.
-/

namespace EdgeFields

/-- The fault of a text that is not read as an integer. -/
def Text.IntegerFault.fault (s : String) : Text.IntegerFault → Fault
  | malformed => .malformedInteger s
  | tooLong digits => .tooLongInteger digits

namespace Value

/-- The items that a value holds: those of a list, the characters of a text and the keys of an object. -/
def elements : Value → Except Fault (List Value)
  | list xs | tuple xs => .ok xs
  | string s => .ok (s.toList.map fun c => string (String.singleton c))
  | object ms => .ok (ms.map fun m => m.1.toValue)
  | _ => .error .wrongType

/-- The integer that a value is read as: fractions are dropped and texts are read as decimal integers. -/
def toInteger : Value → Except Fault Int
  | bool b => .ok b.toInt
  | int n => .ok n
  | float x =>
    match x.truncate? with
    | some n => .ok n
    | none => .error (if x matches .nan _ then .undefinedInteger else .infiniteInteger)
  | string s => (Text.readInteger s.toList).mapError (·.fault s)
  | _ => .error .wrongType

/-- The integer that a value is, where a number of steps or items is wanted; truth values are one and zero. -/
def toCount : Value → Except Fault Int
  | bool b => .ok b.toInt
  | int n => .ok n
  | _ => .error .wrongType

/-- Whether a number is below an integer; other values cannot be compared. -/
def isBelow (k : Int) (v : Value) : Except Fault Bool :=
  match v.quantity? with
  | some q => .ok (q.below k)
  | none => .error .wrongType

/-- Whether a number is at most an integer; other values cannot be compared. -/
def isAtMost (k : Int) (v : Value) : Except Fault Bool :=
  match v.quantity? with
  | some q => .ok (q.atMost k)
  | none => .error .wrongType

/-- A value as a key; one that may change is not fit for one. -/
def toKey (v : Value) : Except Fault Key :=
  match v.key? with
  | some k => .ok k
  | none => .error .wrongType

/-- The key and the value of an item at `position` that is read as a pair. -/
def toPair (position : Nat) (v : Value) : Except Fault (Key × Value) := do
  match ← v.elements with
  | [k, x] => pure (← k.toKey, x)
  | xs => throw (.pairLength position xs.length)

/-- Reads items as pairs and sets each in the object made so far. -/
def pairsFrom : Nat → List Value → Record → Except Fault Record
  | _, [], ms => .ok ms
  | position, v :: vs, ms => do
    let (k, x) ← v.toPair position
    pairsFrom (position + 1) vs (Assoc.insert k x ms)

/-- The object that a value is copied to: an object as it is, a list or text item by item as pairs. -/
def toRecord : Value → Except Fault Record
  | object ms => .ok ms
  | v => do pairsFrom 0 (← v.elements) []

/-- The attributes of a value. -/
def attributes : Value → List (String × Value)
  | thing _ ms | bundle ms => ms
  | _ => []

/-- The part of a value under a name, which has to be there. -/
def part (name : String) (v : Value) : Except Fault Value :=
  match v.attributes.lookup name with
  | some x => .ok x
  | none => .error .noMember

/-- The fault of asking a value for something that values of its kind do not do.  It may have an attribute of that
name, but an attribute is nothing that can be done. -/
def cannot (action : String) (v : Value) : Fault :=
  if Assoc.contains action v.attributes then .wrongType else .noMember

/-- The members of an object; `action` is what is to be done to it. -/
def membersTo (action : String) : Value → Except Fault Record
  | object ms => .ok ms
  | v => .error (v.cannot action)

/-- A member of an object, null when it is missing. -/
def member (k : Key) : Value → Except Fault Value
  | object ms => .ok ((ms.lookup k).getD null)
  | v => .error (v.cannot "get")

@[simp] theorem toInteger_int (n : Int) : (int n).toInteger = .ok n := rfl

@[simp] theorem toCount_int (n : Int) : (int n).toCount = .ok n := rfl

@[simp] theorem isBelow_int (k n : Int) : (int n).isBelow k = .ok (decide (n < k)) := by
  simp [isBelow]

@[simp] theorem isAtMost_int (k n : Int) : (int n).isAtMost k = .ok (decide (n ≤ k)) := by
  simp [isAtMost]

@[simp] theorem toKey_string (s : String) : (string s).toKey = .ok (.string s) := rfl

@[simp] theorem toKey_toValue (k : Key) : k.toValue.toKey = .ok k := by
  simp [toKey]

@[simp] theorem toRecord_object (ms : Record) : (object ms).toRecord = .ok ms := rfl

end Value

end EdgeFields
