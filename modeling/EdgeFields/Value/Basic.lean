import EdgeFields.Assoc
import EdgeFields.Value.Key

/-!
# Values

The values that documents, queries, request parameters and host data are made of.  An object keeps the order of
its members.  Entities, definitions and operations may stand among them as things with attributes.  Main statement:
a value made of a key is fit for that key.
-/

namespace EdgeFields

/-- A value of a document, a query or a request. -/
inductive Value where
  | null
  | bool (b : Bool)
  | int (n : Int)
  | float (x : Binary64)
  | string (s : String)
  | list (items : List Value)
  | object (members : List (Key × Value))
  /-- A list inside a thing, which nothing is added to. -/
  | tuple (items : List Value)
  /-- A thing with attributes, by what it is; the attributes never change. -/
  | thing (kind : String) (attributes : List (String × Value))
  /-- Attributes that make no thing of any kind; they may change. -/
  | bundle (attributes : List (String × Value))
  /-- One of the named values of a kind, and the word that it stands for. -/
  | constant (kind name word : String)
  deriving Inhabited, Repr

/-- The members of an object, in order. -/
abbrev Record := List (Key × Value)

namespace Key

mutual

/-- A key as a value. -/
def toValue : Key → Value
  | null => .null
  | bool b => .bool b
  | int n => .int n
  | float x => .float x
  | string s => .string s
  | tuple parts => .tuple (partsToValues parts)
  | thing kind attributes => .thing kind (attributesToValues attributes)
  | constant kind name word => .constant kind name word

/-- Keys in a row as values. -/
def partsToValues : List Key → List Value
  | [] => []
  | k :: ks => toValue k :: partsToValues ks

/-- Attributes that are keys as attributes that are values. -/
def attributesToValues : List (String × Key) → List (String × Value)
  | [] => []
  | (name, k) :: ks => (name, toValue k) :: attributesToValues ks

end

end Key

namespace Value

/-- Whether a value counts as present: null, false, zero, and the empty text, list and object do not. -/
def truthy : Value → Bool
  | null => false
  | bool b => b
  | int n => n != 0
  | float x => !x.isZero
  | string s => s != ""
  | list xs | tuple xs => !xs.isEmpty
  | object ms => !ms.isEmpty
  | thing _ _ | bundle _ | constant _ _ _ => true

/-- Whether a value is null. -/
def isNull : Value → Bool
  | null => true
  | _ => false

/-- What a value denotes as a number; truth values are one and zero. -/
def quantity? : Value → Option Quantity
  | bool b => some (.ofInt b.toInt)
  | int n => some (.ofInt n)
  | float x => some x.quantity
  | _ => none

mutual

/-- The key that a value is fit for; lists, objects and bundles are fit for none. -/
def key? : Value → Option Key
  | null => some .null
  | bool b => some (.bool b)
  | int n => some (.int n)
  | float x => some (.float x)
  | string s => some (.string s)
  | tuple xs => (keyParts? xs).map Key.tuple
  | thing kind attributes => (keyAttributes? attributes).map (Key.thing kind)
  | constant kind name word => some (.constant kind name word)
  | list _ | object _ | bundle _ => none

/-- The keys that values in a row are fit for. -/
def keyParts? : List Value → Option (List Key)
  | [] => some []
  | x :: xs => do return (← key? x) :: (← keyParts? xs)

/-- The attributes as keys, if all of them are fit for one. -/
def keyAttributes? : List (String × Value) → Option (List (String × Key))
  | [] => some []
  | (name, x) :: xs => do return (name, ← key? x) :: (← keyAttributes? xs)

end

mutual

@[simp] theorem key?_toValue : ∀ k : Key, k.toValue.key? = some k
  | .null | .bool _ | .int _ | .float _ | .string _ | .constant _ _ _ => rfl
  | .tuple parts => by simp [Key.toValue, key?, keyParts?_partsToValues parts]
  | .thing _ attributes => by simp [Key.toValue, key?, keyAttributes?_attributesToValues attributes]

theorem keyParts?_partsToValues : ∀ ks : List Key, keyParts? (Key.partsToValues ks) = some ks
  | [] => rfl
  | k :: ks => by simp [Key.partsToValues, keyParts?, key?_toValue k, keyParts?_partsToValues ks]

theorem keyAttributes?_attributesToValues :
    ∀ ks : List (String × Key), keyAttributes? (Key.attributesToValues ks) = some ks
  | [] => rfl
  | (name, k) :: ks => by
    simp [Key.attributesToValues, keyAttributes?, key?_toValue k, keyAttributes?_attributesToValues ks]

end

@[simp] theorem quantity?_int (n : Int) : (int n).quantity? = some (.ofInt n) := rfl

end Value

end EdgeFields
