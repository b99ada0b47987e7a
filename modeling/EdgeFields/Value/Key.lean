import EdgeFields.Number.Quantity

/-!
# Keys

What the members of an object are known by: mostly texts, but any value that never changes may stand there too.
Keys that denote the same number are equal in whatever form they are given, truth values counting as one and zero;
a number and its text are different keys.  Main statement: equality of keys is an equivalence.
-/

namespace EdgeFields

/-- A key of an object. -/
inductive Key where
  | null
  | bool (b : Bool)
  | int (n : Int)
  | float (x : Binary64)
  | string (s : String)
  /-- Several keys in a row. -/
  | tuple (parts : List Key)
  /-- A thing that never changes, by what it is and its attributes. -/
  | thing (kind : String) (attributes : List (String × Key))
  /-- One of the named values of a kind, and the word that it stands for. -/
  | constant (kind name word : String)
  deriving Inhabited, Repr

/-- Most keys are texts. -/
instance : Coe String Key := ⟨Key.string⟩

namespace Key

mutual

/-- What a key denotes. -/
inductive Meaning where
  | nothing
  | number (q : Quantity)
  | text (s : String)
  | tuple (parts : Meanings)
  | thing (kind : String) (attributes : Meanings)
  | constant (kind name : String)

/-- What the parts of a key denote, each under its label. -/
inductive Meanings where
  | nil
  | cons (label : String) (first : Meaning) (rest : Meanings)

end

deriving instance DecidableEq for Meaning, Meanings

mutual

/-- What this key denotes. -/
def meaning : Key → Meaning
  | null => .nothing
  | bool b => .number (.ofInt b.toInt)
  | int n => .number (.ofInt n)
  | float x => .number x.quantity
  | string s => .text s
  | tuple parts => .tuple (meaningOfParts parts)
  | thing kind attributes => .thing kind (meaningOfAttributes attributes)
  | constant kind name _ => .constant kind name

/-- What keys in a row denote. -/
def meaningOfParts : List Key → Meanings
  | [] => .nil
  | k :: ks => .cons "" (meaning k) (meaningOfParts ks)

/-- What attributes denote. -/
def meaningOfAttributes : List (String × Key) → Meanings
  | [] => .nil
  | (name, k) :: ks => .cons name (meaning k) (meaningOfAttributes ks)

end

/-- Keys are equal when they denote the same. -/
instance : BEq Key := ⟨fun k l => k.meaning == l.meaning⟩

theorem beq_iff {k l : Key} : (k == l) = true ↔ k.meaning = l.meaning :=
  beq_iff_eq (a := k.meaning) (b := l.meaning)

instance : EquivBEq Key where
  rfl := beq_iff.2 rfl
  symm h := beq_iff.2 (beq_iff.1 h).symm
  trans h h' := beq_iff.2 ((beq_iff.1 h).trans (beq_iff.1 h'))

@[simp] theorem beq_string (s t : String) : (string s == string t) = (s == t) := by
  rw [Bool.eq_iff_iff, beq_iff, beq_iff_eq]
  simp [meaning]

@[simp] theorem beq_int (m n : Int) : (int m == int n) = (m == n) := by
  rw [Bool.eq_iff_iff, beq_iff, beq_iff_eq]
  simp [meaning]

end Key

end EdgeFields
