import EdgeFields.Text.CaseTable
import EdgeFields.Text.Printable

/-!
# Letter case

Texts in upper and in lower case.  A character may become several, and a capital sigma becomes the final one where a
word ends: behind a letter with case and not before one, characters that do not separate letters apart.
-/

namespace EdgeFields.Text

/-- The code point that a table of runs maps `n` to. -/
def mapByRun (runs : Array (Nat × Nat × Nat × Nat)) (n : Nat) : Nat :=
  match runs.find? fun (first, last, step, _) => first ≤ n && n ≤ last && (n - first) % step == 0 with
  | some (first, _, _, target) => target + (n - first)
  | none => n

/-- The characters that a character is mapped to, by a table of long forms and a table of runs. -/
def mapCase (long : List (Nat × List Nat)) (runs : Array (Nat × Nat × Nat × Nat)) (c : Char) : List Char :=
  match long.lookup c.toNat with
  | some ns => ns.map Char.ofNat
  | none => [Char.ofNat (mapByRun runs c.toNat)]

/-- Whether a character is a letter with case. -/
def isCased (c : Char) : Bool :=
  inRanges casedRanges c.toNat 0 casedRanges.size

/-- Whether a character does not separate letters. -/
def isCaseIgnorable (c : Char) : Bool :=
  inRanges caseIgnorableRanges c.toNat 0 caseIgnorableRanges.size

/-- Whether the first character that separates letters or is one has case. -/
def meetsCased (cs : List Char) : Bool :=
  match cs.dropWhile isCaseIgnorable with
  | c :: _ => isCased c
  | [] => false

/-- The lower-case form of a text whose characters before it, the nearest first, are `before`. -/
def lowerFrom (before : List Char) : List Char → List Char
  | [] => []
  | c :: cs =>
    let lowered :=
      if c = 'Σ' && meetsCased before && !meetsCased cs then ['ς']
      else mapCase lowerLong lowerRuns c
    lowered ++ lowerFrom (c :: before) cs

/-- A text in lower case. -/
def lower (s : String) : String :=
  String.ofList (lowerFrom [] s.toList)

/-- A text in upper case. -/
def upper (s : String) : String :=
  String.ofList (s.toList.flatMap (mapCase upperLong upperRuns))

end EdgeFields.Text
