import EdgeFields.Number.FloatText
import EdgeFields.Text.Quoted
import EdgeFields.Value.Basic

/-!
# Texts of values

How messages show a value, and the text that a value stands for: a text stands for itself, and almost any other
value for the way it is shown.
-/

namespace EdgeFields

/-- How a row of parts is shown; a single one is followed by a comma. -/
def Text.tuple : List String → String
  | [part] => "(" ++ part ++ ",)"
  | parts => "(" ++ ", ".intercalate parts ++ ")"

/-- How a thing of a kind is shown with its attributes. -/
def Text.thing (kind : String) (attributes : List String) : String :=
  kind ++ "(" ++ ", ".intercalate attributes ++ ")"

/-- How a named value of a kind is shown. -/
def Text.constant (kind name word : String) : String :=
  "<" ++ kind ++ "." ++ name ++ ": " ++ Text.quoted word ++ ">"

namespace Key

mutual

/-- A key as messages show it. -/
def shown : Key → String
  | null => "None"
  | bool b => if b then "True" else "False"
  | int n => toString n
  | float x => x.toText
  | string s => Text.quoted s
  | tuple parts => Text.tuple (shownParts parts)
  | thing kind attributes => Text.thing kind (shownAttributes attributes)
  | constant kind name word => Text.constant kind name word

/-- Keys in a row as messages show them. -/
def shownParts : List Key → List String
  | [] => []
  | k :: ks => shown k :: shownParts ks

/-- Attributes as messages show them. -/
def shownAttributes : List (String × Key) → List String
  | [] => []
  | (name, k) :: ks => (name ++ "=" ++ shown k) :: shownAttributes ks

end

/-- The text that a key stands for. -/
def toText : Key → String
  | string s => s
  | constant kind name _ => kind ++ "." ++ name
  | k => k.shown

@[simp] theorem toText_string (s : String) : (string s).toText = s := rfl

end Key

namespace Value

mutual

/-- A value as messages show it. -/
def shown : Value → String
  | null => Key.null.shown
  | bool b => (Key.bool b).shown
  | int n => (Key.int n).shown
  | float x => (Key.float x).shown
  | string s => (Key.string s).shown
  | list xs => "[" ++ ", ".intercalate (shownItems xs) ++ "]"
  | object ms => "\x7b" ++ ", ".intercalate (shownMembers ms) ++ "\x7d"
  | tuple xs => Text.tuple (shownItems xs)
  | thing kind attributes => Text.thing kind (shownAttributes attributes)
  | bundle attributes => Text.thing "namespace" (shownNamed attributes)
  | constant kind name word => Text.constant kind name word

/-- The items of a list as messages show them. -/
def shownItems : List Value → List String
  | [] => []
  | x :: xs => shown x :: shownItems xs

/-- The members of an object as messages show them. -/
def shownMembers : List (Key × Value) → List String
  | [] => []
  | (k, x) :: xs => (k.shown ++ ": " ++ shown x) :: shownMembers xs

/-- The attributes of a thing as messages show them. -/
def shownAttributes : List (String × Value) → List String
  | [] => []
  | (name, x) :: xs => (name ++ "=" ++ shown x) :: shownAttributes xs

/-- The attributes of a bundle as messages show them, without one whose name is empty. -/
def shownNamed : List (String × Value) → List String
  | [] => []
  | (name, x) :: xs => if name = "" then shownNamed xs else (name ++ "=" ++ shown x) :: shownNamed xs

end

/-- The text that a value stands for. -/
def toText : Value → String
  | string s => s
  | constant kind name _ => kind ++ "." ++ name
  | v => shown v

@[simp] theorem toText_string (s : String) : (string s).toText = s := rfl

end Value

end EdgeFields
