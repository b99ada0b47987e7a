import EdgeFields.Text.Blank

/-!
# Cleaning of request text

Text that comes with a request is cleaned before it is used: tags are dropped, control characters become spaces,
every run of blanks becomes one space, and none is left at the ends.
-/

namespace EdgeFields.Text

/-- Drops every tag, from a `<` to the next `>`.  Once a `<` is met, the characters behind it are `held`, the last one
first, until it is known whether a tag ends there; a `<` with no `>` after it stays, with all that follows. -/
def dropTagsFrom : Option (List Char) → List Char → List Char
  | none, [] => []
  | some held, [] => held.reverse
  | none, c :: cs => if c = '<' then dropTagsFrom (some [c]) cs else c :: dropTagsFrom none cs
  | some held, c :: cs => if c = '>' then dropTagsFrom none cs else dropTagsFrom (some (c :: held)) cs

/-- A text without its tags. -/
def dropTags (cs : List Char) : List Char :=
  dropTagsFrom none cs

/-- Every run of blanks becomes one space. -/
def collapseBlanks : List Char → List Char
  | [] => []
  | c :: cs =>
    if isBlank c then
      match cs with
      | [] => [' ']
      | d :: _ => if isBlank d then collapseBlanks cs else ' ' :: collapseBlanks cs
    else c :: collapseBlanks cs

/-- Cleans a request text. -/
def cleanChars (cs : List Char) : List Char :=
  trimChars (collapseBlanks ((dropTags cs).map fun c => if isControl c then ' ' else c))

/-- A request text, cleaned. -/
def clean (s : String) : String :=
  String.ofList (cleanChars s.toList)

end EdgeFields.Text
