import EdgeFields.Value.Same
import EdgeFields.Value.Text

/-!
# Faults

Everything that can go wrong, by cause, and the message each cause is reported with.  Causes that only say that a
value has the wrong shape carry no message.
-/

namespace EdgeFields

/-- A failed request to the index. -/
inductive IndexFailure where
  /-- The index answered with an error status. -/
  | api (status message body : Value)
  /-- The index could not be reached. -/
  | connection
  /-- The index did not answer in time. -/
  | timeout
  /-- No secure connection could be made. -/
  | tls
  /-- The transport failed in another way. -/
  | transport (message : Value)
  /-- A failure that has nothing to do with the request. -/
  | unrelated
  deriving Inhabited, Repr

namespace IndexFailure

/-- The version conflict of a conditional write. -/
def conflict : IndexFailure := api (.int 409) (.string "version_conflict_engine_exception") .null

/-- The answer for a document that is not there. -/
def missing : IndexFailure := api (.int 404) (.string "not_found") .null

/-- Whether the index answered with an error status. -/
def hasStatus (status : Int) : IndexFailure → Bool
  | api s _ _ => s == .int status
  | _ => false

/-- Whether the index answered at all. -/
def isAnswer : IndexFailure → Bool
  | api _ _ _ => true
  | _ => false

end IndexFailure

/-- Why an item of a batch cannot be sent. -/
inductive ItemFlaw where
  | notAnOperation (item : Value)
  | invalidAction (action : Value)
  | noEntityId (action : String)
  | emptyField
  deriving Inhabited, Repr

/-- Why a bulk request failed as a whole, with the text of the failure. -/
inductive BulkFault where
  | rejected (failure : IndexFailure) (text : String)
  | transport (failure : IndexFailure) (text : String)
  | itemCount (got expected : Nat)
  deriving Inhabited, Repr

/-- Field keys that several pairs of a relationship name and a type share. -/
abbrev Collisions := List (String × List (Value × Value))

/-- What can go wrong. -/
inductive Fault where
  /-- A value has a type that cannot be used here. -/
  | wrongType
  /-- A value lacks a member that every value of the right type has. -/
  | noMember
  /-- A required member of an object is missing. -/
  | noKey
  /-- An infinite number was to become an integer. -/
  | infiniteInteger
  /-- A value that is no number was to become an integer. -/
  | undefinedInteger
  | malformedInteger (text : String)
  | tooLongInteger (digits : Nat)
  /-- An integer with too many digits was to be written as text. -/
  | unwritableInteger
  /-- A list was to become an object, and the item at `position` is no pair. -/
  | pairLength (position length : Nat)
  | unsupportedAction (action : Value)
  | unknownKind (kind : Value)
  | pageSize (size : Value)
  | retryCount (count : Value)
  | noAttempts
  | noIndexName
  | noSuchLink
  | collisions (shared : Collisions)
  | invalidItem (position : Nat) (flaw : ItemFlaw)
  | bulk (fault : BulkFault)
  | index (failure : IndexFailure)
  deriving Inhabited, Repr

/-- The message of an item that cannot be sent. -/
def ItemFlaw.message (position : Nat) : ItemFlaw → String
  | notAnOperation item => s!"Item {position} is not a SyncOperation: " ++ item.shown
  | invalidAction action => s!"Item {position} has invalid action " ++ action.shown
  | noEntityId action => s!"Item {position} ({action}) has no projection entity_id"
  | emptyField => s!"Item {position} has an empty field key"

/-- The message of a failed bulk request. -/
def BulkFault.message : BulkFault → String
  | rejected _ text => "Bulk request rejected: " ++ text
  | transport _ text => "Bulk transport failure: " ++ text
  | itemCount got expected => s!"Bulk response has {got} items for {expected} operations"

/-- The message that lists every shared field key with the pairs that share it. -/
def Collisions.message (shared : Collisions) : String :=
  let pairText (p : Value × Value) := p.1.toText ++ "/" ++ p.2.toText
  let keyText (c : String × List (Value × Value)) := c.1 ++ " <- " ++ ", ".intercalate (c.2.map pairText)
  "Field key collision: " ++ "; ".intercalate (shared.map keyText)

/-- The message of a fault, if faults of its cause have one. -/
def Fault.message : Fault → Option String
  | undefinedInteger => some "cannot convert float NaN to integer"
  | malformedInteger text =>
    some ("invalid literal for int() with base 10: " ++ String.ofList ((Text.quoteChars text.toList).take 200))
  | tooLongInteger digits =>
    some (s!"Exceeds the limit (4300 digits) for integer string conversion: value has {digits} digits; " ++
      "use sys.set_int_max_str_digits() to increase the limit")
  | unwritableInteger =>
    some ("Exceeds the limit (4300 digits) for integer string conversion; " ++
      "use sys.set_int_max_str_digits() to increase the limit")
  | pairLength position length =>
    some s!"dictionary update sequence element #{position} has length {length}; 2 is required"
  | unsupportedAction action => some ("Unsupported sync action: " ++ action.shown)
  | unknownKind kind => some (kind.shown ++ " is not a valid RelationshipKind")
  | pageSize size => some ("page_size must be positive, got " ++ size.toText)
  | retryCount count => some ("retry_on_conflict must be >= 0, got " ++ count.toText)
  | noAttempts => some "max_attempts must be >= 1"
  | noIndexName => some "index_name required for put_mapping"
  | noSuchLink => some "list.remove(x): x not in list"
  | collisions shared => some shared.message
  | invalidItem position flaw => some (flaw.message position)
  | bulk fault => some fault.message
  | wrongType | noMember | noKey | infiniteInteger | index _ => none

end EdgeFields
