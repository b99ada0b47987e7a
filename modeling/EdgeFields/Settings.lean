import EdgeFields.FieldKey
import EdgeFields.Report

/-!
# Settings

How the index is reached and what its documents are written with.  Settings come from named values or from an
environment, which a file of further variables may complete but not override.
-/

namespace EdgeFields

/-- The settings of a host. -/
structure Settings where
  url : Value := .string "http://localhost:9200"
  user : Value := .null
  password : Value := .null
  indexName : Value := .string "content"
  fieldStem : Value := .string FieldKey.defaultStem
  pageSize : Value := .int 100
  retryOnConflict : Value := .int 3
  refresh : Value := .null
  requestTimeout : Value := .int 30
  deriving Inhabited, Repr

/-- What a client is made with. -/
structure Connection where
  url : Value
  login : Option (Value × Value)
  requestTimeout : Value
  deriving Inhabited

namespace Settings

/-- Settings whose page size is positive and whose number of retries is not negative. -/
def checked (s : Settings) : Except Fault Settings := do
  if ← s.pageSize.isBelow 1 then throw (.pageSize s.pageSize)
  if ← s.retryOnConflict.isBelow 0 then throw (.retryCount s.retryOnConflict)
  return s

/-- Sets one of the settings; there are no others. -/
def set (s : Settings) (name : Key) (v : Value) : Except Fault Settings :=
  match name with
  | .string "elastic_url" => .ok { s with url := v }
  | .string "elastic_user" => .ok { s with user := v }
  | .string "elastic_password" => .ok { s with password := v }
  | .string "index_name" => .ok { s with indexName := v }
  | .string "field_prefix" => .ok { s with fieldStem := v }
  | .string "page_size" => .ok { s with pageSize := v }
  | .string "retry_on_conflict" => .ok { s with retryOnConflict := v }
  | .string "refresh" => .ok { s with refresh := v }
  | .string "request_timeout" => .ok { s with requestTimeout := v }
  | _ => .error .wrongType

/-- Settings from named values. -/
def ofRecord (ms : Record) : Except Fault Settings := do
  checked (← ms.foldlM (fun s m => s.set m.1 m.2) {})

/-- Settings as named values. -/
def toRecord (s : Settings) : Record :=
  [("elastic_url", s.url), ("elastic_user", s.user), ("elastic_password", s.password),
    ("index_name", s.indexName), ("field_prefix", s.fieldStem), ("page_size", s.pageSize),
    ("retry_on_conflict", s.retryOnConflict), ("refresh", s.refresh), ("request_timeout", s.requestTimeout)]

/-- The variables of an environment. -/
abbrev Environment := List (String × String)

/-- An environment completed by the lines of a file: the last line for a name counts, one without a value sets
nothing, and variables that are there already stay. -/
def complete (env : Environment) (lines : List (String × Option String)) : Environment :=
  let last := lines.foldl (fun m l => Assoc.insert l.1 l.2 m) []
  env ++ last.filterMap fun l => if Assoc.contains l.1 env then none else l.2.map fun v => (l.1, v)

/-- The first of some variables that is set. -/
def firstSet? (env : Environment) (names : List String) : Option String :=
  names.findSome? fun name => env.lookup name

/-- An integer variable; an unset or empty one has its usual value, and so has one that is no integer, with a
notice. -/
def integer (env : Environment) (name : String) (usual : Int) : Report Value :=
  match (env.lookup name).getD "" with
  | "" => return .int usual
  | text =>
    match Text.readInteger text.toList with
    | .ok n => return .int n
    | .error _ => do
      Report.note .warning .settings
      return .int usual

/-- A text variable as a value, null if it is not set. -/
def textOrNull (v : Option String) : Value :=
  (v.map Value.string).getD .null

/-- Settings from an environment.  The variables of an application start with its name; how the index is reached is
in variables that all applications share. -/
def ofEnvironment (application : String) (env : Environment) : Report Settings := do
  let usual : Settings := {}
  let own (name : String) := application ++ "_" ++ name
  let pageSize ← integer env (own "PAGE_SIZE") 100
  let retryOnConflict ← integer env (own "RETRY_ON_CONFLICT") 3
  let requestTimeout ← integer env (own "REQUEST_TIMEOUT") 30
  checked {
    url := ((firstSet? env ["ELASTIC_URL", "ELASTICSEARCH_URL"]).map Value.string).getD usual.url
    user := textOrNull (firstSet? env ["ELASTIC_USER", "ELASTICSEARCH_USER"])
    password := textOrNull (firstSet? env ["ELASTIC_PASSWORD", "ELASTICSEARCH_PASSWORD"])
    indexName := ((firstSet? env [own "INDEX"]).map Value.string).getD usual.indexName
    fieldStem := ((firstSet? env [own "FIELD_PREFIX"]).map Value.string).getD usual.fieldStem
    pageSize := pageSize
    retryOnConflict := retryOnConflict
    refresh := textOrNull ((firstSet? env [own "REFRESH"]).filter (· ≠ ""))
    requestTimeout := requestTimeout }

/-- The connection that the settings ask for; a login needs both a user and a password. -/
def connection (s : Settings) : Connection :=
  { url := s.url
    login := if s.user.truthy && s.password.truthy then some (s.user, s.password) else none
    requestTimeout := s.requestTimeout }

end Settings

end EdgeFields
