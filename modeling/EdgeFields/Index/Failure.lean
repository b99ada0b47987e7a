import EdgeFields.Value.Read

/-!
# Texts of failed requests

How the client of the index in memory describes a failed request.  An error answer is shown with the root cause that
its body names: the reason, the resource, and what caused it.  A body in which a part is missing names none; one that
has something else in the place of a part cannot be shown.
-/

namespace EdgeFields.IndexFailure

/-- The name that an error status goes by. -/
def statusName (status : Value) : String :=
  if status == .int 400 then "BadRequestError"
  else if status == .int 401 then "AuthenticationException"
  else if status == .int 403 then "AuthorizationException"
  else if status == .int 404 then "NotFoundError"
  else if status == .int 409 then "ConflictError"
  else "ApiError"

/-- The first of several causes, if there is one. -/
def first? : Value → Except Fault (Option Value)
  | .list xs | .tuple xs => .ok xs.head?
  | .string s => .ok (s.toList.head?.map fun c => .string (String.singleton c))
  | .object ms => .ok (ms.lookup (.int 0))
  | _ => .error .wrongType

/-- The texts among some parts, without those that are not present; other parts are refused. -/
def presentTexts (parts : List Value) : Except Fault (List String) :=
  (parts.filter Value.truthy).mapM fun
    | .string s => .ok s
    | _ => .error .wrongType

/-- The text of a root cause: its reason, quoted, the resource and what caused it. -/
def causeText? (error root : Record) : Except Fault (Option String) := do
  match root.lookup (.string "reason") with
  | none => return none
  | some reason =>
    let cause ← match error.lookup (.string "caused_by") with
      | none => .ok .null
      | some v => v.member "reason"
    let part (k : Key) := (root.lookup k).getD .null
    let texts ← presentTexts [part "resource.id", part "resource.type", cause]
    return some (", ".intercalate (reason.shown :: texts))

/-- The text of the root cause that an error names. -/
def rootCause? (error : Record) : Except Fault (Option String) := do
  match error.lookup (.string "root_cause") with
  | none => return none
  | some causes =>
    match ← first? causes with
    | none => return none
    | some (.object root) => causeText? error root
    | some _ => throw .wrongType

/-- The text of what the body of an error answer names as its cause. -/
def bodyCause? : Value → Except Fault (Option String)
  | .object ms =>
    match ms.lookup (.string "error") with
    | none => .ok none
    | some (.object error) => rootCause? error
    | some error => .ok (some error.shown)
  | _ => .ok none

/-- The text of an error answer: its name, status and message, and the cause if the body names one. -/
def apiText (status message body : Value) : Except Fault String := do
  let tail := match ← bodyCause? body with
    | some cause => ", " ++ cause
    | none => ""
  return statusName status ++ "(" ++ status.toText ++ ", " ++ message.shown ++ tail ++ ")"

/-- The text of a failure. -/
def text : IndexFailure → Except Fault String
  | api status message body => apiText status message body
  | connection => .ok "Connection error"
  | timeout => .ok "Connection timed out"
  | tls => .ok "TLS error"
  | transport message => .ok message.toText
  | unrelated => .ok ""

end EdgeFields.IndexFailure
