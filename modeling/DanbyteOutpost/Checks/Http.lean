import DanbyteOutpost.Checks.Checker
import DanbyteOutpost.Checks.NetGuard

/-!
# The HTTP checker

`HttpChecker`. The client is given: what a request raises or returns, and how far it got by then.

## What is read before the request

Path, method, port and the expected statuses are read in front of the `try`, and so is the policy
asked (`httpRefusal`): a target that is refused gets its `down` without a connection. The statuses
become a set, in which `1`, `1.0` and `True` are one element (`sameElement`), and are sorted when
a mismatch is shown.
-/

namespace Checks

variable (re : Regex) (str : Json → String)

/-- What a request raises: `httpx.TimeoutException`, another `httpx.HTTPError`, or something
else. -/
inductive HttpExc
  /-- The request took too long. -/
  | timeout
  /-- Another error of the library. -/
  | http (text name : String)
  /-- What the checker has no clause for. -/
  | other (e : Exc)

/-- What the checker reads of a response. -/
structure HttpResponse where
  /-- The time of the request. -/
  elapsedMs : ℚ
  /-- `status_code`. -/
  statusCode : ℤ
  /-- `reason_phrase`. -/
  reasonPhrase : String
  /-- `text`, which the expression is searched in. -/
  text : String

/-- How a request ends: an exception, with how far it got, or a response. -/
inductive HttpReply
  /-- It raised. -/
  | raised (contact : Contact) (e : HttpExc)
  /-- There is a response, whatever its status. -/
  | response (resp : HttpResponse)

/-- How far a request got. -/
def HttpReply.contact : HttpReply → Contact
  | .raised contact _ => contact
  | .response _ => .established

/-! ### Sets of status codes -/

/-- How a value is ordered among numbers: the infinities stand around the finite ones, and what is
no number at all counts as the upper one. -/
def rank : Json → Option (ℤ × ℚ)
  | .bool b => some (0, if b then 1 else 0)
  | .int n => some (0, n)
  | .float (some q) _ => some (0, q)
  | .float none text => some (if text = "-inf" then -1 else 1, 0)
  | _ => none

/-- `a == b`, of elements of a set. -/
def sameElement : Json → Json → Bool
  | .null, .null => true
  | .str s, .str t => s = t
  | a, b =>
    match rank a, rank b with
    | some i, some j => i = j
    | _, _ => false

/-- The values, each once. -/
def distinct (values : List Json) : List Json :=
  values.foldl (fun set value ↦ if set.any (sameElement value) then set else set ++ [value]) []

/-- `set(values)`; an array or an object among them raises. -/
def setOf : Json → Except Exc (List Json)
  | .arr values =>
    if values.all fun value ↦ decide (Hashable value) then .ok (distinct values)
    else .error (.interpreter "TypeError")
  | .str text => .ok (distinct (text.toList.map fun c ↦ .str c.toString))
  | .obj fields => .ok (fields.map fun field ↦ .str field.1)
  | _ => .error (.interpreter "TypeError")

/-- `sorted(values)`, which compares numbers with numbers and texts with texts only. -/
def sortedSet (values : List Json) : Except Exc (List Json) :=
  match values.mapM rank, values.mapM fun | .str s => some s | _ => none with
  | some _, _ =>
    .ok (values.mergeSort fun a b ↦
      let (i, p) := (rank a).getD (0, 0)
      let (j, q) := (rank b).getD (0, 0)
      i < j || (i == j && decide (p ≤ q)))
  | none, some texts => .ok ((texts.mergeSort fun s t ↦ decide (s ≤ t)).map .str)
  | none, none => if values.length ≤ 1 then .ok values else .error (.interpreter "TypeError")

/-! ### The attempt -/

/-- The port: the one asked for, or that of the scheme. -/
def httpPort (params scheme : Json) : Except Exc Json := do
  let port ← getField params "port"
  if port.truthy then return port
  match scheme with
  | .str "http" => return .int 80
  | .str "https" => return .int 443
  | .arr _ | .obj _ => .error (.interpreter "TypeError")
  | _ => .error (.interpreter "KeyError")

/-- The path, with a slash in front. -/
def httpPath (params : Json) : Except Exc String := do
  match ← getOr params "path" (.str "/") with
  | .str path => return if path.startsWith "/" then path else "/" ++ path
  | _ => .error (.interpreter "AttributeError")

/-- The method, as far as it may raise. -/
def httpMethod (params : Json) : Except Exc Unit := do
  match (← getField params "method").orElse (.str "GET") with
  | .str _ => return ()
  | _ => .error (.interpreter "AttributeError")

/-- The arguments of an attempt that what it returns depends on: the scheme, the port, the path, the
statuses expected and the expression for the body. -/
structure HttpArgs where
  /-- `scheme`. -/
  scheme : Json
  /-- `port`. -/
  port : Json
  /-- `path`. -/
  path : String
  /-- `expected_status`, as a set. -/
  expected : List Json
  /-- `expected_body_regex`. -/
  bodyRe : Json

/-- The reading of the parameters, in the order in which they may raise. -/
def httpArgs (params : Json) : Except Exc HttpArgs := do
  let scheme ← getOr params "scheme" (.str "http")
  let port ← httpPort params scheme
  let path ← httpPath params
  httpMethod params
  let expected ← setOf ((← getField params "expected_status").orElse (.arr [.int 200]))
  let bodyRe ← getField params "expected_body_regex"
  return ⟨scheme, port, path, expected, bodyRe⟩

/-- `f"{scheme}://{authority}:{port}{path}"` -/
def httpUrl (args : HttpArgs) (authority : String) : Json :=
  .str (str args.scheme ++ "://" ++ authority ++ ":" ++ str args.port ++ args.path)

/-- The outcome for a target that is refused. -/
def httpRefusal (args : HttpArgs) (target : String) : Outcome :=
  ⟨⟨.down, none, some "target address not permitted"⟩, [("url", httpUrl str args target)]⟩

/-- An IPv6 literal stands in brackets. -/
def bracketed (target : String) : String :=
  if ':' ∈ target.toList then "[" ++ target ++ "]" else target

/-- Whether the response is the one expected, and what there is to say of its body. -/
def responseExpected (args : HttpArgs) (resp : HttpResponse) :
    Except Exc (Bool × List (String × Json)) := do
  let ok := args.expected.any fun status ↦ sameElement status (.int resp.statusCode)
  if ok && args.bodyRe.truthy then
    if ← searchIn re args.bodyRe resp.text then return (true, [])
    return (false, [("body_mismatch", args.bodyRe)])
  return (ok, [])

/-- What an attempt makes of the response. -/
def httpJudge (args : HttpArgs) (url : Json) (resp : HttpResponse) : Except Exc Outcome := do
  let details := [("url", url), ("status_code", .int resp.statusCode),
    ("reason", .str resp.reasonPhrase)]
  let (ok, mismatch) ← responseExpected re args resp
  if ok then return ⟨⟨.up, some resp.elapsedMs, none⟩, details⟩
  let statuses ← sortedSet args.expected
  return ⟨⟨.degraded, some resp.elapsedMs, none⟩,
    details ++ mismatch ++ [("expected_status", .arr statuses)]⟩

/-- What the request comes to. -/
def httpOutcome (args : HttpArgs) (url : Json) : HttpReply → Except Exc Outcome
  | .raised _ .timeout => .ok ⟨⟨.down, none, some "timeout"⟩, [("url", url)]⟩
  | .raised _ (.http text name) => .ok (.down ⟨.other, text, name⟩ [("url", url)])
  | .raised _ (.other e) => .error e
  | .response resp => httpJudge re args url resp

/-- `HttpChecker.run`. -/
def httpRun (policy : Policy) (params : Json) (target : String) (timeoutMs : ℤ)
    (reply : HttpReply) : Tried :=
  match httpArgs params with
  | .error e => .raised e
  | .ok args =>
    if policy.targetBlocked target then ⟨.none, .ok (httpRefusal str args target)⟩
    else
      match checkTimeout timeoutMs with
      | .error e => .raised e
      | .ok () =>
        ⟨reply.contact, httpOutcome re args (httpUrl str args (bracketed target)) reply⟩

end Checks
