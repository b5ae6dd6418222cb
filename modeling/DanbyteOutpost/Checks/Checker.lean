import DanbyteOutpost.Checks.RunCheck
import DanbyteOutpost.Data.HexText

/-!
# What checkers have in common

The exceptions their `except` clauses tell apart, what one attempt leaves behind (`Tried`), and the
readings of `params` they share. Regular expressions and what the network does are given; a text
that only the interpreter could know, such as that of a `TypeError`, is left empty.

## Attempts

An attempt leaves behind what `run` returns or raises, and besides it how far the attempt got with
its target, which the code does not return: `Contact`. What is refused by policy must not have
touched the target, and `down` is meant for targets no connection could be made to, so that both
need it.

## Exceptions

`ExcClass` has a constructor for each class some `except` clause of a checker names, and `other`
for the rest. The classes are disjoint; `Exc.isOs` is the hierarchy as far as a clause can see it.
-/

namespace Checks

open PyText

/-! ### Exceptions -/

/-- The classes of exceptions that are told apart; `os` is any other `OSError`. -/
inductive ExcClass
  | refused | timeout | os | denied | ssh | keyImport | value | other
  deriving DecidableEq

/-- An exception: `str(e)`, and the name of its type. -/
structure Exc where
  /-- The class, as the `except` clauses tell it apart. -/
  cls : ExcClass
  /-- `str(e)`. -/
  text : String
  /-- `type(e).__name__`. -/
  name : String

/-- `str(e) or type(e).__name__`. -/
def Exc.shown (e : Exc) : String := if e.text = "" then e.name else e.text

/-- An `OSError`, which `ConnectionRefusedError` and `TimeoutError` are too. -/
def Exc.isOs (e : Exc) : Bool :=
  match e.cls with
  | .refused | .timeout | .os => true
  | _ => false

/-- An exception of the interpreter that no checker has a clause of its own for. -/
def Exc.interpreter (name : String) : Exc := ⟨.other, "", name⟩

/-- `CheckConfigError(text)`. -/
def Exc.config (text : String) : Exc := ⟨.value, text, "CheckConfigError"⟩

/-! ### Attempts -/

/-- How far an attempt got with its target: it did not ask the network, or its connection attempt
raised (after it had sent something, or before), or it had its connection. -/
inductive Contact
  /-- It never came to that. -/
  | none
  /-- It has no connection. -/
  | failed (sent : Bool)
  /-- It has one, or was answered. -/
  | established
  deriving DecidableEq

/-- Something was sent to the target. -/
def Contact.touched : Contact → Bool
  | .none => false
  | .failed sent => sent
  | .established => true

/-- What `run` leaves behind: how far it got, and what it returns or raises. -/
structure Tried where
  /-- How far it got with the target. -/
  contact : Contact
  /-- What it returns, or raises. -/
  result : Except Exc Outcome

/-- An attempt that raised before it asked the network for anything. -/
def Tried.raised (e : Exc) : Tried := ⟨.none, .error e⟩

/-- A text in `detail["error"]`, if it says something. -/
def saying (text : String) : Option String := if text = "" then none else some text

/-- `CheckOutcome("down", None, {…, "error": str(e) or type(e).__name__})`. -/
def Outcome.down (e : Exc) (details : List (String × Json)) : Outcome :=
  ⟨⟨.down, none, saying e.shown⟩, details⟩

/-- `CheckOutcome.unknown(text, …)`. -/
def Outcome.unknownWith (text : String) (details : List (String × Json)) : Outcome :=
  ⟨.unknown text, details⟩

/-! ### Parameters -/

/-- Regular expressions: what `re.compile` says of a pattern it does not take, and whether
`re.search` finds one it takes. -/
structure Regex where
  /-- The text of the `re.error`, `none` where there is none. -/
  compile : String → Option String
  /-- Of an expression and a text. -/
  search : String → String → Bool

/-- `params.get(key)`. -/
def getField (params : Json) (key : String) : Except Exc Json :=
  match params.get? key with
  | none => .error (.interpreter "AttributeError")
  | some value => .ok (value.getD .null)

/-- `params.get(key, default)`. -/
def getOr (params : Json) (key : String) (default : Json) : Except Exc Json :=
  match params.get? key with
  | none => .error (.interpreter "AttributeError")
  | some value => .ok (value.getD default)

/-- `int(value)`. -/
def intOf (value : Json) : Except Exc ℤ :=
  match value.pyInt with
  | none => .error (.interpreter "TypeError")
  | some n => .ok n

/-- `int(params.get("port", default))`. -/
def portParam (params : Json) (default : ℤ) : Except Exc ℤ :=
  match params.get? "port" with
  | none => .error (.interpreter "AttributeError")
  | some port =>
    match (port.getD (.int default)).pyInt with
    | none => .error (.interpreter "TypeError")
    | some n => .ok n

/-- `require_port(params)`; an infinite number is not what its `except` clause is for. -/
def requirePort (params : Json) : Except Exc ℤ := do
  match ← getField params "port" with
  | .null => .error (.config "'port' is required")
  | .float none text =>
    if text = "nan" then .error (.config "'port' must be an integer")
    else .error (.interpreter "OverflowError")
  | raw =>
    match raw.pyInt with
    | none => .error (.config "'port' must be an integer")
    | some port =>
      if 1 ≤ port ∧ port ≤ 65535 then .ok port
      else .error (.config "'port' must be between 1 and 65535")

/-- `timeout_ms / 1000` is too large for a float. -/
def overflows (timeoutMs : ℤ) : Bool := 1000 * (2 ^ 1024 - 2 ^ 970) ≤ |timeoutMs|

/-- `timeout_ms / 1000`, as far as it may raise. -/
def checkTimeout (timeoutMs : ℤ) : Except Exc Unit :=
  if overflows timeoutMs then .error (.interpreter "OverflowError") else .ok ()

/-- `re.compile(pattern)`, with the message for a pattern it does not take. -/
def checkPattern (re : Regex) (message : String) : Json → Except Exc Unit
  | .str pattern =>
    match re.compile pattern with
    | none => .ok ()
    | some e => .error (.config (message ++ e))
  | _ => .error (.interpreter "TypeError")

/-- `re.search(pattern, text) is not None`. -/
def searchIn (re : Regex) (pattern : Json) (text : String) : Except Exc Bool :=
  match pattern with
  | .str pattern =>
    match re.compile pattern with
    | none => .ok (re.search pattern text)
    | some e => .error ⟨.other, e, "error"⟩
  | _ => .error (.interpreter "TypeError")

/-- `raw.decode("utf-8", "replace")`. -/
def decoded (raw : List ℕ) : String := String.ofList (decodeUtf8 0 0 0 0 raw)

/-- `text[:200]`. -/
def shortened (text : String) : Json := .str (String.ofList (text.toList.take 200))

end Checks
