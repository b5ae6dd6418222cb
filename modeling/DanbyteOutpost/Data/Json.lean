import Mathlib.Data.Rat.Defs
import DanbyteOutpost.Data.PyText

/-!
# JSON values as the agent's Python sees them

What `json.loads` builds, with the three readings the agent makes of a value it was handed: its
truth, `int(value)` and the lenient `_int`. A number with a fraction or an exponent is a float; one
outside the range of a float is read as an infinity, on which `int` raises.

The core sends what it likes, so every reader of it has to be total over this type. An object
keeps the order of its keys, each of which `json.loads` has left there once. A float is a rational
number here: it is compared with bounds, converted to an integer or handed on, and only where it
is added to does its format matter.
-/

/-- A decoded JSON value. -/
inductive Json
  | null
  | bool (b : Bool)
  | int (n : ℤ)
  /-- A float and its text; `none` when it is not finite. -/
  | float (q : Option ℚ) (text : String)
  | str (s : String)
  | arr (xs : List Json)
  | obj (fields : List (String × Json))

namespace Json

instance : Inhabited Json := ⟨null⟩

/-- `bool(value)`. -/
def truthy : Json → Bool
  | null => false
  | bool b => b
  | int n => n != 0
  | float (some q) _ => q != 0
  | float none _ => true
  | str s => !s.isEmpty
  | arr xs => !xs.isEmpty
  | obj fields => !fields.isEmpty

/-- `sys.int_info.default_max_str_digits`: a text with more digits is no number to `int`. -/
def maxStrDigits : ℕ := 4300

/-- `int(value)`; `none` when it raises. -/
def pyInt : Json → Option ℤ
  | bool b => some (if b then 1 else 0)
  | int n => some n
  | float (some q) _ => some (q.num.tdiv q.den)
  | str s =>
    if (PyText.intBody s.toList).countP Char.isDigit ≤ maxStrDigits then PyText.intOfText s
    else none
  | null | float none _ | arr _ | obj _ => none

/-- `value or default`. -/
def orElse (value default : Json) : Json := if value.truthy then value else default

/-- `value.get(key)`, `none` inside where there is nothing; `none` when the value is no object, and
has no `get`. -/
def get? : Json → String → Option (Option Json)
  | obj fields, key => some ((fields.find? fun field ↦ field.1 = key).map Prod.snd)
  | _, _ => none

end Json
