import DanbyteOutpost.Coop.Coro
import DanbyteOutpost.Data.PyText
import Mathlib.Data.List.Lex
import Mathlib.Data.Rat.Defs

/-!
# Requests and replies

What passes between the agent's SNMP code and the device: the arguments of `bulk_cmd`, and what
comes out of the `await`. An OID is the list of its parts, whose order (`_oid_key`) is the
lexicographic one and whose text (`dotted`) the code only takes apart at its dots again.

`net` is the interface of a task that talks to a device: it asks a `Query` and gets a `Reply`,
takes readings of the clock (`Probe`, with the `Check` that says what for), and leaves marks of
whatever type the task needs. An exception from the `await` and an error in the response are both
replies.
-/

namespace Snmp

/-- An OID, or the part of one behind a column. -/
abbrev Oid := List ℕ

/-- An OID's text. -/
def dotted (oid : Oid) : String := ".".intercalate (oid.map toString)

/-- A value, with what `prettyPrint()` says of it; the other classes are ends of a column. -/
inductive Value
  /-- A value. -/
  | object (pretty : String)
  /-- `Null`. -/
  | null
  /-- `NoSuchObject`. -/
  | noSuchObject
  /-- `NoSuchInstance`. -/
  | noSuchInstance
  /-- `EndOfMibView`. -/
  | endOfMibView
  deriving DecidableEq

/-- The text of a value that `_is_end` does not take for a column's end. -/
def Value.text? : Value → Option String
  | object pretty => some pretty
  | null | noSuchObject | noSuchInstance | endOfMibView => none

/-- A variable binding. -/
structure Binding where
  /-- The OID. -/
  name : Oid
  /-- What is there. -/
  value : Value
  deriving DecidableEq

/-- An error indication: its class and its text. -/
structure ErrorIndication where
  /-- The name of its class. -/
  typeName : String
  /-- `str(e)`. -/
  text : String
  deriving DecidableEq

/-- `_is_timeout(error_indication)`. -/
def ErrorIndication.isTimeout (e : ErrorIndication) : Bool :=
  e.typeName = "RequestTimedOut" ||
    PyText.isInfix "timeout".toList (PyText.lower e.text).toList

/-- What the `await` of a request ends in: a response with its error indication, error status (and
what that prints as), error index and bindings; a `TimeoutError`; or another exception. -/
inductive Reply
  /-- It is answered. -/
  | response (indication : Option ErrorIndication) (status : ℤ) (statusText : String)
      (index : ℤ) (binds : List Binding)
  /-- `wait_for` has given it up. -/
  | timedOut
  /-- The library raises. -/
  | raised (text : String)
  deriving DecidableEq

/-- Credentials: `CommunityData`, or the `UsmUserData` of a profile. -/
inductive Auth
  /-- Of v1, with `mpModel` 0, or v2c, with 1. -/
  | community (name : String) (mpModel : ℕ)
  /-- Of v3. -/
  | usm
  deriving DecidableEq

/-- Credentials and the name of the context. -/
structure Access where
  /-- The credentials. -/
  auth : Auth
  /-- The context, `""` by default. -/
  contextName : String
  deriving DecidableEq

/-- A GETBULK request. -/
structure Query where
  /-- With what it is sent. -/
  access : Access
  /-- Behind which OIDs it asks, one for each open column. -/
  cursors : List Oid
  /-- For how many rows it asks. -/
  maxRep : ℤ
  deriving DecidableEq

/-- Where the code compares the clock with a budget's deadline: before a request, before a lookup
walk (`can_walk`), and at the gate of a VLAN's context. -/
inductive Check
  /-- In `_walk_columns`. -/
  | request
  /-- In `can_walk`. -/
  | lookup
  /-- In `one` of `_read_contexts`. -/
  | gate
  deriving DecidableEq

/-- A look at the clock: `budget.remaining() <= 0`. -/
structure Probe where
  /-- Where it is made. -/
  check : Check
  /-- With which deadline. -/
  deadline : ℚ
  deriving DecidableEq

/-- What the SNMP code does besides working on its state, marking its log with `M`. -/
abbrev net (M : Type) : Coop.Interface where
  Probe := Probe
  Query := Query
  Reply := Reply
  Mark := M

end Snmp
