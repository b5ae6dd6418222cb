import DanbyteOutpost.Checks.Checker

/-!
# Checkers that open a connection

`TcpChecker`, `TelnetChecker` and `SshChecker`. Each takes its arguments apart first, where it may
raise; then it connects and talks, and its `except` clauses cover both. What the network does in an
attempt is in its `StreamIo` or `SshIo`. Closing a stream raises nothing that is not swallowed;
leaving an SSH connection is inside the `try` and the timeout.

## The shape of a checker

* `tcpArgs`, `telnetArgs`, `sshArgs`: the part of `run` in front of its `try`. What is raised
  there leaves the checker, and the batch makes an `unknown` of it.
* `tcpTalk`, `telnetTalk`, `sshTalk`: what happens on an open connection.
* `streamTry`, `sshTry`: the `try` around both.

The TCP and the Telnet checker share their clauses (`onStreamError`). Only the Telnet checker
reads through `_strip_iac`, and catches a silent host before the clause that would make it `down`.
-/

namespace Checks

open PyText

variable (re : Regex)

/-! ### Streams -/

/-- How an attempt to connect ends; the latency is measured then. -/
inductive Dial
  /-- It raised; `sent` says whether something had gone out to the target. -/
  | raised (sent : Bool) (e : Exc)
  /-- There is a connection. -/
  | established (latencyMs : ℚ)

/-- What a TCP or Telnet attempt meets: the connection, `drain()` and `read(512)`. -/
structure StreamIo where
  /-- `asyncio.open_connection`. -/
  dial : Dial
  /-- `writer.drain()`, behind what is sent. -/
  drain : Except Exc Unit
  /-- `reader.read(512)`. -/
  read : Except Exc (List ℕ)

/-- `try: … except …`, where a clause takes every exception. -/
def caughtBy (handler : Exc → Outcome) : Except Exc Outcome → Outcome
  | .ok oc => oc
  | .error e => handler e

/-- The `except` clauses of both. -/
def onStreamError (kind : String) (port : ℤ) (e : Exc) : Outcome :=
  if e.isOs then .down e [("port", .int port)]
  else .unknownWith (kind ++ " error: " ++ e.text) [("port", .int port)]

/-- The `try` of both: connect, then `talk`. -/
def streamTry (kind : String) (port : ℤ) (io : StreamIo) (talk : ℚ → Except Exc Outcome) : Tried :=
  match io.dial with
  | .raised sent e => ⟨.failed sent, .ok (onStreamError kind port e)⟩
  | .established latencyMs =>
    ⟨.established, .ok (caughtBy (onStreamError kind port) (talk latencyMs))⟩

/-- The write of what is to be sent, and its `drain()`. -/
def writeOut (send : Json) (io : StreamIo) : Except Exc Unit :=
  match send with
  | .null => .ok ()
  | .str _ => io.drain
  | _ => .error (.interpreter "TypeError")

/-- The outcome when the banner is not the one expected. -/
def mismatch (port : ℤ) (latencyMs : ℚ) (banner : String) (expect : Json) : Outcome :=
  ⟨⟨.degraded, some latencyMs, none⟩,
    [("port", .int port), ("banner", shortened banner), ("expected", expect)]⟩

/-! ### TCP -/

/-- `TcpChecker.validate_params`. -/
def tcpValidate (params : Json) : Except Exc Unit := do
  let _ ← requirePort params
  match ← getField params "expect" with
  | .null => return ()
  | expect => checkPattern re "'expect' is not a valid regex: " expect

/-- The arguments of an attempt: the port, what is sent and what is expected. -/
def tcpArgs (params : Json) (timeoutMs : ℤ) : Except Exc (ℤ × Json × Json) := do
  let port ← requirePort params
  checkTimeout timeoutMs
  return (port, ← getField params "send", ← getField params "expect")

/-- What a TCP attempt makes of its connection, once what is to be sent is. -/
def tcpJudge (port : ℤ) (expect : Json) (io : StreamIo) (latencyMs : ℚ) : Except Exc Outcome :=
  match expect with
  | .null => .ok ⟨⟨.up, some latencyMs, none⟩, [("port", .int port)]⟩
  | expect => do
    let banner := decoded (← io.read)
    if ← searchIn re expect banner then
      return ⟨⟨.up, some latencyMs, none⟩, [("port", .int port), ("banner", shortened banner)]⟩
    return mismatch port latencyMs banner expect

/-- What a TCP attempt does with its connection. -/
def tcpTalk (port : ℤ) (send expect : Json) (io : StreamIo) (latencyMs : ℚ) :
    Except Exc Outcome := do
  writeOut send io
  tcpJudge re port expect io latencyMs

/-- `TcpChecker.run`. -/
def tcpRun (params : Json) (timeoutMs : ℤ) (io : StreamIo) : Tried :=
  match tcpArgs params timeoutMs with
  | .error e => .raised e
  | .ok (port, send, expect) => streamTry "tcp" port io (tcpTalk re port send expect io)

/-! ### Telnet -/

/-- `_strip_iac`, before it is decoded. -/
def stripIac : List ℕ → List ℕ
  | [] => []
  | 0xff :: _ :: _ :: rest => stripIac rest
  | 0xff :: _ => []
  | b :: rest => b :: stripIac rest

/-- `TelnetChecker.validate_params`. -/
def telnetValidate (params : Json) : Except Exc Unit := do
  match ← getField params "expect" with
  | .null => return ()
  | expect => checkPattern re "'expect' is not a valid regex: " expect

/-- The arguments of an attempt. -/
def telnetArgs (params : Json) (timeoutMs : ℤ) : Except Exc (ℤ × Json × Json) := do
  let port ← portParam params 23
  let send ← getField params "send"
  let expect ← getField params "expect"
  checkTimeout timeoutMs
  return (port, send, expect)

/-- The banner: `""` when none is read, and when the host stays silent. -/
def telnetBanner (send expect : Json) (io : StreamIo) : Except Exc String :=
  match send, expect with
  | .null, .null => .ok ""
  | _, _ =>
    match io.read with
    | .ok raw => .ok (decoded (stripIac raw))
    | .error e => if e.cls = .timeout then .ok "" else .error e

/-- Nothing is expected, or it is found in the banner. -/
def telnetFinds (expect : Json) (banner : String) : Except Exc Bool :=
  match expect with
  | .null => .ok true
  | expect => searchIn re expect banner

/-- What a Telnet attempt makes of the banner. -/
def telnetJudge (port : ℤ) (expect : Json) (latencyMs : ℚ) (banner : String) :
    Except Exc Outcome := do
  let found ← telnetFinds re expect banner
  if !found then return mismatch port latencyMs banner expect
  let details := if banner = "" then [] else [("banner", shortened banner)]
  return ⟨⟨.up, some latencyMs, none⟩, ("port", .int port) :: details⟩

/-- What a Telnet attempt does with its connection. -/
def telnetTalk (port : ℤ) (send expect : Json) (io : StreamIo) (latencyMs : ℚ) :
    Except Exc Outcome := do
  writeOut send io
  let banner ← telnetBanner send expect io
  telnetJudge re port expect latencyMs banner

/-- `TelnetChecker.run`. -/
def telnetRun (params : Json) (timeoutMs : ℤ) (io : StreamIo) : Tried :=
  match telnetArgs params timeoutMs with
  | .error e => .raised e
  | .ok (port, send, expect) => streamTry "telnet" port io (telnetTalk re port send expect io)

/-! ### SSH -/

/-- How `asyncssh.connect` ends; the host key is read off the connection. -/
inductive SshDial
  /-- It raised; `sent` says whether something had gone out to the target. -/
  | raised (sent : Bool) (e : Exc)
  /-- There is a connection, and the login has succeeded. -/
  | established (latencyMs : ℚ) (hostKey : Option Json)

/-- What an SSH attempt meets: `import_private_key`, the connection with its login, `conn.run` with
the exit status and the output, and leaving the connection. -/
structure SshIo where
  /-- Of the private key that is given. -/
  importKey : Except Exc Unit
  /-- The connection, with its login. -/
  dial : SshDial
  /-- The command that is given. -/
  command : Except Exc (Option ℤ × Option String)
  /-- What `async with` raises at its end, `none` where nothing. -/
  leave : Option Exc

/-- `SshChecker.validate_params`. -/
def sshValidate (params : Json) : Except Exc Unit := do
  match ← getField params "port" with
  | .null => pure ()
  | _ => let _ ← requirePort params
  let pattern ← getField params "expected_output_regex"
  if pattern.truthy then checkPattern re "'expected_output_regex' invalid: " pattern

/-- The arguments of an attempt that its course depends on: the port, the private key and the
command. -/
def sshArgs (params secretParams : Json) (timeoutMs : ℤ) : Except Exc (ℤ × Json × Json) := do
  let port ← portParam params 22
  let key ← getField secretParams "private_key"
  let command ← getField params "command"
  checkTimeout timeoutMs
  return (port, key, command)

/-- The `except` clauses around the connection. -/
def onSshError (port : ℤ) (e : Exc) : Outcome :=
  match e.cls with
  | .denied => ⟨⟨.degraded, none, saying e.text⟩, [("port", .int port), ("auth", .bool false)]⟩
  | .refused | .timeout | .os | .ssh => .down e [("port", .int port)]
  | .keyImport | .value | .other => .unknownWith ("ssh error: " ++ e.text) [("port", .int port)]

/-- Whether the exit status is the one expected. -/
def exitExpected (params : Json) (status : Option ℤ) : Except Exc Bool := do
  match ← getField params "expected_exit_code" with
  | .null => return true
  | code =>
    match code.pyInt with
    | none => .error (.interpreter "TypeError")
    | some n => return status = some n

/-- Whether the output is, and what there is to say of it. -/
def outputExpected (params : Json) (ok : Bool) (output : Option String) :
    Except Exc (Bool × List (String × Json)) := do
  let pattern ← getField params "expected_output_regex"
  if ok && pattern.truthy then
    if ← searchIn re pattern (output.getD "") then return (true, [])
    return (false, [("output_mismatch", pattern)])
  return (ok, [])

/-- What an SSH attempt does with its connection, up to leaving it. -/
def sshTalk (params : Json) (port : ℤ) (command : Json) (io : SshIo) (latencyMs : ℚ)
    (hostKey : Option Json) : Except Exc Outcome := do
  let key := hostKey.toList.map fun key ↦ ("host_key", key)
  if !command.truthy then
    return ⟨⟨.up, some latencyMs, none⟩, [("port", .int port), ("auth", .bool true)] ++ key⟩
  let (status, output) ← io.command
  let ok ← exitExpected params status
  let (ok, mismatch) ← outputExpected re params ok output
  return ⟨⟨if ok then .up else .degraded, some latencyMs, none⟩,
    [("port", .int port), ("command", command), ("exit_status", (status.map .int).getD .null)] ++
      key ++ mismatch⟩

/-- The outcome of the `async with`: what leaving the connection raises comes last. -/
def left (io : SshIo) (body : Except Exc Outcome) : Except Exc Outcome :=
  match io.leave with
  | some e => .error e
  | none => body

/-- `SshChecker.run` once its arguments are there. -/
def sshTry (params : Json) (port : ℤ) (command : Json) (io : SshIo) : Tried :=
  match io.dial with
  | .raised sent e => ⟨.failed sent, .ok (onSshError port e)⟩
  | .established latencyMs hostKey =>
    let body := left io (sshTalk re params port command io latencyMs hostKey)
    ⟨.established, .ok (caughtBy (onSshError port) body)⟩

/-- `SshChecker.run`. -/
def sshRun (params secretParams : Json) (timeoutMs : ℤ) (io : SshIo) : Tried :=
  match sshArgs params secretParams timeoutMs with
  | .error e => .raised e
  | .ok (port, key, command) =>
    if key.truthy then
      match io.importKey with
      | .ok () => sshTry re params port command io
      | .error e =>
        if e.cls = .keyImport ∨ e.cls = .value then
          ⟨.none, .ok (.unknown ("bad private_key: " ++ e.text))⟩
        else .raised e
    else sshTry re params port command io

end Checks
