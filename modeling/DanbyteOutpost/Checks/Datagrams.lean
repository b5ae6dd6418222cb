import DanbyteOutpost.Checks.Checker

/-!
# Checkers that send datagrams

`IcmpChecker`, `UdpChecker` and `SnmpChecker`. The libraries below them are given: what they raise
or return, and whether they had sent anything by then. How a value compares as a float, and
`str(value)` of a parameter, are given as well.

## What is inside the `try`

The ICMP checker compares the round trip with its thresholds behind its `try`, and so raises on a
threshold that is no number. The UDP checker has everything inside but its parameters and the
opening of its socket. The SNMP checker judges the answer behind its `try`, where a second `try`
around the comparison names two classes of exceptions and lets an `OverflowError` through. What
each of the libraries can leave behind is an inductive type of its own, with how far it got
(`Ping.contact`, `SnmpReply.contact`).
-/

namespace Checks

variable (re : Regex) (str : Json → String)

/-! ### ICMP -/

/-- What `async_ping` returns: the numbers that are looked at, and all of them as they are shown. -/
structure PingHost where
  /-- `packets_sent`. -/
  packetsSent : ℕ
  /-- `is_alive`: an answer came back. -/
  isAlive : Bool
  /-- `avg_rtt`, in milliseconds. -/
  avgRtt : ℚ
  /-- `packet_loss`, of 1. -/
  packetLoss : ℚ
  /-- The details a result carries. -/
  shown : List (String × Json)

/-- What it raises: `SocketPermissionError`, another `ICMPLibError`, `OSError` or `TimeoutError`, or
something else. -/
inductive PingExc
  /-- The process may not open a raw socket. -/
  | permission (text : String)
  /-- What the checker has a clause for. -/
  | caught (text : String)
  /-- What it has none for. -/
  | other (e : Exc)

/-- How a ping ends: an exception (after it had sent something, or before), or a host. -/
inductive Ping
  /-- It raised. -/
  | raised (sent : Bool) (e : PingExc)
  /-- It returned a host, alive or not. -/
  | host (h : PingHost)

/-- How far a ping got. One that returns a host has its answer only if it sent something. -/
def Ping.contact : Ping → Contact
  | .raised sent _ => .failed sent
  | .host h => if h.packetsSent = 0 then .none else .established

/-- The arguments of a ping, as far as they may raise. -/
def icmpArgs (params : Json) (timeoutMs : ℤ) : Except Exc ℤ := do
  let count ← intOf (← getOr params "count" (.int 2))
  checkTimeout timeoutMs
  return count

/-- `threshold is not None and value > threshold`. -/
def exceeds (value : ℚ) : Json → Except Exc Bool
  | .null => .ok false
  | .bool b => .ok (decide ((if b then 1 else 0) < value))
  | .int n => .ok (decide (n < value))
  | .float (some q) _ => .ok (decide (q < value))
  | .float none text => .ok (text = "-inf")
  | _ => .error (.interpreter "TypeError")

/-- Whether a host that answers is slow, or loses packets. -/
def pingDegraded (params : Json) (host : PingHost) : Except Exc Bool := do
  let threshold ← getField params "latency_degraded_ms"
  let lossThreshold ← getField params "loss_degraded_pct"
  if ← exceeds host.avgRtt threshold then return true
  exceeds (host.packetLoss * 100) lossThreshold

/-- What the checker makes of it. -/
def pingOutcome (params : Json) : Ping → Except Exc Outcome
  | .raised _ (.permission text) => .ok (.unknown ("icmp socket permission: " ++ text))
  | .raised _ (.caught text) => .ok (.unknown ("icmp error: " ++ text))
  | .raised _ (.other e) => .error e
  | .host h => do
    if !h.isAlive then return ⟨⟨.down, none, none⟩, h.shown⟩
    let degraded ← pingDegraded params h
    return ⟨⟨if degraded then .degraded else .up, some h.avgRtt, none⟩, h.shown⟩

/-- `IcmpChecker.run`. -/
def icmpRun (params : Json) (timeoutMs : ℤ) (ping : Ping) : Tried :=
  match icmpArgs params timeoutMs with
  | .error e => .raised e
  | .ok _ => ⟨ping.contact, pingOutcome params ping⟩

/-! ### UDP -/

/-- What a UDP attempt meets: `socket()`, `sock_connect`, `sock_sendall`, and `sock_recv` with the
time of its reply. -/
structure UdpIo where
  /-- A socket of the system. -/
  socket : Except Exc Unit
  /-- The target's address is set, and its name looked up. -/
  connect : Except Exc Unit
  /-- The datagram. -/
  send : Except Exc Unit
  /-- The reply. -/
  recv : Except Exc (ℚ × List ℕ)

/-- The arguments of an attempt. -/
def udpArgs (params : Json) (timeoutMs : ℤ) : Except Exc (ℤ × Json × Json) := do
  let port ← requirePort params
  let send ← getField params "send"
  let expect ← getField params "expect"
  checkTimeout timeoutMs
  return (port, send, expect)

/-- The send of the probe, which is empty where there is nothing to be sent. -/
def sendProbe (send : Json) (io : UdpIo) : Except Exc Unit :=
  match send with
  | .str _ => io.send
  | send => if send.truthy then .error (.interpreter "TypeError") else io.send

/-- What an attempt makes of a reply. -/
def udpJudge (port : ℤ) (expect : Json) (latencyMs : ℚ) (raw : List ℕ) : Except Exc Outcome := do
  let banner := decoded raw
  let details := [("port", .int port), ("reply", shortened banner)]
  match expect with
  | .null => return ⟨⟨.up, some latencyMs, none⟩, details⟩
  | expect =>
    if ← searchIn re expect banner then return ⟨⟨.up, some latencyMs, none⟩, details⟩
    return ⟨⟨.degraded, some latencyMs, none⟩, details ++ [("expected", expect)]⟩

/-- What an attempt does with its connected socket. -/
def udpTalk (port : ℤ) (send expect : Json) (io : UdpIo) : Except Exc Outcome := do
  sendProbe send io
  match io.recv with
  | .ok (latencyMs, raw) => udpJudge re port expect latencyMs raw
  | .error e =>
    if e.cls = .timeout then
      return .unknownWith "no reply (udp open|filtered)"
        [("port", .int port), ("probed", .bool send.truthy)]
    .error e

/-- The `except` clauses; there is none for what is no `OSError`. -/
def onUdpError (port : ℤ) (e : Exc) : Except Exc Outcome :=
  if e.cls = .refused then
    .ok ⟨⟨.down, none, some "port unreachable"⟩, [("port", .int port)]⟩
  else if e.isOs then .ok (.unknownWith ("udp error: " ++ e.text) [("port", .int port)])
  else .error e

/-- The `try`. -/
def udpTry (port : ℤ) (send expect : Json) (io : UdpIo) : Tried :=
  match io.connect with
  | .error e => ⟨.failed false, onUdpError port e⟩
  | .ok () => ⟨.established, (udpTalk re port send expect io).tryCatch (onUdpError port)⟩

/-- `UdpChecker.run`. -/
def udpRun (params : Json) (timeoutMs : ℤ) (io : UdpIo) : Tried :=
  match udpArgs params timeoutMs with
  | .error e => .raised e
  | .ok (port, send, expect) =>
    match io.socket with
    | .error e => .raised e
    | .ok () => udpTry re port send expect io

/-! ### SNMP -/

/-- What `get_cmd` ends in: an exception or an error indication (after something was sent, or
before), an error status, or bindings with their names and their values, as text. -/
inductive SnmpReply
  /-- `get_cmd` raised. -/
  | raised (sent : Bool) (text : String)
  /-- An error indication: no response, or none that could be used. -/
  | indication (sent : Bool) (text : String)
  /-- A response with an error status. -/
  | status (text : String)
  /-- A response with its bindings. -/
  | binds (values : List (String × String))

/-- How far a request got: a response with an error status is one, too. -/
def SnmpReply.contact : SnmpReply → Contact
  | .raised sent _ | .indication sent _ => .failed sent
  | .status _ | .binds _ => .established

/-- What an SNMP attempt meets: the import of pysnmp, the credentials, the transport and the
request; and what `_compare` says of the value, a comparator and what is expected, when both are
floats. -/
structure SnmpIo where
  /-- The import; its text is that of the `ImportError`. -/
  load : Except String Unit
  /-- The credentials. -/
  auth : Except String Unit
  /-- The transport. -/
  transport : Except String Unit
  /-- The request. -/
  get : SnmpReply
  /-- What `float` makes of both, and what the comparator says of them. -/
  compare : Json → Json → Except Exc Bool

/-- The arguments of an attempt: the object asked for. The port and the timeout may raise. -/
def snmpArgs (params : Json) (timeoutMs : ℤ) : Except Exc Json := do
  let _ ← portParam params 161
  let oid ← getOr params "oid" (.str "1.3.6.1.2.1.1.3.0")
  checkTimeout timeoutMs
  return oid

/-- Whether the value is the one expected: as a float, else as text. -/
def valueExpected (io : SnmpIo) (comparator expected : Json) (value : String) : Except Exc Bool :=
  match io.compare comparator expected with
  | .ok ok => .ok ok
  | .error e =>
    if e.cls = .value ∨ e.name = "TypeError" then .ok (value = str expected) else .error e

/-- What an attempt makes of its reply. -/
def snmpJudge (params oid : Json) (io : SnmpIo) : SnmpReply → Except Exc Outcome
  | .raised _ text => .ok (.unknown ("snmp error: " ++ text))
  | .indication _ text => .ok ⟨⟨.down, none, saying text⟩, [("oid", oid)]⟩
  | .status text => .ok (.unknown ("snmp pdu error: " ++ text))
  | .binds [] => .error (.interpreter "IndexError")
  | .binds ((name, value) :: _) => do
    let details := [("oid", .str name), ("value", .str value)]
    match ← getField params "expected_value" with
    | .null => return ⟨⟨.up, none, none⟩, details⟩
    | expected =>
      let comparator ← getOr params "comparator" (.str "eq")
      if ← valueExpected str io comparator expected value then
        return ⟨⟨.up, none, none⟩, details⟩
      return ⟨⟨.degraded, none, none⟩,
        details ++ [("expected", expected), ("comparator", comparator)]⟩

/-- The `try`: the credentials, the transport and the request. -/
def snmpTry (params oid : Json) (io : SnmpIo) : Tried :=
  match io.auth, io.transport with
  | .ok (), .ok () => ⟨io.get.contact, snmpJudge str params oid io io.get⟩
  | .ok (), .error text => ⟨.failed false, .ok (.unknown ("snmp error: " ++ text))⟩
  | .error text, _ => ⟨.none, .ok (.unknown ("snmp error: " ++ text))⟩

/-- `SnmpChecker.run`. -/
def snmpRun (params : Json) (timeoutMs : ℤ) (io : SnmpIo) : Tried :=
  match io.load with
  | .error text => ⟨.none, .ok (.unknown ("pysnmp unavailable: " ++ text))⟩
  | .ok () =>
    match snmpArgs params timeoutMs with
    | .error e => .raised e
    | .ok oid => snmpTry str params oid io

end Checks
