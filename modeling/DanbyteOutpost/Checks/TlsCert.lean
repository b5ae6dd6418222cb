import DanbyteOutpost.Checks.Checker
import DanbyteOutpost.Checks.NetGuard

/-!
# The certificate collector

`tls_cert`: `collect_chain` and `TlsCertChecker`. The resolver, the connections and the handshakes
are given, and so is what the X.509 library reads in a certificate. A collection asks the resolver
up to three times: for the policy, and for either pass of the handshake.

## The order of things

* `targetRefusal`: the policy, on every address the name has at that moment.
* `handshake`: try the addresses the name has now until one takes the connection, and shake hands
  there, with verification or without.
* `readChain`: the verifying handshake, and where that fails on the certificate, the reading one.
* `observe`: the members of the chain that can be parsed, and the summary by the first of them.
* `tlsOutcome`: the status and the details.

Every function says which addresses it dialled besides what it returns, so that the policy can be
held against the connections that were made (`Collected.dialled`).
-/

namespace Checks

/-- `socket.getaddrinfo`: the addresses of a host, as text. -/
abbrev Resolver := Except Exc (List String)

/-- The two handshakes: with the system trust store, and without verification. -/
inductive Pass
  /-- `_verifying_context()`; `reading` is `_reading_context()`. -/
  | verifying | reading
  deriving DecidableEq

/-- `ssl.SSLCertVerificationError` with its message, another `ssl.SSLError`, another `OSError`, or
something else; `shown` is `str(e) or type(e).__name__`. -/
inductive TlsExc
  /-- The certificate was not accepted. -/
  | verification (message : String)
  /-- The handshake failed for another reason. -/
  | tls (shown : String)
  /-- The connection failed. -/
  | os (shown : String)
  /-- What a collection has no clause for. -/
  | other (e : Exc)

/-- What a handshake shows: the chain as presented, the leaf, and the session. -/
structure TlsSession where
  /-- `get_unverified_chain()`, in DER; empty on an interpreter that has no such method. -/
  presented : List (List ℕ)
  /-- `getpeercert(binary_form=True)`. -/
  leaf : Option (List ℕ)
  /-- `version()`. -/
  version : Option String
  /-- The name in `cipher()`. -/
  cipher : Option String

/-- What `parse_certificate` reads in a certificate; the moments are in seconds. -/
structure X509 where
  /-- `not_valid_before_utc`. -/
  notBefore : ℚ
  /-- `not_valid_after_utc`. -/
  notAfter : ℚ
  /-- `self_signed`. -/
  selfSigned : Bool
  /-- Everything else, as a result carries it. -/
  fields : List (String × Json)

/-- What a collection meets: the resolver's answers, the connections, the handshakes, the
certificates and the time. -/
structure TlsIo where
  /-- What the name has when the policy looks it up. -/
  policyLookup : Resolver
  /-- What it has at each handshake. -/
  lookup : Pass → Resolver
  /-- Whether an address takes the connection. -/
  connect : Pass → String → Except Exc Unit
  /-- How the handshake ends on a connection. -/
  handshake : Pass → Except TlsExc TlsSession
  /-- What `parse_certificate` returns or raises. -/
  x509 : List ℕ → Except Exc X509
  /-- `datetime.now(UTC)`, in seconds. -/
  now : ℚ
  /-- Whether the worker thread is back before `wait_for` gives up. -/
  inTime : Bool

/-! ### The policy -/

/-- Addresses this collector never dials. -/
def neverDialled (addr : IpAddress) : Bool :=
  addr.isLoopback || addr.isLinkLocal || addr.isUnspecified || addr.isMulticast

/-- The loop of `target_allowed`; `some reason` where an address is refused. -/
def refusalIn (policy : Policy) (allowPrivate : Bool) : List String → Except Exc (Option String)
  | [] => .ok none
  | info :: infos =>
    match IpAddress.ofText info with
    | none => .error ⟨.value, "", "ValueError"⟩
    | some addr =>
      if neverDialled addr then
        .ok (some (info ++ " is loopback/link-local/multicast - not an inventory target"))
      else if !allowPrivate && policy.addressBlocked addr then
        .ok (some "target address not permitted")
      else refusalIn policy allowPrivate infos

/-- `target_allowed(host, allow_private=…)`; `none` is `(True, "")`. -/
def targetRefusal (policy : Policy) (allowPrivate : Bool) (host : String) (lookup : Resolver) :
    Except Exc (Option String) :=
  match lookup with
  | .error e =>
    if e.isOs then .ok (some ("cannot resolve " ++ host ++ ": " ++ e.text)) else .error e
  | .ok infos => refusalIn policy allowPrivate infos

/-! ### The handshakes -/

/-- The addresses `socket.create_connection` tries, in order up to one that connects, and what it
ends in. -/
def tryAddresses (connect : String → Except Exc Unit) (last : Exc) :
    List String → List String × Except Exc Unit
  | [] => ([], .error last)
  | addr :: addrs =>
    match connect addr with
    | .ok () => ([addr], .ok ())
    | .error e =>
      if e.isOs then
        let (dialled, result) := tryAddresses connect e addrs
        (addr :: dialled, result)
      else ([addr], .error e)

/-- `socket.create_connection`. -/
def createConnection (lookup : Resolver) (connect : String → Except Exc Unit) :
    List String × Except Exc Unit :=
  match lookup with
  | .error e => ([], .error e)
  | .ok addrs => tryAddresses connect ⟨.os, "getaddrinfo returns an empty list", "OSError"⟩ addrs

/-- An exception of the connection, as the `except` clauses of a collection tell it apart. -/
def TlsExc.ofConnect (e : Exc) : TlsExc := if e.isOs then .os e.shown else .other e

/-- `_handshake`: the addresses dialled, how far it got, and the session. -/
def handshake (io : TlsIo) (pass : Pass) : List String × Contact × Except TlsExc TlsSession :=
  match createConnection (io.lookup pass) (io.connect pass) with
  | (dialled, .error e) => (dialled, .failed (dialled ≠ []), .error (.ofConnect e))
  | (dialled, .ok ()) => (dialled, .established, io.handshake pass)

/-- The chain: what is presented, or the leaf. -/
def TlsSession.chain (session : TlsSession) : List (List ℕ) :=
  if session.presented = [] then session.leaf.toList.filter (· ≠ []) else session.presented

/-! ### Collection -/

inductive Validity
  | verified | unverified | unknown
  deriving DecidableEq

inductive ErrorKind
  | policy | connect | tls
  deriving DecidableEq

/-- A certificate of the chain and its position. -/
structure Certificate extends X509 where
  /-- Its position in the chain as presented. -/
  chainDepth : ℕ

/-- What is said of a chain that is not empty. -/
structure Summary where
  /-- The leaf is no longer valid. -/
  expired : Bool
  /-- The leaf is not yet valid. -/
  notYetValid : Bool
  /-- The leaf is signed by itself. -/
  selfSigned : Bool
  /-- To two places. -/
  expiresInDays : ℚ
  /-- `""` where the session has none. -/
  tlsVersion : String
  /-- `""` where the session has none. -/
  cipher : String

/-- An observation. -/
structure Observation where
  /-- The target. -/
  host : String
  /-- Its port. -/
  port : ℤ
  /-- The name that is asked for. -/
  serverName : Json
  /-- Whether the chain was verified, read without, or not read. -/
  validity : Validity
  /-- What the verifying handshake had against the chain. -/
  verifyError : String
  /-- `none` is the empty text. -/
  errorKind : Option ErrorKind
  /-- Why there is no chain. -/
  error : String
  /-- The members that could be parsed. -/
  chain : List Certificate
  /-- What is said of a chain; `none` where there is none. -/
  summary : Option Summary

/-- `_empty(host, port, server_name, kind, error)`. -/
def Observation.empty (host : String) (port : ℤ) (serverName : Json) (kind : ErrorKind)
    (error : String) : Observation :=
  ⟨host, port, serverName, .unknown, "", some kind, error, [], none⟩

/-- The certificates that can be parsed; only a `ValueError` leaves one out. -/
def parseChain (x509 : List ℕ → Except Exc X509) : ℕ → List (List ℕ) → Except Exc (List Certificate)
  | _, [] => .ok []
  | depth, der :: chain =>
    match x509 der with
    | .error e => if e.cls = .value then parseChain x509 (depth + 1) chain else .error e
    | .ok cert => do return ⟨cert, depth⟩ :: (← parseChain x509 (depth + 1) chain)

/-- `round(value, 2)`, of the value itself and not of the nearest float. -/
def roundTwo (value : ℚ) : ℚ :=
  let n := ⌊value * 100⌋
  let rest := value * 100 - n
  if rest < 1 / 2 ∨ (rest = 1 / 2 ∧ n % 2 = 0) then n / 100 else (n + 1) / 100

/-- What the leaf and the session say. -/
def summaryOf (leaf : Certificate) (session : TlsSession) (now : ℚ) : Summary where
  expired := leaf.notAfter ≤ now
  notYetValid := now < leaf.notBefore
  selfSigned := leaf.selfSigned
  expiresInDays := roundTwo ((leaf.notAfter - now) / 86400)
  tlsVersion := session.version.getD ""
  cipher := session.cipher.getD ""

/-- The end of a collection: the chain is parsed, and summed up by its leaf. -/
def observe (io : TlsIo) (host : String) (port : ℤ) (serverName : Json) (validity : Validity)
    (verifyError : String) (session : TlsSession) : Except Exc Observation := do
  match ← parseChain io.x509 0 session.chain with
  | [] => return .empty host port serverName .tls "no parsable certificate presented"
  | leaf :: certs =>
    return ⟨host, port, serverName, validity, verifyError, none, "", leaf :: certs,
      some (summaryOf leaf session io.now)⟩

/-- The outcome of a collection: the addresses it dialled, how far it got, and what it returns. -/
structure Collected where
  /-- In order, those of both handshakes. -/
  dialled : List String
  /-- How far the verifying handshake got. -/
  contact : Contact
  /-- The observation, or what the collection raises. -/
  result : Except Exc Observation

/-- The second pass, which only reads the chain. -/
def readUnverified (io : TlsIo) (host : String) (port : ℤ) (serverName : Json)
    (verifyError : String) : List String × Except Exc Observation :=
  let (dialled, _, session) := handshake io .reading
  match session with
  | .ok session => (dialled, observe io host port serverName .unverified verifyError session)
  | .error (.other e) => (dialled, .error e)
  | .error (.verification shown) | .error (.tls shown) | .error (.os shown) =>
    (dialled, .ok (.empty host port serverName .tls shown))

/-- `collect_chain` once its target is allowed. -/
def readChain (io : TlsIo) (host : String) (port : ℤ) (serverName : Json) : Collected :=
  let (dialled, contact, session) := handshake io .verifying
  match session with
  | .ok session => ⟨dialled, contact, observe io host port serverName .verified "" session⟩
  | .error (.verification message) =>
    let (dialled', result) := readUnverified io host port serverName message
    ⟨dialled ++ dialled', contact, result⟩
  | .error (.tls shown) => ⟨dialled, contact, .ok (.empty host port serverName .tls shown)⟩
  | .error (.os shown) => ⟨dialled, contact, .ok (.empty host port serverName .connect shown)⟩
  | .error (.other e) => ⟨dialled, contact, .error e⟩

/-- `collect_chain(host, port, …)`; a server name that says nothing is the host. -/
def collectChain (policy : Policy) (allowPrivate : Bool) (io : TlsIo) (host : String) (port : ℤ)
    (serverName : Json) : Collected :=
  let serverName := serverName.orElse (.str host)
  match targetRefusal policy allowPrivate host io.policyLookup with
  | .error e => ⟨[], .none, .error e⟩
  | .ok (some reason) => ⟨[], .none, .ok (.empty host port serverName .policy reason)⟩
  | .ok none => readChain io host port serverName

/-! ### The checker -/

/-- The arguments of an attempt. What `int(port)` raises is raised again where it is handled. -/
def tlsArgs (params : Json) (timeoutMs : ℤ) : Except Exc (ℤ × Json) := do
  let port := (← getField params "port").orElse (.int 443)
  let serverName := (← getField params "server_name").orElse .null
  checkTimeout timeoutMs
  return (← intOf port, serverName)

/-- The status of an observation. -/
def Observation.status (obs : Observation) : FastLane.Status :=
  match obs.validity with
  | .unknown => if obs.errorKind = some .policy then .unknown else .down
  | validity =>
    let outside := fun (s : Summary) ↦ s.expired || s.notYetValid
    if validity ≠ .verified ∨ obs.summary.any outside then .degraded else .up

/-- As it is reported. -/
def Validity.text : Validity → String
  | .verified => "verified"
  | .unverified => "unverified"
  | .unknown => "unknown"

/-- As it is reported. -/
def ErrorKind.text : ErrorKind → String
  | .policy => "policy"
  | .connect => "connect"
  | .tls => "tls"

/-- A member of the chain as details. -/
def Certificate.shown (cert : Certificate) : Json :=
  .obj (cert.fields ++
    [("chain_depth", .int cert.chainDepth), ("self_signed", .bool cert.selfSigned)])

/-- The summary as details. -/
def Summary.shown (s : Summary) : List (String × Json) :=
  [("expired", .bool s.expired), ("not_yet_valid", .bool s.notYetValid),
    ("self_signed", .bool s.selfSigned), ("expires_in_days", .float (some s.expiresInDays) ""),
    ("tls_version", .str s.tlsVersion), ("cipher", .str s.cipher)]

/-- An observation as details, its error aside. -/
def Observation.shown (obs : Observation) : List (String × Json) :=
  [("host", .str obs.host), ("port", .int obs.port), ("server_name", obs.serverName),
    ("validity", .str obs.validity.text), ("verify_error", .str obs.verifyError),
    ("error_kind", .str ((obs.errorKind.map ErrorKind.text).getD "")),
    ("chain", .arr (obs.chain.map Certificate.shown)), ("chain_length", .int obs.chain.length)] ++
  (obs.summary.map Summary.shown).getD []

/-- `CheckOutcome(status, None, obs)`. -/
def Observation.outcome (obs : Observation) (status : FastLane.Status) : Outcome :=
  ⟨⟨status, none, saying obs.error⟩, obs.shown⟩

/-- What the checker makes of the collection, when its thread is back. -/
def tlsOutcome (target : String) (port : ℤ) : Except Exc Observation → Outcome
  | .ok obs => obs.outcome obs.status
  | .error e => .unknownWith ("tls_cert error: " ++ e.text)
      [("host", .str target), ("port", .int port)]

/-- `TlsCertChecker.run`. -/
def tlsRun (policy : Policy) (params : Json) (target : String) (timeoutMs : ℤ) (io : TlsIo) :
    Tried :=
  match tlsArgs params timeoutMs with
  | .error e => .raised e
  | .ok (port, serverName) =>
    let got := collectChain policy false io target port serverName
    if io.inTime then ⟨got.contact, .ok (tlsOutcome target port got.result)⟩
    else
      let late := Observation.empty target port (serverName.orElse (.str target)) .connect "timeout"
      ⟨got.contact, .ok (late.outcome .down)⟩

end Checks
