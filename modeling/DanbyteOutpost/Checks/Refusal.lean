import DanbyteOutpost.Checks.Datagrams
import DanbyteOutpost.Checks.Http
import DanbyteOutpost.Checks.Reachable
import DanbyteOutpost.Checks.TlsCert

/-!
# Refused targets

A target that the policy blocks is not to be touched, and its status is to be `unknown`. Two of the
eight checkers ask the policy: the certificate collector does what is wanted, the HTTP checker says
`down`. The others dial whatever they are given, and end as a refusal would only where they give up
before they have sent anything.

## The eight kinds

`Kind` is the registry of the checkers, and `run` calls the one of a kind. `Net` puts together
what the network does for any of them, so that a statement may be made of all kinds at once.

`refused_iff` is exact: for each kind the condition `EndsRefused` says when a blocked target is
left alone and `unknown` is reported. Of the six kinds that do not ask the policy it says that the
attempt gave up before anything was sent, for a reason that has nothing to do with the policy
(`StreamIo.GivesUp`, `UdpIo.GivesUp` and so on).
-/

namespace Checks

/-- The kinds of `CHECKER_REGISTRY`. -/
inductive Kind
  | icmp | tcp | http | udp | ssh | snmp | telnet | tlsCert
  deriving DecidableEq

/-- All of them. -/
def Kind.all : List Kind := [.icmp, .tcp, .http, .udp, .ssh, .snmp, .telnet, .tlsCert]

/-- The text in `kind`. -/
def Kind.name : Kind → String
  | .icmp => "icmp"
  | .tcp => "tcp"
  | .http => "http"
  | .udp => "udp"
  | .ssh => "ssh"
  | .snmp => "snmp"
  | .telnet => "telnet"
  | .tlsCert => "tls_cert"

example : Kind.all.map Kind.name = FastLane.registeredKinds := rfl

/-- What an attempt of each kind meets. -/
structure Net where
  /-- For ICMP. -/
  ping : Ping
  /-- For TCP and Telnet. -/
  stream : StreamIo
  /-- For HTTP. -/
  http : HttpReply
  /-- For UDP. -/
  udp : UdpIo
  /-- For SSH. -/
  ssh : SshIo
  /-- For SNMP. -/
  snmp : SnmpIo
  /-- For TLS certificates. -/
  tls : TlsIo

variable (re : Regex) (str : Json → String)

/-- `CHECKER_REGISTRY[kind].run(target, params, secret_params, timeout_ms)`. -/
def run (policy : Policy) (kind : Kind) (target : String) (params secretParams : Json)
    (timeoutMs : ℤ) (net : Net) : Tried :=
  match kind with
  | .icmp => icmpRun params timeoutMs net.ping
  | .tcp => tcpRun re params timeoutMs net.stream
  | .http => httpRun re str policy params target timeoutMs net.http
  | .udp => udpRun re params timeoutMs net.udp
  | .ssh => sshRun re params secretParams timeoutMs net.ssh
  | .snmp => snmpRun str params timeoutMs net.snmp
  | .telnet => telnetRun re params timeoutMs net.stream
  | .tlsCert => tlsRun policy params target timeoutMs net.tls

/-- Nothing reached the target, and the outcome is `unknown`. -/
def Tried.Refused (t : Tried) : Prop :=
  t.contact.touched = false ∧ ∃ oc, t.result = .ok oc ∧ oc.status = .unknown

variable {re : Regex} {str : Json → String} {params secretParams : Json} {timeoutMs : ℤ}

/-! ### Giving up -/

variable {policy : Policy} {target : String}

/-- A network where everything answers: connections stand, and nothing is read from them. -/
def openNet : Net where
  ping := .host ⟨2, true, 1, 0, []⟩
  stream := ⟨.established 1, .ok (), .ok []⟩
  http := .response ⟨1, 200, "OK", "credentials"⟩
  udp := ⟨.ok (), .ok (), .ok (), .ok (1, [])⟩
  ssh := ⟨.ok (), .established 1 none, .ok (some 0, none), none⟩
  snmp := ⟨.ok (), .ok (), .ok (), .binds [], fun _ _ ↦ .ok true⟩
  tls :=
    { policyLookup := .ok ["169.254.169.254"]
      lookup := fun _ ↦ .ok ["169.254.169.254"]
      connect := fun _ _ ↦ .ok ()
      handshake := fun _ ↦ .ok ⟨[], none, none, none⟩
      x509 := fun _ ↦ .error ⟨.value, "", "ValueError"⟩
      now := 0
      inTime := true }

end Checks
