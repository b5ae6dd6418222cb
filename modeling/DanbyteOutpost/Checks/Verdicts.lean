import DanbyteOutpost.Checks.Refusal
import DanbyteOutpost.Checks.TlsChain

/-!
# What a verdict rests on

An outcome other than `unknown` says something of the target, which the attempt must have met:
`up` and `degraded` that the target answered (`Net.Answers`), `down` that something spoke against it
(`Net.Fails`). `verdict_grounded` says so of the eight checkers, with the one exception of the HTTP
checker's refusals.

## The statement

An outcome is grounded (`Grounded`) if it is `unknown`, or the attempt met what its status says.
`Grounded` composes as the programs do (`grounded_bind`, `grounded_caughtBy`), so each checker's
proof goes along its text, and an exception that is caught has to be one the clause may take for a
verdict.

For the certificate collector it matters which handshake is meant: `up` and `degraded` rest on a
chain that one of them presented, and `down` on the handshake that decided it (`Unread`).
-/

namespace Checks

/-! ### Grounds -/

/-- What is returned rests on its grounds, those of `up` and `degraded` and those of `down`. -/
def Grounded (answers fails : Prop) (result : Except Exc Outcome) : Prop :=
  ∀ oc, result = .ok oc →
    (oc.status.reachable = true → answers) ∧ (oc.status = .down → fails)

section

variable {answers fails : Prop}

/-- Nothing is returned, so nothing has to be grounded. -/
theorem grounded_error {e : Exc} : Grounded answers fails (.error e) := nofun

theorem grounded_ok_iff {oc : Outcome} : Grounded answers fails (.ok oc) ↔
    (oc.status.reachable = true → answers) ∧ (oc.status = .down → fails) := by
  constructor
  · exact fun h ↦ h oc rfl
  · intro h oc' hoc
    obtain rfl := Except.ok.inj hoc
    exact h

theorem grounded_reachable {oc : Outcome} (h : answers) (hstatus : oc.status ≠ .down) :
    Grounded answers fails (.ok oc) :=
  grounded_ok_iff.2 ⟨fun _ ↦ h, fun hdown ↦ absurd hdown hstatus⟩

theorem grounded_down {oc : Outcome} (h : oc.status = .down → fails)
    (hstatus : oc.status.reachable = false) : Grounded answers fails (.ok oc) :=
  grounded_ok_iff.2 ⟨fun hreach ↦ absurd hreach (by simp [hstatus]), h⟩

/-- An `unknown` says nothing of the target. -/
theorem grounded_unknown {oc : Outcome} (hstatus : oc.status = .unknown) :
    Grounded answers fails (.ok oc) :=
  grounded_down (by simp [hstatus]) (by rw [hstatus]; rfl)

/-- Two parts are grounded if the second is behind what the first ends with. -/
theorem grounded_bind {α : Type} {x : Except Exc α} {f : α → Except Exc Outcome}
    (h : ∀ a, x = .ok a → Grounded answers fails (f a)) : Grounded answers fails (x >>= f) := by
  intro oc hoc
  obtain ⟨a, ha, hoc⟩ := except_bind_eq_ok.1 hoc
  exact h a ha oc hoc

/-- A conversation with a target that has answered. -/
theorem grounded_caughtBy {handler : Exc → Outcome} {talk : Except Exc Outcome} {p : Exc → Bool}
    (hanswers : answers) (hhandler : ∀ e, (handler e).status = .down ↔ p e = true)
    (htalk : ∀ oc, talk = .ok oc → oc.status ≠ .down) (hfails : FailsWith p talk → fails) :
    Grounded answers fails (.ok (caughtBy handler talk)) := by
  refine grounded_ok_iff.2 ⟨fun _ ↦ hanswers, fun hdown ↦ ?_⟩
  rcases talk with e | oc
  · exact hfails ⟨e, rfl, (hhandler e).1 hdown⟩
  · exact absurd hdown (htalk oc rfl)

end

/-! ### What an attempt meets -/

/-- The port is unreachable. -/
def Exc.refuses (e : Exc) : Bool := e.cls = .refused

/-- The target answers the attempt; a rejected login is an answer. -/
def Net.Answers (net : Net) : Kind → Prop
  | .icmp => ∃ h, net.ping = .host h ∧ h.isAlive = true
  | .tcp | .telnet => ∃ l, net.stream.dial = .established l
  | .http => ∃ resp, net.http = .response resp
  | .udp => ∃ reply, net.udp.recv = .ok reply
  | .ssh => (∃ l key, net.ssh.dial = .established l key) ∨
      ∃ sent e, net.ssh.dial = .raised sent e ∧ e.cls = .denied
  | .snmp => ∃ value values, net.snmp.get = .binds (value :: values)
  | .tlsCert => ∃ session, net.tls.Presents session

/-- The collection comes to nothing of the target, or to nothing that can be read. A verification
error alone does not speak against the target: behind it the reading handshake decides. -/
inductive Unread (io : TlsIo) : Prop
  /-- The verifying handshake failed for another reason than the certificate. -/
  | verifying {e : TlsExc} (failed : (handshake io .verifying).2.2 = .error e)
      (other : ∀ message, e ≠ .verification message)
  /-- The reading handshake failed, too. -/
  | reading {message : String} {e : TlsExc}
      (rejected : (handshake io .verifying).2.2 = .error (.verification message))
      (failed : (handshake io .reading).2.2 = .error e)
  /-- There is a session, and its chain has no member that can be parsed. -/
  | chain {session : TlsSession} (presented : io.Presents session)
      (unparsed : parseChain io.x509 0 session.chain = .ok [])

/-- Something the attempt meets speaks against the target. -/
def Net.Fails (net : Net) : Kind → Prop
  | .icmp => ∃ h, net.ping = .host h ∧ h.isAlive = false
  | .tcp | .telnet => (∃ sent e, net.stream.dial = .raised sent e ∧ e.isOs = true) ∨
      FailsWith Exc.isOs net.stream.drain ∨ FailsWith Exc.isOs net.stream.read
  | .http => ∃ contact e, net.http = .raised contact e ∧ ∀ e', e ≠ .other e'
  | .udp => FailsWith Exc.refuses net.udp.connect ∨
      FailsWith Exc.refuses net.udp.send ∨ FailsWith Exc.refuses net.udp.recv
  | .ssh => (∃ sent e, net.ssh.dial = .raised sent e ∧ e.drops = true) ∨
      FailsWith Exc.drops net.ssh.command ∨ ∃ e, net.ssh.leave = some e ∧ e.drops = true
  | .snmp => ∃ sent text, net.snmp.get = .indication sent text
  | .tlsCert => net.tls.inTime = false ∨ Unread net.tls

/-- The policy lets the checker of a kind have the target, where it asks. -/
def Permits (policy : Policy) (target : String) (net : Net) : Kind → Prop
  | .http => policy.targetBlocked target = false
  | .tlsCert => targetRefusal policy false target net.tls.policyLookup = .ok none
  | _ => True

variable {re : Regex} {str : Json → String} {params secretParams : Json} {timeoutMs : ℤ}
  {policy : Policy} {target : String} {net : Net}

/-! ### Datagrams -/

/-- The ICMP checker says of a host what the ping has shown. -/
theorem icmpRun_grounded :
    Grounded (net.Answers .icmp) (net.Fails .icmp) (icmpRun params timeoutMs net.ping).result := by
  rw [icmpRun]
  rcases icmpArgs params timeoutMs with e | count
  · exact grounded_error
  show Grounded _ _ (pingOutcome params net.ping)
  rcases hping : net.ping with ⟨sent, text | text | e⟩ | host
  · exact grounded_unknown rfl
  · exact grounded_unknown rfl
  · exact grounded_error
  · rw [pingOutcome]
    by_cases halive : host.isAlive = true
    · rw [halive]
      refine grounded_bind fun degraded _ ↦ grounded_reachable ⟨host, hping, halive⟩ ?_
      cases degraded <;> simp
    · rw [Bool.not_eq_true] at halive
      rw [halive]
      exact grounded_down (fun _ ↦ ⟨host, hping, halive⟩) rfl

theorem Exc.isOs_of_refuses {e : Exc} (h : e.refuses = true) : e.isOs = true := by
  rw [Exc.refuses, decide_eq_true_eq] at h
  rw [Exc.isOs, h]

/-- The UDP handler says `down` of a refusal by the host alone. -/
theorem onUdpError_grounded {answers fails : Prop} {port : ℤ} {e : Exc}
    (h : e.refuses = true → fails) : Grounded answers fails (onUdpError port e) := by
  rw [onUdpError]
  split
  case isTrue hrefused => exact grounded_down (fun _ ↦ h (decide_eq_true hrefused)) rfl
  case isFalse =>
    split
    · exact grounded_unknown rfl
    · exact grounded_error

/-- Such a refusal may show itself where the datagram is sent. -/
theorem sendProbe_fails {send : Json} {io : UdpIo}
    (h : FailsWith Exc.refuses (sendProbe send io)) : FailsWith Exc.refuses io.send := by
  unfold sendProbe at h
  split at h
  · exact h
  · split at h
    · simp [Exc.interpreter, Exc.refuses] at h
    · exact h

/-- It does not show itself in the judgement. -/
theorem udpJudge_fails {port : ℤ} {expect : Json} {l : ℚ} {raw : List ℕ} :
    ¬FailsWith Exc.refuses (udpJudge re port expect l raw) := by
  intro h
  unfold udpJudge at h
  dsimp only at h
  split at h
  · exact not_failsWith_ok h
  · rcases failsWith_bind.1 h with ⟨e, he, hrefuses⟩ | ⟨found, -, h⟩
    · exact searchIn_fails ⟨e, he, Exc.isOs_of_refuses hrefuses⟩
    · cases found <;> exact not_failsWith_ok h

/-- The judgement is of an answer, so it is not `down`. -/
theorem udpJudge_status {port : ℤ} {expect : Json} {l : ℚ} {raw : List ℕ} {oc : Outcome}
    (h : udpJudge re port expect l raw = .ok oc) : oc.status ≠ .down := by
  unfold udpJudge at h
  dsimp only at h
  split at h
  · cases h
    simp
  · obtain ⟨found, -, h⟩ := except_bind_eq_ok.1 h
    cases found <;> cases h <;> simp

theorem udpTalk_fails {port : ℤ} {send expect : Json} {io : UdpIo}
    (h : FailsWith Exc.refuses (udpTalk re port send expect io)) :
    FailsWith Exc.refuses io.send ∨ FailsWith Exc.refuses io.recv := by
  rcases failsWith_bind.1 h with h | ⟨-, -, h⟩
  · exact .inl (sendProbe_fails h)
  split at h
  case h_1 => exact absurd h udpJudge_fails
  case h_2 e he =>
    split at h
    · exact absurd h not_failsWith_ok
    · exact .inr ⟨e, he, failsWith_error.1 h⟩

/-- So an attempt is grounded in what the host answers or refuses. -/
theorem udpTry_grounded {port : ℤ} {send expect : Json} :
    Grounded (net.Answers .udp) (net.Fails .udp) (udpTry re port send expect net.udp).result := by
  rw [udpTry]
  rcases hconnect : net.udp.connect with e | -
  · exact onUdpError_grounded fun hrefuses ↦ .inl ⟨e, hconnect, hrefuses⟩
  show Grounded _ _ ((udpTalk re port send expect net.udp).tryCatch (onUdpError port))
  rcases htalk : udpTalk re port send expect net.udp with e | oc
  · exact onUdpError_grounded fun hrefuses ↦ .inr (udpTalk_fails ⟨e, htalk, hrefuses⟩)
  · obtain ⟨-, -, h⟩ := except_bind_eq_ok.1 htalk
    split at h
    case h_1 l raw hrecv => exact grounded_reachable ⟨_, hrecv⟩ (udpJudge_status h)
    case h_2 =>
      split at h
      · obtain rfl := Except.ok.inj h
        exact grounded_unknown rfl
      · cases h

theorem udpRun_grounded :
    Grounded (net.Answers .udp) (net.Fails .udp) (udpRun re params timeoutMs net.udp).result := by
  rw [udpRun]
  rcases udpArgs params timeoutMs with e | ⟨port, send, expect⟩
  · exact grounded_error
  rcases net.udp.socket with e | -
  · exact grounded_error
  · exact udpTry_grounded

/-- The SNMP checker says `up` of a value, and `down` of an error that the request ends with, such
as a timeout. -/
theorem snmpRun_grounded :
    Grounded (net.Answers .snmp) (net.Fails .snmp)
      (snmpRun str params timeoutMs net.snmp).result := by
  rw [snmpRun]
  rcases net.snmp.load with text | -
  · exact grounded_unknown rfl
  rcases snmpArgs params timeoutMs with e | oid
  · exact grounded_error
  show Grounded _ _ (snmpTry str params oid net.snmp).result
  rw [snmpTry]
  rcases net.snmp.auth with text | -
  · exact grounded_unknown rfl
  rcases net.snmp.transport with text | -
  · exact grounded_unknown rfl
  show Grounded _ _ (snmpJudge str params oid net.snmp net.snmp.get)
  rcases hget : net.snmp.get with ⟨sent, text⟩ | ⟨sent, text⟩ | text | - | ⟨value, values⟩
  · exact grounded_unknown rfl
  · exact grounded_down (fun _ ↦ ⟨sent, text, hget⟩) rfl
  · exact grounded_unknown rfl
  · exact grounded_error
  · have hanswers : net.Answers .snmp := ⟨value, values, hget⟩
    refine grounded_bind fun expected _ ↦ ?_
    split
    · exact grounded_reachable hanswers (by simp)
    · refine grounded_bind fun comparator _ ↦ grounded_bind fun found _ ↦ ?_
      cases found <;> exact grounded_reachable hanswers (by simp)

/-! ### Streams -/

/-- A checker over a stream: an established connection is an answer, and an `OSError` speaks against
the port, if only in the conversation. -/
theorem streamTry_grounded {kind : String} {port : ℤ} {talk : ℚ → Except Exc Outcome}
    (htalk : ∀ l oc, talk l = .ok oc → oc.status ≠ .down)
    (hfails : ∀ l, FailsWith Exc.isOs (talk l) →
      FailsWith Exc.isOs net.stream.drain ∨ FailsWith Exc.isOs net.stream.read) :
    Grounded (net.Answers .tcp) (net.Fails .tcp) (streamTry kind port net.stream talk).result := by
  rw [streamTry]
  rcases hdial : net.stream.dial with ⟨sent, e⟩ | l
  · refine grounded_down (fun hdown ↦ .inl ⟨sent, e, hdial, onStreamError_down e |>.1 hdown⟩) ?_
    rw [onStreamError]
    split <;> rfl
  · exact grounded_caughtBy ⟨l, hdial⟩ onStreamError_down (htalk l) fun h ↦ .inr (hfails l h)

theorem tcpRun_grounded :
    Grounded (net.Answers .tcp) (net.Fails .tcp)
      (tcpRun re params timeoutMs net.stream).result := by
  rw [tcpRun]
  rcases tcpArgs params timeoutMs with e | ⟨port, send, expect⟩
  · exact grounded_error
  refine streamTry_grounded (fun _ _ ↦ tcpTalk_status) fun l h ↦ ?_
  rcases failsWith_bind.1 h with h | ⟨-, -, h⟩
  · exact .inl (writeOut_fails.1 h).2
  · exact .inr (tcpJudge_fails.1 h).2

/-- The Telnet checker, which passes over a timeout of its read. -/
theorem telnetRun_grounded :
    Grounded (net.Answers .telnet) (net.Fails .telnet)
      (telnetRun re params timeoutMs net.stream).result := by
  rw [telnetRun]
  rcases telnetArgs params timeoutMs with e | ⟨port, send, expect⟩
  · exact grounded_error
  refine streamTry_grounded (fun _ _ ↦ telnetTalk_status) fun l h ↦ ?_
  rcases failsWith_bind.1 h with h | ⟨-, -, h⟩
  · exact .inl (writeOut_fails.1 h).2
  rcases failsWith_bind.1 h with h | ⟨banner, -, h⟩
  · obtain ⟨-, e, he, hbreaks⟩ := telnetBanner_fails.1 h
    exact .inr ⟨e, he, (Bool.and_eq_true_iff.1 hbreaks).1⟩
  · exact absurd h telnetJudge_fails

/-- An attempt over SSH: a rejected login is an answer, too. -/
theorem sshTry_grounded {port : ℤ} {command : Json} :
    Grounded (net.Answers .ssh) (net.Fails .ssh)
      (sshTry re params port command net.ssh).result := by
  rw [sshTry]
  rcases hdial : net.ssh.dial with ⟨sent, e⟩ | ⟨l, key⟩
  · refine grounded_ok_iff.2 ⟨fun hreach ↦ .inr ⟨sent, e, hdial, ?_⟩,
      fun hdown ↦ .inl ⟨sent, e, hdial, onSshError_down e |>.1 hdown⟩⟩
    obtain ⟨cls, text, name⟩ := e
    cases cls <;> first | rfl | cases hreach
  · refine grounded_caughtBy (.inl ⟨l, key, hdial⟩) onSshError_down (fun oc h ↦ ?_) fun h ↦ ?_
    · rw [left] at h
      split at h
      · cases h
      · exact sshTalk_status h
    · rw [left] at h
      split at h
      case h_1 e he => exact .inr (.inr ⟨e, he, failsWith_error.1 h⟩)
      case h_2 => exact .inr (.inl (sshTalk_fails.1 h).2)

theorem sshRun_grounded :
    Grounded (net.Answers .ssh) (net.Fails .ssh)
      (sshRun re params secretParams timeoutMs net.ssh).result := by
  rw [sshRun]
  rcases sshArgs params secretParams timeoutMs with e | ⟨port, key, command⟩
  · exact grounded_error
  dsimp only
  split
  · split
    · exact sshTry_grounded
    · split
      · exact grounded_unknown rfl
      · exact grounded_error
  · exact sshTry_grounded

/-! ### The checkers that ask the policy -/

/-- Whatever the judgement, the response is there. -/
theorem httpJudge_grounded {answers fails : Prop} {args : HttpArgs} {url : Json}
    {resp : HttpResponse} (h : answers) :
    Grounded answers fails (httpJudge re args url resp) := by
  refine grounded_bind fun ⟨ok, mismatch⟩ _ ↦ ?_
  dsimp only
  split
  · exact grounded_reachable h (by simp)
  · exact grounded_bind fun _ _ ↦ grounded_reachable h (by simp)

/-- The HTTP checker, with its refusals as the exception. -/
theorem httpRun_grounded :
    Grounded (net.Answers .http ∧ Permits policy target net .http)
      (net.Fails .http ∨ policy.targetBlocked target = true)
      (httpRun re str policy params target timeoutMs net.http).result := by
  rw [httpRun]
  rcases httpArgs params with e | args
  · exact grounded_error
  by_cases hblocked : policy.targetBlocked target = true
  · show Grounded _ _ (if policy.targetBlocked target = true then _ else _ : Tried).result
    rw [if_pos hblocked]
    exact grounded_down (fun _ ↦ .inr hblocked) rfl
  · show Grounded _ _ (if policy.targetBlocked target = true then _ else _ : Tried).result
    rw [if_neg hblocked]
    rcases checkTimeout timeoutMs with e | -
    · exact grounded_error
    show Grounded _ _ (httpOutcome re args (httpUrl str args (bracketed target)) net.http)
    rcases hreply : net.http with ⟨contact, - | ⟨text, name⟩ | e⟩ | resp
    · exact grounded_down (fun _ ↦ .inl ⟨contact, _, hreply, by simp⟩) rfl
    · exact grounded_down (fun _ ↦ .inl ⟨contact, _, hreply, by simp⟩) rfl
    · exact grounded_error
    · exact httpJudge_grounded ⟨⟨resp, hreply⟩, Bool.eq_false_iff.2 hblocked⟩

/-- What is observed of a session is grounded in it. -/
theorem observe_grounded {io : TlsIo} {port : ℤ} {serverName : Json} {validity : Validity}
    {verifyError : String} {session : TlsSession} {obs : Observation}
    (h : observe io target port serverName validity verifyError session = .ok obs)
    (hvalidity : validity ≠ .unknown) (hdown : obs.status = .down) :
    parseChain io.x509 0 session.chain = .ok [] := by
  obtain ⟨certs, hparse, hobs⟩ := except_bind_eq_ok.1 h
  rcases certs with - | ⟨leaf, certs⟩
  · exact hparse
  · obtain rfl := Except.ok.inj hobs
    cases validity with
    | verified | unverified =>
      rw [Observation.status] at hdown
      dsimp only at hdown
      split at hdown <;> cases hdown
    | unknown => exact absurd rfl hvalidity

/-- What the two handshakes come to rests on the one that decides: the verifying one, or behind a
verification error the reading one. -/
theorem readChain_grounded {io : TlsIo} {port : ℤ} {serverName : Json} {obs : Observation}
    (h : (readChain io target port serverName).result = .ok obs) :
    (obs.status.reachable = true → ∃ session, io.Presents session) ∧
      (obs.status = .down → Unread io) := by
  have hempty : ∀ {kind error}, Unread io → kind ≠ .policy →
      obs = Observation.empty target port serverName kind error →
      (obs.status.reachable = true → ∃ session, io.Presents session) ∧
        (obs.status = .down → Unread io) := by
    rintro kind error hunread hkind rfl
    refine ⟨fun hreach ↦ ?_, fun _ ↦ hunread⟩
    cases kind with
    | policy => exact absurd rfl hkind
    | connect | tls => cases hreach
  have hsession : ∀ {session validity verifyError}, io.Presents session → validity ≠ .unknown →
      observe io target port serverName validity verifyError session = .ok obs →
      (obs.status.reachable = true → ∃ session, io.Presents session) ∧
        (obs.status = .down → Unread io) := by
    intro session validity verifyError hpresents hvalidity hobs
    exact ⟨fun _ ↦ ⟨session, hpresents⟩,
      fun hdown ↦ .chain hpresents (observe_grounded hobs hvalidity hdown)⟩
  rw [readChain] at h
  rcases hverify : (handshake io .verifying).2.2 with (message | shown | shown | e) | session <;>
    simp only [hverify] at h
  · rw [readUnverified] at h
    rcases hread : (handshake io .reading).2.2 with (shown | shown | shown | e) | session <;>
      simp only [hread] at h
    · exact hempty (.reading hverify hread) (by decide) (Except.ok.inj h).symm
    · exact hempty (.reading hverify hread) (by decide) (Except.ok.inj h).symm
    · exact hempty (.reading hverify hread) (by decide) (Except.ok.inj h).symm
    · cases h
    · exact hsession (.inr ⟨⟨message, hverify⟩, hread⟩) (by decide) h
  · exact hempty (.verifying hverify (by simp)) (by decide) (Except.ok.inj h).symm
  · exact hempty (.verifying hverify (by simp)) (by decide) (Except.ok.inj h).symm
  · cases h
  · exact hsession (.inl hverify) (by decide) h

/-- The TLS checker: a collection that is late is `down`, too. -/
theorem tlsRun_grounded :
    Grounded (net.Answers .tlsCert ∧ Permits policy target net .tlsCert) (net.Fails .tlsCert)
      (tlsRun policy params target timeoutMs net.tls).result := by
  rw [tlsRun]
  rcases tlsArgs params timeoutMs with e | ⟨port, serverName⟩
  · exact grounded_error
  dsimp only
  split
  case isFalse hlate => exact grounded_down (fun _ ↦ .inl (Bool.eq_false_iff.2 hlate)) rfl
  case isTrue =>
    show Grounded _ _ (.ok (tlsOutcome target port
      (collectChain policy false net.tls target port serverName).result))
    rw [collectChain]
    rcases hrefusal : targetRefusal policy false target net.tls.policyLookup with e | - | reason
    · exact grounded_unknown rfl
    · show Grounded _ _ (.ok (tlsOutcome target port
        (readChain net.tls target port (serverName.orElse (.str target))).result))
      rcases hread : (readChain net.tls target port (serverName.orElse (.str target))).result
        with e | obs
      · exact grounded_unknown rfl
      · obtain ⟨hanswers, hunread⟩ := readChain_grounded hread
        exact grounded_ok_iff.2 ⟨fun hreach ↦ ⟨hanswers hreach, hrefusal⟩,
          fun hdown ↦ .inr (hunread hdown)⟩
    · exact grounded_unknown rfl

/-! ### All kinds -/

theorem Grounded.mono {answers answers' fails fails' : Prop} {result : Except Exc Outcome}
    (h : Grounded answers fails result) (hanswers : answers → answers')
    (hfails : fails → fails') : Grounded answers' fails' result :=
  fun oc hoc ↦ ⟨hanswers ∘ (h oc hoc).1, hfails ∘ (h oc hoc).2⟩

/-- **Every verdict is grounded**: a checker of any kind says `up` or `degraded` only of a target
that the policy permits it, where it asks, and that answers this attempt; and `down` only when the
attempt meets something that speaks against the target, or as the HTTP checker's refusal. -/
theorem verdict_grounded {kind : Kind} {oc : Outcome}
    (h : (run re str policy kind target params secretParams timeoutMs net).result = .ok oc) :
    (oc.status.reachable = true → net.Answers kind ∧ Permits policy target net kind) ∧
      (oc.status = .down →
        net.Fails kind ∨ kind = .http ∧ policy.targetBlocked target = true) := by
  suffices hground : Grounded (net.Answers kind ∧ Permits policy target net kind)
      (net.Fails kind ∨ kind = .http ∧ policy.targetBlocked target = true)
      (run re str policy kind target params secretParams timeoutMs net).result from hground oc h
  cases kind with
  | icmp => exact icmpRun_grounded.mono (⟨·, trivial⟩) .inl
  | tcp => exact tcpRun_grounded.mono (⟨·, trivial⟩) .inl
  | udp => exact udpRun_grounded.mono (⟨·, trivial⟩) .inl
  | ssh => exact sshRun_grounded.mono (⟨·, trivial⟩) .inl
  | snmp => exact snmpRun_grounded.mono (⟨·, trivial⟩) .inl
  | telnet => exact telnetRun_grounded.mono (⟨·, trivial⟩) .inl
  | http => exact httpRun_grounded.mono id (.imp_right (⟨rfl, ·⟩))
  | tlsCert => exact tlsRun_grounded.mono id .inl

theorem verdict_grounded_open :
    ∃ oc, (run noMatch (fun _ ↦ "") (configure true []) .tcp "192.0.2.1"
      (.obj [("port", .int 80)]) (.obj []) 2000 openNet).result = .ok oc ∧
        oc.status.reachable = true ∧ openNet.Answers .tcp := by
  have htimeout : overflows 2000 = false := by decide +kernel
  have hcheck : checkTimeout 2000 = .ok () := if_neg (by rw [htimeout]; exact Bool.false_ne_true)
  have hargs : tcpArgs (.obj [("port", .int 80)]) 2000 = .ok (80, .null, .null) := by
    rw [tcpArgs]
    exact except_bind_eq_ok.2 ⟨80, rfl, except_bind_eq_ok.2 ⟨(), hcheck, rfl⟩⟩
  have hrun : (run noMatch (fun _ ↦ "") (configure true []) .tcp "192.0.2.1"
      (.obj [("port", .int 80)]) (.obj []) 2000 openNet).result =
        .ok ⟨⟨.up, some 1, none⟩, [("port", .int 80)]⟩ := by
    rw [run, tcpRun, hargs]
    rfl
  exact ⟨_, hrun, rfl, ((verdict_grounded hrun).1 rfl).1⟩

end Checks
