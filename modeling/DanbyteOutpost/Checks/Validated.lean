import DanbyteOutpost.Checks.StatusSets
import DanbyteOutpost.Checks.Validate

/-!
# Validated parameters

A template's parameters are accepted by `validate_params` before they are used, and `run` reads them
again at each attempt. The two do not agree on what can be read: `validated_returns_iff` says of
each kind which accepted parameters its checker raises on (`Overlooks`), where the libraries below
it raise nothing but what it has a clause for (`Net.Foreseen`).

## What is to be shown

`validated_returns_iff` says that for accepted parameters a checker returns whatever the network
does, but for what it overlooks. Both halves are needed for each kind: parameters that are not
overlooked raise nothing on any path, and for those that are there is a network on which `run`
raises.

* Datagrams: `icmpRun_returns_iff`, `udpRun_returns_iff`, `snmpRun_returns_iff`.
* Connections: `tcpRun_returns`, `telnetRun_returns_iff`, `sshRun_returns_iff`, `tlsRun_returns`.
* HTTP: `httpRun_returns_iff`, over the readings of path, method, port and statuses.

The names of the kinds and their parameters are those of `Kind` and `validate`; `Net.Foreseen`
collects, kind by kind, the exceptions the libraries document.
-/

namespace Checks

variable (re : Regex) (str : Json → String)

/-! ### What is raised -/

/-- A checker that returns. -/
def Tried.Returns (t : Tried) : Prop := ∃ oc, t.result = .ok oc

/-- A ping raises what the checker has a clause for; times and losses are no negative numbers. -/
def Ping.Foreseen (ping : Ping) : Prop :=
  (∀ sent e, ping ≠ .raised sent (.other e)) ∧
    ∀ host, ping = .host host → 0 ≤ host.avgRtt ∧ 0 ≤ host.packetLoss

/-- A request raises an `httpx.HTTPError`, if anything. -/
def HttpReply.Foreseen (reply : HttpReply) : Prop :=
  ∀ contact e, reply ≠ .raised contact (.other e)

/-- There is a socket, and what it raises is an `OSError`. -/
structure UdpIo.Foreseen (io : UdpIo) : Prop where
  /-- The system has a socket left. -/
  socket : io.socket = .ok ()
  /-- The lookup and the address fail in ways of the system. -/
  connect : ∀ e, io.connect = .error e → e.isOs = true
  /-- So does the datagram. -/
  send : ∀ e, io.send = .error e → e.isOs = true
  /-- And so does the wait for the reply. -/
  recv : ∀ e, io.recv = .error e → e.isOs = true

/-- A private key that cannot be imported is said to be none. -/
def SshIo.Foreseen (io : SshIo) : Prop :=
  ∀ e, io.importKey = .error e → e.cls = .keyImport ∨ e.cls = .value

/-- `float(value)` is too large for a float. -/
def tooLarge : Json → Bool
  | .int n => 2 ^ 1024 - 2 ^ 970 ≤ |n|
  | _ => false

/-- A response without an error has bindings, and what a comparison raises is what `float` does of
something that is no number, or of one that is too large. -/
structure SnmpIo.Foreseen (io : SnmpIo) : Prop where
  /-- A response binds something. -/
  get : io.get ≠ .binds []
  /-- A comparison raises what `float` raises. -/
  compare : ∀ comparator expected e, io.compare comparator expected = .error e →
    e.cls = .value ∨ e.name = "TypeError" ∨
      tooLarge expected = true ∧ e = .interpreter "OverflowError"

/-- The libraries below a checker raise nothing but what it has a clause for. -/
def Net.Foreseen (net : Net) : Kind → Prop
  | .icmp => net.ping.Foreseen
  | .http => net.http.Foreseen
  | .udp => net.udp.Foreseen
  | .ssh => net.ssh.Foreseen
  | .snmp => net.snmp.Foreseen
  | .tcp | .telnet | .tlsCert => True

/-! ### What is overlooked -/

/-- Something a number can be compared with, or nothing. -/
def isThreshold : Json → Bool
  | .null | .bool _ | .int _ | .float _ _ => true
  | .str _ | .arr _ | .obj _ => false

/-- A threshold that every time exceeds. -/
def isNegative : Json → Bool
  | .int n => n < 0
  | .float (some q) _ => q < 0
  | .float none text => text = "-inf"
  | _ => false

/-- What the validation of a kind lets pass and its checker raises on: a threshold that is no
number, a path, a method or a text to be sent that is no text, status codes that make no set or
cannot be sorted, an expected number that is too large for a float, and a port that is `null` or was
not looked at. -/
def Overlooks (params : Json) : Kind → Prop
  | .icmp =>
    isThreshold (valueOr params "latency_degraded_ms" .null) = false ∨
      isNegative (valueOr params "latency_degraded_ms" .null) = false ∧
        isThreshold (valueOr params "loss_degraded_pct" .null) = false
  | .http =>
    isText (valueOr params "path" (.str "/")) = false ∨
      (valueOr params "method" .null).truthy = true ∧
        isText (valueOr params "method" .null) = false ∨
      ∃ statuses, valueOr params "expected_status" .null = .arr statuses ∧
        ((∃ a ∈ statuses, ¬Hashable a) ∨ ∃ a ∈ statuses, ∃ b ∈ statuses, ¬Alike a b)
  | .udp =>
    (valueOr params "send" .null).truthy = true ∧ isText (valueOr params "send" .null) = false
  | .ssh => params.get? "port" = some (some .null)
  | .snmp =>
    params.get? "port" = some (some .null) ∨
      tooLarge (valueOr params "expected_value" .null) = true
  | .telnet => (valueOr params "port" (.int 23)).pyInt = none
  | .tcp | .tlsCert => False

variable {re : Regex} {str : Json → String} {params secretParams : Json} {timeoutMs : ℤ}

/-! ### Datagrams -/

/-- Comparing with a threshold raises when it is no number. -/
theorem exceeds_of_isThreshold {threshold : Json} (h : isThreshold threshold = true) (value : ℚ) :
    ∃ b, exceeds value threshold = .ok b := by
  cases threshold with
  | float q text => cases q <;> exact ⟨_, rfl⟩
  | str text => cases h
  | arr values => cases h
  | obj fields => cases h
  | _ => exact ⟨_, rfl⟩

/-- What is no threshold cannot be compared with a time. -/
theorem exceeds_of_not_isThreshold {threshold : Json} (h : isThreshold threshold = false)
    (value : ℚ) : ∃ e, exceeds value threshold = .error e := by
  cases threshold with
  | str text => exact ⟨_, rfl⟩
  | arr values => exact ⟨_, rfl⟩
  | obj fields => exact ⟨_, rfl⟩
  | _ => cases h

/-- Every time exceeds a negative threshold. -/
theorem exceeds_of_isNegative {threshold : Json} (h : isNegative threshold = true) {value : ℚ}
    (hvalue : 0 ≤ value) : exceeds value threshold = .ok true := by
  cases threshold with
  | int n =>
    have hn : n < 0 := of_decide_eq_true h
    have hlt : (n : ℚ) < value := lt_of_lt_of_le (by exact_mod_cast hn) hvalue
    rw [exceeds, decide_eq_true hlt]
  | float q text =>
    cases q with
    | none => exact congrArg Except.ok h
    | some q =>
      have hq : q < 0 := of_decide_eq_true h
      rw [exceeds, decide_eq_true (hq.trans_le hvalue)]
  | _ => cases h

/-- A time of nothing exceeds no other one. -/
theorem exceeds_zero {threshold : Json} (hthreshold : isThreshold threshold = true)
    (h : isNegative threshold = false) : exceeds 0 threshold = .ok false := by
  cases threshold with
  | null => rfl
  | bool b => cases b <;> simp [exceeds]
  | int n =>
    have hn : ¬n < 0 := of_decide_eq_false h
    have hlt : ¬(n : ℚ) < 0 := by exact_mod_cast hn
    rw [exceeds, decide_eq_false hlt]
  | float q text =>
    cases q with
    | none => exact congrArg Except.ok h
    | some q => rw [exceeds, decide_eq_false (of_decide_eq_false h)]
  | _ => cases hthreshold

/-- The two comparisons with their thresholds, of which the second is made only if the first one
fails. -/
theorem pingDegraded_obj {fields : List (String × Json)} {host : PingHost} :
    pingDegraded (.obj fields) host = (do
      if ← exceeds host.avgRtt (valueOr (.obj fields) "latency_degraded_ms" .null) then return true
      exceeds (host.packetLoss * 100) (valueOr (.obj fields) "loss_degraded_pct" .null)) := by
  rw [pingDegraded, getField_obj, getField_obj]
  rfl

/-- A host that is alive has an outcome if the comparisons do not raise. -/
theorem pingOutcome_alive {host : PingHost} (halive : host.isAlive = true) :
    (∃ oc, pingOutcome params (.host host) = .ok oc) ↔ ∃ b, pingDegraded params host = .ok b := by
  rw [pingOutcome, halive]
  constructor
  · intro h
    obtain ⟨oc, hoc⟩ := h
    obtain ⟨b, hb, -⟩ := except_bind_eq_ok.1 hoc
    exact ⟨b, hb⟩
  · intro h
    obtain ⟨b, hb⟩ := h
    exact ⟨_, except_bind_eq_ok.2 ⟨b, hb, rfl⟩⟩

/-- The arguments can be read from accepted parameters. -/
theorem icmpArgs_of_validate (h : icmpValidate params = .ok ()) (ht : overflows timeoutMs = false) :
    (∃ fields, params = .obj fields) ∧ ∃ count, icmpArgs params timeoutMs = .ok count := by
  obtain ⟨value, hvalue, h⟩ := except_bind_eq_ok.1 h
  refine ⟨(getOr_eq_ok.1 hvalue).1, ?_⟩
  have hcount : ∃ count, intOf value = .ok count := by
    cases value with
    | bool b => exact ⟨_, rfl⟩
    | int n => exact ⟨_, rfl⟩
    | _ => cases h
  obtain ⟨count, hcount⟩ := hcount
  exact ⟨count, except_bind_eq_ok.2 ⟨value, hvalue, except_bind_eq_ok.2 ⟨count, hcount,
    except_bind_eq_ok.2 ⟨(), checkTimeout_eq_ok.2 ht, rfl⟩⟩⟩⟩

/-- The ICMP checker: a threshold that is no number is overlooked, and raises on the first host that
answers. -/
theorem icmpRun_returns_iff (h : icmpValidate params = .ok ()) (ht : overflows timeoutMs = false) :
    (∀ ping : Ping, ping.Foreseen → (icmpRun params timeoutMs ping).Returns) ↔
      ¬Overlooks params .icmp := by
  obtain ⟨⟨fields, rfl⟩, count, hargs⟩ := icmpArgs_of_validate h ht
  rw [Overlooks]
  simp only [icmpRun, hargs, Tried.Returns]
  generalize hlatency : valueOr (.obj fields) "latency_degraded_ms" .null = latency
  generalize hloss : valueOr (.obj fields) "loss_degraded_pct" .null = loss
  have hdegraded : ∀ host, pingDegraded (.obj fields) host = (do
      if ← exceeds host.avgRtt latency then return true
      exceeds (host.packetLoss * 100) loss) := by
    intro host
    rw [pingDegraded_obj, hlatency, hloss]
  constructor
  · intro hall hgap
    -- a host that answers at once, and loses nothing
    have hhost : ∃ b, pingDegraded (.obj fields) ⟨1, true, 0, 0, []⟩ = .ok b :=
      (pingOutcome_alive rfl).1 (hall (.host ⟨1, true, 0, 0, []⟩)
        ⟨fun _ _ h ↦ (by cases h), fun host hhost ↦ (by cases hhost; simp)⟩)
    obtain ⟨b, hb⟩ := hhost
    rw [hdegraded] at hb
    obtain ⟨exceeded, hexceeded, hb⟩ := except_bind_eq_ok.1 hb
    cases hlate : isThreshold latency with
    | false =>
      obtain ⟨e, he⟩ := exceeds_of_not_isThreshold hlate 0
      rw [he] at hexceeded
      cases hexceeded
    | true =>
      rcases hgap with hno | ⟨hnegative, hlost⟩
      · rw [hlate] at hno
        cases hno
      · rw [exceeds_zero hlate hnegative] at hexceeded
        obtain rfl := Except.ok.inj hexceeded
        obtain ⟨e, he⟩ := exceeds_of_not_isThreshold hlost (0 * 100)
        have hcompared : exceeds (0 * 100) loss = .ok b := hb
        rw [he] at hcompared
        cases hcompared
  · intro hno ping hping
    rw [not_or, not_and, Bool.not_eq_false, Bool.not_eq_false] at hno
    obtain ⟨hlate, hlost⟩ := hno
    rcases ping with ⟨sent, text | text | e⟩ | host
    · exact ⟨_, rfl⟩
    · exact ⟨_, rfl⟩
    · exact absurd rfl (hping.1 sent e)
    · cases halive : host.isAlive with
      | false => exact ⟨_, by rw [pingOutcome, halive]; rfl⟩
      | true =>
        refine (pingOutcome_alive halive).2 ?_
        rw [hdegraded]
        obtain ⟨exceeded, hexceeded⟩ := exceeds_of_isThreshold hlate host.avgRtt
        cases exceeded with
        | true => exact ⟨true, except_bind_eq_ok.2 ⟨true, hexceeded, rfl⟩⟩
        | false =>
          have hnegative : isNegative latency = false := by
            by_contra hneg
            rw [Bool.not_eq_false] at hneg
            rw [exceeds_of_isNegative hneg (hping.2 host rfl).1] at hexceeded
            cases hexceeded
          obtain ⟨b, hb⟩ := exceeds_of_isThreshold (hlost hnegative) (host.packetLoss * 100)
          exact ⟨b, except_bind_eq_ok.2 ⟨false, hexceeded, hb⟩⟩

/-- What the UDP checker has a clause for, it returns. -/
theorem onUdpError_returns {port : ℤ} {e : Exc} (h : e.isOs = true) :
    ∃ oc, onUdpError port e = .ok oc := by
  rw [onUdpError, h]
  split <;> exact ⟨_, rfl⟩

/-- The UDP checker has no clause for it. -/
def Exc.escapes (e : Exc) : Bool := !e.isOs

theorem not_escapes {α : Type} {x : Except Exc α} (h : ∀ e, x = .error e → e.isOs = true) :
    ¬FailsWith Exc.escapes x := by
  rintro ⟨e, he, hescapes⟩
  rw [Exc.escapes, h e he] at hescapes
  cases hescapes

/-- A text can be sent; what is truthy and no text cannot be encoded. -/
theorem not_escapes_sendProbe {send : Json} {io : UdpIo} (hio : io.Foreseen)
    (hsend : send.truthy = true → isText send = true) :
    ¬FailsWith Exc.escapes (sendProbe send io) := by
  unfold sendProbe
  split
  case h_1 => exact not_escapes hio.send
  case h_2 hnot =>
    split
    case isFalse => exact not_escapes hio.send
    case isTrue htruthy =>
      cases send with
      | str text => exact absurd rfl (hnot text)
      | _ => cases hsend htruthy

/-- A pattern that compiles can be searched for. -/
theorem not_escapes_udpJudge {port : ℤ} {expect : Json} {l : ℚ} {raw : List ℕ}
    (h : expect = .null ∨ ∀ text, ∃ b, searchIn re expect text = .ok b) :
    ¬FailsWith Exc.escapes (udpJudge re port expect l raw) := by
  unfold udpJudge
  dsimp only
  split
  case h_1 => exact not_failsWith_ok
  case h_2 hnone =>
    obtain ⟨b, hb⟩ := h.resolve_left hnone (decoded raw)
    rw [hb]
    cases b <;> exact not_failsWith_ok

/-- Neither the probe nor the reply raises what there is no clause for. -/
theorem not_escapes_udpTalk {port : ℤ} {send expect : Json} {io : UdpIo} (hio : io.Foreseen)
    (hsend : send.truthy = true → isText send = true)
    (hexpect : expect = .null ∨ ∀ text, ∃ b, searchIn re expect text = .ok b) :
    ¬FailsWith Exc.escapes (udpTalk re port send expect io) := by
  intro h
  rcases failsWith_bind.1 h with h | ⟨-, -, h⟩
  · exact not_escapes_sendProbe hio hsend h
  · split at h
    case h_1 => exact not_escapes_udpJudge hexpect h
    case h_2 e he =>
      split at h
      · exact not_failsWith_ok h
      · refine not_escapes (fun e' he' ↦ ?_) h
        rw [← Except.error.inj he']
        exact hio.recv e he

/-- So an attempt returns with a text to send and such a pattern. -/
theorem udpTry_returns {port : ℤ} {send expect : Json} {io : UdpIo} (hio : io.Foreseen)
    (hsend : send.truthy = true → isText send = true)
    (hexpect : expect = .null ∨ ∀ text, ∃ b, searchIn re expect text = .ok b) :
    (udpTry re port send expect io).Returns := by
  rw [udpTry]
  rcases hconnect : io.connect with e | -
  · exact onUdpError_returns (hio.connect e hconnect)
  · have htalk : ¬FailsWith Exc.escapes (udpTalk re port send expect io) :=
      not_escapes_udpTalk hio hsend hexpect
    show ∃ oc, (udpTalk re port send expect io).tryCatch (onUdpError port) = .ok oc
    generalize udpTalk re port send expect io = talk at htalk ⊢
    rcases talk with e | oc
    · rw [failsWith_error, Exc.escapes, Bool.not_eq_true', Bool.not_eq_false] at htalk
      exact onUdpError_returns htalk
    · exact ⟨oc, rfl⟩

/-- The UDP checker: something to send that is no text is overlooked. -/
theorem udpRun_returns_iff (h : udpValidate re params = .ok ()) (ht : overflows timeoutMs = false) :
    (∀ io : UdpIo, io.Foreseen → (udpRun re params timeoutMs io).Returns) ↔
      ¬Overlooks params .udp := by
  obtain ⟨⟨fields, rfl⟩, ⟨port, hport⟩, hexpect⟩ := expect_of_tcpValidate h
  rw [Overlooks]
  generalize hsend : valueOr (.obj fields) "send" .null = send
  have hargs : udpArgs (.obj fields) timeoutMs =
      .ok (port, send, valueOr (.obj fields) "expect" .null) := by
    rw [udpArgs, hport, getField_obj, getField_obj, checkTimeout_eq_ok.2 ht, hsend]
    rfl
  simp only [udpRun, hargs]
  constructor
  · intro hall hgap
    obtain ⟨htruthy, hnot⟩ := hgap
    -- a socket that takes what it is given
    obtain ⟨oc, hoc⟩ := hall ⟨.ok (), .ok (), .ok (), .ok (0, [])⟩
      ⟨rfl, fun _ h ↦ (by cases h), fun _ h ↦ (by cases h), fun _ h ↦ (by cases h)⟩
    have hprobe : ∀ io, sendProbe send io = .error (.interpreter "TypeError") := by
      intro io
      cases send with
      | str text => cases hnot
      | _ => exact if_pos htruthy
    have htalk : ∀ io, udpTalk re port send (valueOr (.obj fields) "expect" .null) io =
        .error (.interpreter "TypeError") := by
      intro io
      rw [udpTalk, hprobe]
      rfl
    rw [udpTry] at hoc
    simp only [htalk] at hoc
    cases hoc
  · intro hno io hio
    rw [hio.socket]
    refine udpTry_returns hio (fun htruthy ↦ ?_) (hexpect.imp_right searchIn_of_checkPattern)
    by_contra hnot
    exact hno ⟨htruthy, Bool.eq_false_iff.2 hnot⟩

/-- The arguments of the SNMP checker can be read if its port can. -/
theorem snmpArgs_eq_ok {fields : List (String × Json)} (ht : overflows timeoutMs = false) :
    (∃ oid, snmpArgs (.obj fields) timeoutMs = .ok oid) ↔
      ∃ port, portParam (.obj fields) 161 = .ok port := by
  rw [snmpArgs]
  constructor
  · intro h
    obtain ⟨oid, hoid⟩ := h
    obtain ⟨port, hport, -⟩ := except_bind_eq_ok.1 hoid
    exact ⟨port, hport⟩
  · intro h
    obtain ⟨port, hport⟩ := h
    rw [hport, getOr_obj, checkTimeout_eq_ok.2 ht]
    exact ⟨_, rfl⟩

/-- A comparison says whether the value is the one expected, unless that is too large. -/
theorem valueExpected_returns {io : SnmpIo} (hio : io.Foreseen) {comparator expected : Json}
    (h : tooLarge expected = false) (value : String) :
    ∃ b, valueExpected str io comparator expected value = .ok b := by
  rw [valueExpected]
  rcases hcompare : io.compare comparator expected with e | b
  · rcases hio.compare comparator expected e hcompare with hcls | hname | ⟨hlarge, -⟩
    · exact ⟨_, if_pos (.inl hcls)⟩
    · exact ⟨_, if_pos (.inr hname)⟩
    · rw [h] at hlarge
      cases hlarge
  · exact ⟨b, rfl⟩

/-- A value can be compared with an expected number that fits a float. -/
theorem snmpJudge_returns {fields : List (String × Json)} {oid : Json} {io : SnmpIo}
    (hio : io.Foreseen) (h : tooLarge (valueOr (.obj fields) "expected_value" .null) = false) :
    ∃ oc, snmpJudge str (.obj fields) oid io io.get = .ok oc := by
  rcases hget : io.get with ⟨sent, text⟩ | ⟨sent, text⟩ | text | ⟨- | ⟨⟨name, value⟩, values⟩⟩
  · exact ⟨_, rfl⟩
  · exact ⟨_, rfl⟩
  · exact ⟨_, rfl⟩
  · exact absurd hget hio.get
  · rw [snmpJudge, getField_obj, getOr_obj]
    generalize hexpected : valueOr (.obj fields) "expected_value" .null = expected at h ⊢
    refine exists_bind_eq_ok.2 ⟨expected, rfl, ?_⟩
    split
    case h_1 => exact ⟨_, rfl⟩
    case h_2 =>
      refine exists_bind_eq_ok.2 ⟨_, rfl, exists_bind_eq_ok.2 ?_⟩
      obtain ⟨b, hb⟩ := valueExpected_returns hio h value
      refine ⟨b, hb, ?_⟩
      cases b <;> exact ⟨_, rfl⟩

/-- A manager whose device answers, and for which every number compares that is not too large. -/
def comparing : SnmpIo :=
  ⟨.ok (), .ok (), .ok (), .binds [("", "")], fun _ expected ↦
    if tooLarge expected then .error (.interpreter "OverflowError") else .ok true⟩

/-- An agent that is comparable with everything is foreseen. -/
theorem comparing_foreseen : comparing.Foreseen where
  get := by simp [comparing]
  compare := by
    intro comparator expected e he
    rw [comparing] at he
    dsimp only at he
    split at he
    case isTrue hlarge => exact .inr (.inr ⟨hlarge, (Except.error.inj he).symm⟩)
    case isFalse => cases he

theorem snmpJudge_comparing {fields : List (String × Json)} {oid : Json}
    (h : tooLarge (valueOr (.obj fields) "expected_value" .null) = true) :
    ∃ e, snmpJudge str (.obj fields) oid comparing comparing.get = .error e := by
  show ∃ e, snmpJudge str (.obj fields) oid comparing (.binds [("", "")]) = .error e
  rw [snmpJudge, getField_obj, getOr_obj]
  generalize valueOr (.obj fields) "expected_value" .null = expected at h ⊢
  generalize valueOr (.obj fields) "comparator" (.str "eq") = comparator
  cases expected with
  | int n =>
    have hcompare : comparing.compare comparator (.int n) = .error (.interpreter "OverflowError") :=
      if_pos h
    have hvalue : valueExpected str comparing comparator (.int n) "" =
        .error (.interpreter "OverflowError") := by
      rw [valueExpected, hcompare]
      rfl
    refine ⟨.interpreter "OverflowError", ?_⟩
    show (valueExpected str comparing comparator (.int n) "" >>= _) = _
    rw [hvalue]
    rfl
  | _ => cases h

/-- With pysnmp there, the run is its arguments and the attempt. -/
theorem snmpRun_of_load {io : SnmpIo} (hload : io.load = .ok ()) :
    (snmpRun str params timeoutMs io).Returns ↔ ∃ oid, snmpArgs params timeoutMs = .ok oid ∧
      (snmpTry str params oid io).Returns := by
  rw [snmpRun, hload]
  rcases snmpArgs params timeoutMs with e | oid <;> simp [Tried.Returns, Tried.raised]

/-- The attempt returns, whatever the request ends in. -/
theorem snmpTry_returns {fields : List (String × Json)} {oid : Json} {io : SnmpIo}
    (hio : io.Foreseen) (h : tooLarge (valueOr (.obj fields) "expected_value" .null) = false) :
    (snmpTry str (.obj fields) oid io).Returns := by
  rw [snmpTry]
  rcases io.auth with text | - <;> rcases io.transport with text' | -
  · exact ⟨_, rfl⟩
  · exact ⟨_, rfl⟩
  · exact ⟨_, rfl⟩
  · exact snmpJudge_returns hio h

/-- The SNMP checker: a null port and a number too large are overlooked. -/
theorem snmpRun_returns_iff (str : Json → String) (h : snmpValidate params = .ok ())
    (ht : overflows timeoutMs = false) :
    (∀ io : SnmpIo, io.Foreseen → (snmpRun str params timeoutMs io).Returns) ↔
      ¬Overlooks params .snmp := by
  have hport := portParam_iff_of_validatePort 161 (port_of_snmpValidate h)
  obtain ⟨⟨fields, rfl⟩, -⟩ := port_of_validatePort (port_of_snmpValidate h)
  rw [← snmpArgs_eq_ok ht] at hport
  rw [Overlooks, not_or, ← ne_eq, ← hport, Bool.not_eq_true]
  constructor
  · intro hall
    obtain ⟨oid, hoid, oc, hoc⟩ := (snmpRun_of_load rfl).1 (hall comparing comparing_foreseen)
    refine ⟨⟨oid, hoid⟩, Bool.eq_false_iff.2 fun hlarge ↦ ?_⟩
    have hraises : ∃ e, snmpJudge str (.obj fields) oid comparing comparing.get = .error e :=
      snmpJudge_comparing hlarge
    obtain ⟨e, he⟩ := hraises
    have hjudge : snmpJudge str (.obj fields) oid comparing comparing.get = .ok oc := hoc
    rw [he] at hjudge
    cases hjudge
  · intro hno io hio
    obtain ⟨⟨oid, hoid⟩, hlarge⟩ := hno
    rcases hload : io.load with text | _
    · rw [snmpRun, hload]
      exact ⟨_, rfl⟩
    · exact (snmpRun_of_load hload).2 ⟨oid, hoid, snmpTry_returns hio hlarge⟩

/-! ### Connections -/

/-- A conversation over a stream is guarded as a whole, so whatever it raises is returned. -/
theorem streamTry_returns {kind : String} {port : ℤ} {io : StreamIo}
    {talk : ℚ → Except Exc Outcome} : (streamTry kind port io talk).Returns := by
  rw [streamTry]
  rcases io.dial with ⟨sent, e⟩ | l <;> exact ⟨_, rfl⟩

theorem tcpRun_returns (h : tcpValidate re params = .ok ()) (ht : overflows timeoutMs = false)
    (io : StreamIo) : (tcpRun re params timeoutMs io).Returns := by
  obtain ⟨⟨fields, rfl⟩, ⟨port, hport⟩, -⟩ := expect_of_tcpValidate h
  have hargs : ∃ args, tcpArgs (.obj fields) timeoutMs = .ok args := by
    rw [tcpArgs, hport, getField_obj, getField_obj, checkTimeout_eq_ok.2 ht]
    exact ⟨_, rfl⟩
  obtain ⟨args, hargs⟩ := hargs
  rw [tcpRun, hargs]
  exact streamTry_returns

/-- The Telnet checker does not look at its port. -/
theorem telnetRun_returns_iff (h : telnetValidate re params = .ok ())
    (ht : overflows timeoutMs = false) :
    (∀ io, (telnetRun re params timeoutMs io).Returns) ↔ ¬Overlooks params .telnet := by
  obtain ⟨expect, hexpect, -⟩ := except_bind_eq_ok.1 h
  obtain ⟨⟨fields, rfl⟩, -⟩ := getField_eq_ok.1 hexpect
  have hargs : telnetArgs (.obj fields) timeoutMs =
      (intOf (valueOr (.obj fields) "port" (.int 23))).map fun port ↦
        (port, valueOr (.obj fields) "send" .null, valueOr (.obj fields) "expect" .null) := by
    rw [telnetArgs, portParam_obj, getField_obj, getField_obj, checkTimeout_eq_ok.2 ht]
    rcases intOf (valueOr (.obj fields) "port" (.int 23)) with e | port <;> rfl
  rw [Overlooks]
  simp only [telnetRun, hargs, intOf]
  rcases (valueOr (.obj fields) "port" (.int 23)).pyInt with - | port
  · exact iff_of_false (fun hall ↦ by obtain ⟨oc, hoc⟩ := hall silentHost; cases hoc) (by simp)
  · exact iff_of_true (fun io ↦ streamTry_returns) (by simp)

/-- An attempt over SSH is guarded as a whole. -/
theorem sshTry_returns {port : ℤ} {command : Json} {io : SshIo} :
    (sshTry re params port command io).Returns := by
  rw [sshTry]
  rcases io.dial with ⟨sent, e⟩ | ⟨l, key⟩ <;> exact ⟨_, rfl⟩

theorem sshRun_returns_iff (h : sshValidate re params = .ok ()) (ht : overflows timeoutMs = false)
    (hsecret : ∃ fields, secretParams = .obj fields) :
    (∀ io : SshIo, io.Foreseen → (sshRun re params secretParams timeoutMs io).Returns) ↔
      ¬Overlooks params .ssh := by
  have hport := portParam_iff_of_validatePort 22 (port_of_sshValidate h)
  obtain ⟨⟨fields, rfl⟩, -⟩ := port_of_validatePort (port_of_sshValidate h)
  obtain ⟨secrets, rfl⟩ := hsecret
  have hargs : sshArgs (.obj fields) (.obj secrets) timeoutMs =
      (portParam (.obj fields) 22).map fun port ↦ (port,
        valueOr (.obj secrets) "private_key" .null, valueOr (.obj fields) "command" .null) := by
    rw [sshArgs, getField_obj, getField_obj, checkTimeout_eq_ok.2 ht]
    rcases portParam (.obj fields) 22 with e | port <;> rfl
  rw [Overlooks, ← ne_eq, ← hport]
  simp only [sshRun, hargs]
  rcases portParam (.obj fields) 22 with e | port
  · refine iff_of_false (fun hall ↦ ?_) (by simp)
    obtain ⟨oc, hoc⟩ := hall openNet.ssh fun _ h ↦ (by cases h)
    cases hoc
  · refine iff_of_true (fun io hio ↦ ?_) ⟨port, rfl⟩
    show Tried.Returns (if _ then _ else _)
    split
    case isFalse => exact sshTry_returns
    case isTrue =>
      split
      case h_1 => exact sshTry_returns
      case h_2 e he =>
        rw [if_pos (hio e he)]
        exact ⟨_, rfl⟩

/-- The TLS checker overlooks nothing: whatever is raised in the collection is caught. -/
theorem tlsRun_returns {policy : Policy} {target : String} (h : tlsValidate params = .ok ())
    (ht : overflows timeoutMs = false) (io : TlsIo) :
    (tlsRun policy params target timeoutMs io).Returns := by
  obtain ⟨_, hport, -⟩ := except_bind_eq_ok.1 h
  obtain ⟨⟨fields, rfl⟩, hport⟩ := port_of_validatePort hport
  have hint : ∃ port,
      intOf ((valueOr (.obj fields) "port" .null).orElse (.int 443)) = .ok port := by
    rw [Json.orElse]
    split
    case isFalse => exact ⟨443, rfl⟩
    case isTrue htruthy =>
      rcases hport with hnone | ⟨port, hport⟩
      · rw [hnone] at htruthy
        cases htruthy
      · exact ⟨port, intOf_eq_ok.2 (pyInt_of_requirePort hport)⟩
  obtain ⟨port, hint⟩ := hint
  have hargs : ∃ args, tlsArgs (.obj fields) timeoutMs = .ok args := by
    rw [tlsArgs, getField_obj, getField_obj, checkTimeout_eq_ok.2 ht]
    exact exists_bind_eq_ok.2 ⟨_, rfl, exists_bind_eq_ok.2 ⟨_, rfl, exists_bind_eq_ok.2
      ⟨(), rfl, exists_bind_eq_ok.2 ⟨port, hint, _, rfl⟩⟩⟩⟩
  obtain ⟨args, hargs⟩ := hargs
  rw [tlsRun, hargs]
  dsimp only
  split <;> exact ⟨_, rfl⟩

/-! ### HTTP -/

/-- A path that is a text can be put into the URL. -/
theorem exists_httpPath_iff {fields : List (String × Json)} :
    (∃ path, httpPath (.obj fields) = .ok path) ↔
      isText (valueOr (.obj fields) "path" (.str "/")) = true := by
  rw [httpPath, getOr_obj, exists_bind_eq_ok]
  simp only [Except.ok.injEq, exists_eq_left']
  cases valueOr (.obj fields) "path" (.str "/") with
  | str path => exact iff_of_true ⟨_, rfl⟩ rfl
  | _ => exact iff_of_false (by simp) Bool.false_ne_true

theorem exists_httpMethod_iff {fields : List (String × Json)} :
    (∃ u, httpMethod (.obj fields) = .ok u) ↔
      ((valueOr (.obj fields) "method" .null).truthy = true →
        isText (valueOr (.obj fields) "method" .null) = true) := by
  rw [httpMethod, getField_obj, exists_bind_eq_ok]
  simp only [Except.ok.injEq, exists_eq_left', Json.orElse]
  generalize valueOr (.obj fields) "method" .null = method
  by_cases htruthy : method.truthy = true
  · rw [if_pos htruthy]
    cases method with
    | str method => exact iff_of_true ⟨_, rfl⟩ fun _ ↦ rfl
    | _ => exact iff_of_false (by simp) fun h ↦ Bool.false_ne_true (h htruthy)
  · rw [if_neg htruthy]
    exact iff_of_true ⟨_, rfl⟩ fun h ↦ absurd h htruthy

variable {fields : List (String × Json)}

/-- The port of an accepted scheme has a default. -/
theorem exists_httpPort {scheme : Json} (h : ∃ text ∈ ["http", "https"], scheme = .str text) :
    ∃ port, httpPort (.obj fields) scheme = .ok port := by
  obtain ⟨text, htext, rfl⟩ := h
  have hdefault : text = "http" ∨ text = "https" := by simpa using htext
  unfold httpPort
  rw [getField_obj]
  refine exists_bind_eq_ok.2 ⟨_, rfl, ?_⟩
  split
  case isTrue => exact ⟨_, rfl⟩
  case isFalse => rcases hdefault with rfl | rfl <;> exact ⟨_, rfl⟩

/-- The statuses that are expected, 200 where nothing is said. -/
def statusesOf (fields : List (String × Json)) : Json :=
  (valueOr (.obj fields) "expected_status" .null).orElse (.arr [.int 200])

/-- The arguments of the HTTP checker can be read exactly if the path and the method are texts and
the status codes make a set. -/
theorem exists_httpArgs_iff (h : HttpAccepted re fields) :
    (∃ args, httpArgs (.obj fields) = .ok args) ↔
      isText (valueOr (.obj fields) "path" (.str "/")) = true ∧
        ((valueOr (.obj fields) "method" .null).truthy = true →
          isText (valueOr (.obj fields) "method" .null) = true) ∧
        ∃ set, setOf (statusesOf fields) = .ok set := by
  rw [← exists_httpPath_iff, ← exists_httpMethod_iff, httpArgs, getOr_obj, getField_obj,
    getField_obj]
  have hport : ∃ port, httpPort (.obj fields) (valueOr (.obj fields) "scheme" (.str "http")) =
      .ok port := exists_httpPort h.scheme
  obtain ⟨port, hport⟩ := hport
  simp only [exists_bind_eq_ok, Except.ok.injEq, exists_eq_left', hport]
  constructor
  · intro hargs
    obtain ⟨path, hpath, u, hmethod, set, hset, -⟩ := hargs
    exact ⟨⟨path, hpath⟩, ⟨u, hmethod⟩, set, hset⟩
  · intro hargs
    obtain ⟨⟨path, hpath⟩, ⟨u, hmethod⟩, set, hset⟩ := hargs
    exact ⟨path, hpath, u, hmethod, set, hset, _, rfl⟩

/-- Two of the arguments are what the parameters say. -/
theorem expected_of_httpArgs {args : HttpArgs} (h : httpArgs (.obj fields) = .ok args) :
    setOf (statusesOf fields) = .ok args.expected ∧
      args.bodyRe = valueOr (.obj fields) "expected_body_regex" .null := by
  rw [httpArgs, getOr_obj, getField_obj, getField_obj] at h
  simp only [except_bind_eq_ok, Except.ok.injEq, exists_eq_left'] at h
  obtain ⟨port, -, path, -, u, -, set, hset, hargs⟩ := h
  obtain rfl := Except.ok.inj hargs
  exact ⟨hset, rfl⟩

/-- The statuses make a set that can be sorted. -/
theorem sortable_statuses_iff (h : HttpAccepted re fields) :
    (∃ set, setOf (statusesOf fields) = .ok set ∧ ∃ sorted, sortedSet set = .ok sorted) ↔
      ∀ statuses, valueOr (.obj fields) "expected_status" .null = .arr statuses →
        (∀ a ∈ statuses, Hashable a) ∧ ∀ a ∈ statuses, ∀ b ∈ statuses, Alike a b := by
  have hone : ∃ set, setOf (.arr [.int 200]) = .ok set ∧ ∃ sorted, sortedSet set = .ok sorted :=
    ⟨[.int 200], rfl, exists_sortedSet_iff.2 (.inr (.inr le_rfl))⟩
  rw [statusesOf]
  rcases h.statuses with hnone | ⟨statuses, hstatuses⟩
  · rw [hnone]
    exact iff_of_true hone fun _ h ↦ (by cases h)
  · rw [hstatuses]
    simp only [Json.arr.injEq, forall_eq']
    rcases statuses with - | ⟨a, statuses⟩
    · exact iff_of_true hone ⟨fun _ h ↦ (by cases h), fun _ h ↦ (by cases h)⟩
    · show (∃ set, setOf (.arr (a :: statuses)) = .ok set ∧ _) ↔ _
      simp only [setOf_arr, and_assoc, exists_and_left, exists_eq_left']
      exact and_congr_right exists_sortedSet_distinct_iff

/-- The judgement of a response raises if its sorted set cannot be made. -/
theorem httpJudge_returns {args : HttpArgs} {url : Json} {resp : HttpResponse}
    (hbody : args.bodyRe.truthy = true → ∀ text, ∃ b, searchIn re args.bodyRe text = .ok b)
    (hsorted : ∃ sorted, sortedSet args.expected = .ok sorted) :
    ∃ oc, httpJudge re args url resp = .ok oc := by
  have hexpected : ∃ r, responseExpected re args resp = .ok r := by
    rw [responseExpected]
    split
    case isTrue hand =>
      obtain ⟨b, hb⟩ := hbody (Bool.and_eq_true_iff.1 hand).2 resp.text
      refine exists_bind_eq_ok.2 ⟨b, hb, ?_⟩
      cases b <;> exact ⟨_, rfl⟩
    case isFalse => exact ⟨_, rfl⟩
  obtain ⟨⟨ok, mismatch⟩, hexpected⟩ := hexpected
  obtain ⟨sorted, hsorted⟩ := hsorted
  rw [httpJudge]
  refine exists_bind_eq_ok.2 ⟨_, hexpected, ?_⟩
  cases ok with
  | true => exact ⟨_, rfl⟩
  | false => exact exists_bind_eq_ok.2 ⟨sorted, hsorted, _, rfl⟩

/-- A response with a status that is not expected needs the sorted set. -/
theorem sorted_of_httpJudge {args : HttpArgs} {n : ℤ}
    (hn : args.expected.any (fun status ↦ sameElement status (.int n)) = false) {url : Json}
    (h : ∃ oc, httpJudge re args url ⟨0, n, "", ""⟩ = .ok oc) :
    ∃ sorted, sortedSet args.expected = .ok sorted := by
  have hexpected : responseExpected re args ⟨0, n, "", ""⟩ = .ok (false, []) := by
    rw [responseExpected, hn]
    rfl
  rw [httpJudge, hexpected] at h
  obtain ⟨r, hr, h⟩ := exists_bind_eq_ok.1 h
  obtain rfl := Except.ok.inj hr
  obtain ⟨sorted, hsorted, -⟩ := exists_bind_eq_ok.1 h
  exact ⟨sorted, hsorted⟩

/-- What the HTTP checker overlooks, the other way round. -/
theorem not_overlooks_http_iff : ¬Overlooks (.obj fields) .http ↔
    isText (valueOr (.obj fields) "path" (.str "/")) = true ∧
      ((valueOr (.obj fields) "method" .null).truthy = true →
        isText (valueOr (.obj fields) "method" .null) = true) ∧
      ∀ statuses, valueOr (.obj fields) "expected_status" .null = .arr statuses →
        (∀ a ∈ statuses, Hashable a) ∧ ∀ a ∈ statuses, ∀ b ∈ statuses, Alike a b := by
  rw [Overlooks, not_or, not_or, not_and, Bool.not_eq_false, Bool.not_eq_false]
  refine and_congr_right fun _ ↦ and_congr_right fun _ ↦ ?_
  simp only [not_exists, not_and, not_or, not_not]

/-- The HTTP checker, once the target is permitted. -/
theorem httpRun_permitted {policy : Policy} {target : String} {reply : HttpReply}
    (ht : overflows timeoutMs = false) (htarget : policy.targetBlocked target = false) :
    (httpRun re str policy params target timeoutMs reply).Returns ↔
      ∃ args, httpArgs params = .ok args ∧
        ∃ oc, httpOutcome re args (httpUrl str args (bracketed target)) reply = .ok oc := by
  rw [httpRun]
  rcases httpArgs params with e | args
  · simp [Tried.Returns, Tried.raised]
  · simp only [htarget, checkTimeout_eq_ok.2 ht, Except.ok.injEq, exists_eq_left']
    exact Iff.rfl

/-- The policy of the counterexamples lets the target pass. -/
theorem permissive_targetBlocked : Policy.permissive.targetBlocked "192.0.2.1" = false := by
  decide +kernel

/-- The HTTP checker: a path or a method that is no text, and status codes that make no set or
cannot be sorted, are overlooked. -/
theorem httpRun_returns_iff (str : Json → String) (h : httpValidate re params = .ok ())
    (ht : overflows timeoutMs = false) :
    (∀ policy target (reply : HttpReply), reply.Foreseen →
      (httpRun re str policy params target timeoutMs reply).Returns) ↔ ¬Overlooks params .http := by
  obtain ⟨fields, rfl, haccepted⟩ := httpAccepted_of_validate h
  rw [not_overlooks_http_iff, ← sortable_statuses_iff haccepted]
  constructor
  · intro hall
    have hreply : ∀ reply : HttpReply, reply.Foreseen → ∃ args, httpArgs (.obj fields) = .ok args ∧
        ∃ oc, httpOutcome re args (httpUrl str args (bracketed "192.0.2.1")) reply = .ok oc :=
      fun reply hreply ↦ (httpRun_permitted ht permissive_targetBlocked).1 (hall _ _ reply hreply)
    obtain ⟨args, hargs, -⟩ := hreply (.raised .none .timeout) fun _ _ h ↦ (by cases h)
    obtain ⟨hpath, hmethod, -⟩ := (exists_httpArgs_iff haccepted).1 ⟨args, hargs⟩
    obtain ⟨n, hn⟩ := exists_unexpected args.expected
    obtain ⟨args', hargs', hoc⟩ := hreply (.response ⟨0, n, "", ""⟩) fun _ _ h ↦ (by cases h)
    obtain rfl := Except.ok.inj (hargs.symm.trans hargs')
    exact ⟨hpath, hmethod, args.expected, (expected_of_httpArgs hargs).1,
      sorted_of_httpJudge hn hoc⟩
  · intro hread policy target reply hreply
    obtain ⟨hpath, hmethod, set, hset, hsorted⟩ := hread
    obtain ⟨args, hargs⟩ := (exists_httpArgs_iff haccepted).2 ⟨hpath, hmethod, set, hset⟩
    obtain ⟨hexpected, hbody⟩ := expected_of_httpArgs hargs
    obtain rfl := Except.ok.inj (hset.symm.trans hexpected)
    cases htarget : policy.targetBlocked target with
    | true =>
      rw [httpRun, hargs]
      simp only [htarget]
      exact ⟨_, rfl⟩
    | false =>
      refine (httpRun_permitted ht htarget).2 ⟨args, hargs, ?_⟩
      rcases reply with ⟨contact, - | - | e⟩ | resp
      · exact ⟨_, rfl⟩
      · exact ⟨_, rfl⟩
      · exact absurd rfl (hreply contact e)
      · exact httpJudge_returns (hbody ▸ haccepted.bodyRe) hsorted

/-! ### All kinds -/

/-- **What is validated can be run, with these exceptions.** Whatever the policy, the target and the
network do, the checker of a kind returns an outcome for parameters that were accepted, unless they
have what its validation overlooks; and then there is something it raises on. -/
theorem validated_returns_iff {kind : Kind} (h : validate re kind params = .ok ())
    (ht : overflows timeoutMs = false) (hsecret : ∃ fields, secretParams = .obj fields) :
    (∀ policy target (net : Net), net.Foreseen kind →
      (run re str policy kind target params secretParams timeoutMs net).Returns) ↔
        ¬Overlooks params kind := by
  cases kind with
  | icmp =>
    rw [← icmpRun_returns_iff h ht]
    exact ⟨fun hall ping ↦ hall .permissive "" { openNet with ping := ping },
      fun hall _ _ net ↦ hall net.ping⟩
  | udp =>
    rw [← udpRun_returns_iff h ht]
    exact ⟨fun hall io ↦ hall .permissive "" { openNet with udp := io },
      fun hall _ _ net ↦ hall net.udp⟩
  | snmp =>
    rw [← snmpRun_returns_iff str h ht]
    exact ⟨fun hall io ↦ hall .permissive "" { openNet with snmp := io },
      fun hall _ _ net ↦ hall net.snmp⟩
  | ssh =>
    rw [← sshRun_returns_iff h ht hsecret]
    exact ⟨fun hall io ↦ hall .permissive "" { openNet with ssh := io },
      fun hall _ _ net ↦ hall net.ssh⟩
  | http =>
    rw [← httpRun_returns_iff str h ht]
    exact ⟨fun hall policy target reply ↦ hall policy target { openNet with http := reply },
      fun hall policy target net ↦ hall policy target net.http⟩
  | telnet =>
    rw [← telnetRun_returns_iff h ht]
    exact ⟨fun hall io ↦ hall .permissive "" { openNet with stream := io } trivial,
      fun hall _ _ net _ ↦ hall net.stream⟩
  | tcp => exact iff_of_true (fun _ _ net _ ↦ tcpRun_returns h ht net.stream) id
  | tlsCert => exact iff_of_true (fun _ _ net _ ↦ tlsRun_returns h ht net.tls) id

/-- A device that is to be asked at no port. -/
def nullPort : Json := .obj [("version", .str "v2c"), ("port", .null)]

/-- A null port is accepted by the SNMP checker's validation, and its run raises on it. -/
theorem validated_returns_nullPort :
    validate noMatch .snmp nullPort = .ok () ∧ ¬∀ policy target (net : Net), net.Foreseen .snmp →
      (run noMatch (fun _ ↦ "") policy .snmp target nullPort (.obj []) 2000 net).Returns := by
  have haccepted : validate noMatch .snmp nullPort = .ok () := rfl
  have htimeout : overflows 2000 = false := by decide +kernel
  refine ⟨haccepted, fun hall ↦ ?_⟩
  exact (validated_returns_iff haccepted htimeout ⟨[], rfl⟩).1 hall (.inl rfl)

end Checks
