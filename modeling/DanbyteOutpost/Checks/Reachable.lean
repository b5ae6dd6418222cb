import DanbyteOutpost.Checks.Connections

/-!
# Down means unreachable

`down` is for a connection that could not be made. The `except` clauses of the TCP, Telnet and SSH
checkers cover what follows the connection too, so an `OSError` there (and for SSH an error of the
protocol) also ends in `down`. Telnet alone has a clause of its own for a host that stays silent.

## The statement

An attempt is honest if it says `down` only where the connection failed, and comes to another
status where it was established (`Tried.Honest`). `FailsWith` says which exceptions a part of a
conversation can end in, by its text, and composes over `bind`; with it each checker's
conversation is gone through once.

* `streamTry_honest_iff`, `sshTry_honest_iff`: an attempt is honest exactly if its conversation,
  once there is a connection, raises nothing that the `down` clause takes.
* `TcpKeeps`, `TelnetKeeps`, `SshKeeps`: these conditions, on the parameters and the network.
* `down_unreachable_iff`: the three of them, over every input.
* `silentHost_down`: a host that accepts and says nothing.
-/

namespace Checks

variable {re : Regex} {params secretParams : Json} {timeoutMs : ℤ}

/-- `down` only when the connection attempt failed; and with its connection an attempt ends in
another status. -/
def Tried.Honest (t : Tried) : Prop :=
  (∀ oc, t.result = .ok oc → oc.status = .down → ∃ sent, t.contact = .failed sent) ∧
    (t.contact = .established → ∃ oc, t.result = .ok oc ∧ oc.status ≠ .down)

/-- Where the connection does not stand, only a failed attempt ends in `down`. -/
theorem honest_of_not_established {t : Tried} (h : t.contact ≠ .established)
    (hdown : ∀ oc, t.result = .ok oc → oc.status = .down → ∃ sent, t.contact = .failed sent) :
    t.Honest :=
  ⟨hdown, fun hyes ↦ absurd hyes h⟩

/-- Where it stands, the outcome is to be another. -/
theorem honest_established_iff {oc : Outcome} :
    (⟨.established, .ok oc⟩ : Tried).Honest ↔ oc.status ≠ .down := by
  constructor
  · rintro ⟨-, h⟩
    obtain ⟨oc', hoc, hne⟩ := h rfl
    cases hoc
    exact hne
  · intro hne
    refine ⟨fun oc' hoc hdown ↦ ?_, fun _ ↦ ⟨oc, rfl, hne⟩⟩
    cases hoc
    exact absurd hdown hne

/-- What raises reports nothing that could be wrong. -/
theorem honest_raised {e : Exc} : (Tried.raised e).Honest :=
  honest_of_not_established (by simp [Tried.raised]) (by simp [Tried.raised])

/-! ### What goes wrong in a conversation -/

/-- The call raises an exception of the kind. -/
def FailsWith {α : Type} (p : Exc → Bool) (x : Except Exc α) : Prop :=
  ∃ e, x = .error e ∧ p e = true

section

variable {α β : Type} {p : Exc → Bool}

@[simp]
theorem not_failsWith_ok {a : α} : ¬FailsWith p (.ok a) := by
  rintro ⟨e, he, -⟩
  cases he

@[simp]
theorem failsWith_error {e : Exc} : FailsWith p (.error e : Except Exc α) ↔ p e = true := by
  simp [FailsWith]

/-- Two parts fail where the first does, or the second behind it. -/
theorem failsWith_bind {x : Except Exc α} {f : α → Except Exc β} :
    FailsWith p (x >>= f) ↔ FailsWith p x ∨ ∃ a, x = .ok a ∧ FailsWith p (f a) := by
  cases x with
  | ok a =>
    show FailsWith p (f a) ↔ _
    simp
  | error e =>
    show FailsWith p (.error e) ↔ _
    simp

/-- A conversation is honest when it ends in no `down` of its own and raises nothing the handler
turns into one. -/
theorem honest_caughtBy_iff {handler : Exc → Outcome} {talk : Except Exc Outcome}
    (hhandler : ∀ e, (handler e).status = .down ↔ p e = true)
    (htalk : ∀ oc, talk = .ok oc → oc.status ≠ .down) :
    (⟨.established, .ok (caughtBy handler talk)⟩ : Tried).Honest ↔ ¬FailsWith p talk := by
  rw [honest_established_iff]
  cases talk with
  | ok oc => exact iff_of_true (htalk oc rfl) not_failsWith_ok
  | error e =>
    show (handler e).status ≠ .down ↔ _
    rw [ne_eq, hhandler, failsWith_error]

end

/-! ### Streams -/

/-- The handler says `down` of an `OSError` only, of which a timeout is one. -/
theorem onStreamError_down {kind : String} {port : ℤ} (e : Exc) :
    (onStreamError kind port e).status = .down ↔ e.isOs = true := by
  rw [onStreamError]
  split
  case isTrue h => exact iff_of_true rfl h
  case isFalse h => exact iff_of_false nofun h

/-- An attempt at a connection is honest exactly if nothing goes wrong once the connection is
established: every `OSError` is `down`, and only those before it are of the port. -/
theorem streamTry_honest_iff {kind : String} {port : ℤ} {io : StreamIo}
    {talk : ℚ → Except Exc Outcome} (htalk : ∀ l oc, talk l = .ok oc → oc.status ≠ .down) :
    (streamTry kind port io talk).Honest ↔
      ∀ l, io.dial = .established l → ¬FailsWith Exc.isOs (talk l) := by
  rw [streamTry]
  rcases io.dial with ⟨sent, e⟩ | l
  · refine iff_of_true (honest_of_not_established (by simp) fun _ _ _ ↦ ⟨sent, rfl⟩) ?_
    rintro l ⟨⟩
  · refine (honest_caughtBy_iff onStreamError_down (htalk l)).trans ?_
    simp

/-- A search raises what the pattern or its type make it raise, which is no `OSError`. -/
theorem searchIn_fails {pattern : Json} {text : String} :
    ¬FailsWith Exc.isOs (searchIn re pattern text) := by
  unfold searchIn
  split
  · split <;> simp [Exc.isOs]
  · simp [Exc.interpreter, Exc.isOs]

/-- What is to be sent is written, as far as the network knows. -/
def Writes (send : Json) (io : StreamIo) : Prop :=
  send = .null ∨ ∃ text, send = .str text ∧ io.drain = .ok ()

/-- A text is sent, or nothing is to be sent. -/
theorem writeOut_eq_ok {send : Json} {io : StreamIo} :
    writeOut send io = .ok () ↔ Writes send io := by
  unfold writeOut Writes
  cases send <;> simp

/-- Sending fails as an `OSError` where the buffer is drained. -/
theorem writeOut_fails {send : Json} {io : StreamIo} :
    FailsWith Exc.isOs (writeOut send io) ↔
      (∃ text, send = .str text) ∧ FailsWith Exc.isOs io.drain := by
  unfold writeOut
  cases send <;> simp [Exc.interpreter, Exc.isOs]

/-- No write fails, and no read that comes after it; `reads` says whether there is one, and `p`
which exceptions of it count. -/
structure Talks (p : Exc → Bool) (reads : Prop) (send : Json) (io : StreamIo) : Prop where
  /-- What is sent is sent. -/
  drain : ∀ text, send = .str text → ¬FailsWith Exc.isOs io.drain
  /-- Where something is read behind it, the read comes back. -/
  read : Writes send io → reads → ¬FailsWith p io.read

/-- A write, and a rest that goes wrong with its read. -/
theorem talks_iff {p : Exc → Bool} {reads : Prop} {send : Json} {io : StreamIo}
    {rest : Except Exc Outcome} (hrest : FailsWith Exc.isOs rest ↔ reads ∧ FailsWith p io.read) :
    ¬FailsWith Exc.isOs (do writeOut send io; rest) ↔ Talks p reads send io := by
  rw [failsWith_bind, writeOut_fails, not_or]
  constructor
  · rintro ⟨hdrain, hread⟩
    refine ⟨fun text hsend hfail ↦ hdrain ⟨⟨text, hsend⟩, hfail⟩, fun hwrites hreads hfail ↦ ?_⟩
    exact hread ⟨(), writeOut_eq_ok.2 hwrites, hrest.2 ⟨hreads, hfail⟩⟩
  · intro h
    refine ⟨fun ⟨⟨text, hsend⟩, hfail⟩ ↦ h.drain text hsend hfail, fun ⟨_, hwrites, hfail⟩ ↦ ?_⟩
    obtain ⟨hreads, hfail⟩ := hrest.1 hfail
    exact h.read (writeOut_eq_ok.1 hwrites) hreads hfail

/-! ### TCP -/

/-- The judgement of a TCP check fails so where it waits for a banner and the read does. -/
theorem tcpJudge_fails {port : ℤ} {expect : Json} {io : StreamIo} {l : ℚ} :
    FailsWith Exc.isOs (tcpJudge re port expect io l) ↔
      expect ≠ .null ∧ FailsWith Exc.isOs io.read := by
  unfold tcpJudge
  split
  case h_1 => simp
  case h_2 hne =>
    rw [failsWith_bind, and_iff_right hne]
    refine or_iff_left ?_
    rintro ⟨raw, -, h⟩
    -- the banner is there
    rcases failsWith_bind.1 h with h | ⟨found, -, h⟩
    · exact searchIn_fails h
    · cases found <;> exact not_failsWith_ok h

/-- No conversation over TCP ends in `down` of its own accord. -/
theorem tcpTalk_status {port : ℤ} {send expect : Json} {io : StreamIo} {l : ℚ} {oc : Outcome}
    (h : tcpTalk re port send expect io l = .ok oc) : oc.status ≠ .down := by
  obtain ⟨-, -, h⟩ := except_bind_eq_ok.1 h
  unfold tcpJudge at h
  split at h
  · cases h
    simp
  · obtain ⟨raw, -, h⟩ := except_bind_eq_ok.1 h
    obtain ⟨found, -, h⟩ := except_bind_eq_ok.1 h
    cases found
    · cases h
      simp [mismatch]
    · cases h
      simp

/-! ### Telnet -/

/-- An `OSError` that is no timeout. -/
def Exc.breaks (e : Exc) : Bool := e.isOs && e.cls ≠ .timeout

/-- Over Telnet, the read fails so unless it is a timeout, which is passed over. -/
theorem telnetBanner_fails {send expect : Json} {io : StreamIo} :
    FailsWith Exc.isOs (telnetBanner send expect io) ↔
      (send ≠ .null ∨ expect ≠ .null) ∧ FailsWith Exc.breaks io.read := by
  unfold telnetBanner
  split
  case h_1 => simp
  case h_2 hno =>
    have hreads : send ≠ .null ∨ expect ≠ .null := by
      by_contra hnull
      rw [not_or, not_not, not_not] at hnull
      exact hno hnull.1 hnull.2
    rw [and_iff_right hreads]
    rcases io.read with e | raw
    · show FailsWith _ (if e.cls = .timeout then .ok "" else .error e) ↔ _
      rw [failsWith_error, Exc.breaks]
      by_cases htimeout : e.cls = .timeout <;> simp [htimeout]
    · simp

/-- The judgement of what was read fails in no such way. -/
theorem telnetJudge_fails {port : ℤ} {expect : Json} {l : ℚ} {banner : String} :
    ¬FailsWith Exc.isOs (telnetJudge re port expect l banner) := by
  intro h
  rcases failsWith_bind.1 h with h | ⟨found, -, h⟩
  · unfold telnetFinds at h
    split at h
    · exact not_failsWith_ok h
    · exact searchIn_fails h
  · cases found <;> exact not_failsWith_ok h

/-- No conversation over Telnet ends in `down` of its own accord. -/
theorem telnetTalk_status {port : ℤ} {send expect : Json} {io : StreamIo} {l : ℚ} {oc : Outcome}
    (h : telnetTalk re port send expect io l = .ok oc) : oc.status ≠ .down := by
  obtain ⟨-, -, h⟩ := except_bind_eq_ok.1 h
  obtain ⟨banner, -, h⟩ := except_bind_eq_ok.1 h
  obtain ⟨found, -, h⟩ := except_bind_eq_ok.1 h
  cases found
  · cases h
    simp [mismatch]
  · cases h
    simp

/-! ### SSH -/

/-- An `OSError` or an `asyncssh.Error` other than a rejected login. -/
def Exc.drops (e : Exc) : Bool := e.isOs || e.cls = .ssh

/-- The handler says `down` of a connection that was lost or refused and of a timeout. -/
theorem onSshError_down {port : ℤ} (e : Exc) :
    (onSshError port e).status = .down ↔ e.drops = true := by
  obtain ⟨cls, text, name⟩ := e
  cases cls <;> simp [onSshError, Outcome.down, Outcome.unknownWith, Exc.drops, Exc.isOs,
    FastLane.CheckOutcome.unknown]

theorem searchIn_drops {pattern : Json} {text : String} :
    ¬FailsWith Exc.drops (searchIn re pattern text) := by
  unfold searchIn
  split
  · split <;> simp [Exc.drops, Exc.isOs]
  · simp [Exc.interpreter, Exc.drops, Exc.isOs]

theorem getField_drops {key : String} : ¬FailsWith Exc.drops (getField params key) := by
  rw [getField]
  split
  · simp [Exc.interpreter, Exc.drops, Exc.isOs]
  · exact not_failsWith_ok

theorem exitExpected_drops {status : Option ℤ} :
    ¬FailsWith Exc.drops (exitExpected params status) := by
  intro h
  rcases failsWith_bind.1 h with h | ⟨code, -, h⟩
  · exact getField_drops h
  · split at h
    · exact not_failsWith_ok h
    · split at h
      · simp [Exc.interpreter, Exc.drops, Exc.isOs] at h
      · exact not_failsWith_ok h

theorem outputExpected_drops {ok : Bool} {output : Option String} :
    ¬FailsWith Exc.drops (outputExpected re params ok output) := by
  intro h
  rcases failsWith_bind.1 h with h | ⟨pattern, -, h⟩
  · exact getField_drops h
  · split at h
    · rcases failsWith_bind.1 h with h | ⟨found, -, h⟩
      · exact searchIn_drops h
      · cases found <;> exact not_failsWith_ok h
    · exact not_failsWith_ok h

/-- A conversation over SSH is lost where it runs a command and that is. -/
theorem sshTalk_fails {port : ℤ} {command : Json} {io : SshIo} {l : ℚ} {key : Option Json} :
    FailsWith Exc.drops (sshTalk re params port command io l key) ↔
      command.truthy = true ∧ FailsWith Exc.drops io.command := by
  rw [sshTalk]
  dsimp only
  split
  case isTrue hno =>
    rw [Bool.not_eq_true'] at hno
    simp only [hno, Bool.false_eq_true, false_and, iff_false]
    exact not_failsWith_ok
  case isFalse hyes =>
    rw [Bool.not_eq_true', Bool.not_eq_false] at hyes
    rw [failsWith_bind, and_iff_right hyes]
    refine or_iff_left ?_
    rintro ⟨⟨status, output⟩, -, h⟩
    -- the command has come back
    rcases failsWith_bind.1 h with h | ⟨ok, -, h⟩
    · exact exitExpected_drops h
    · rcases failsWith_bind.1 h with h | ⟨out, -, h⟩
      · exact outputExpected_drops h
      · exact not_failsWith_ok h

theorem sshTalk_status {port : ℤ} {command : Json} {io : SshIo} {l : ℚ} {key : Option Json}
    {oc : Outcome} (h : sshTalk re params port command io l key = .ok oc) : oc.status ≠ .down := by
  rw [sshTalk] at h
  dsimp only at h
  split at h
  · cases h
    simp
  · obtain ⟨_, -, h⟩ := except_bind_eq_ok.1 h
    obtain ⟨ok, -, h⟩ := except_bind_eq_ok.1 h
    obtain ⟨⟨ok, said⟩, -, h⟩ := except_bind_eq_ok.1 h
    cases h
    cases ok <;> simp

/-- Neither the command fails nor the connection when it is left. -/
structure Runs (command : Json) (io : SshIo) : Prop where
  /-- The connection is closed in order. -/
  leave : ∀ e, io.leave = some e → e.drops = false
  /-- And the command, where there is one, was run. -/
  command : io.leave = none → command.truthy = true → ¬FailsWith Exc.drops io.command

/-- With the end of the connection, which may raise as well. -/
theorem left_fails {port : ℤ} {command : Json} {io : SshIo} {l : ℚ} {key : Option Json} :
    ¬FailsWith Exc.drops (left io (sshTalk re params port command io l key)) ↔
      Runs command io := by
  rw [left]
  split
  case h_1 e he =>
    rw [failsWith_error, Bool.not_eq_true]
    constructor
    · intro hno
      exact ⟨fun e' he' ↦ by rwa [Option.some.inj (he.symm.trans he')] at hno,
        fun hnone ↦ absurd (he.symm.trans hnone) (Option.some_ne_none e)⟩
    · exact fun h ↦ h.leave e he
  case h_2 hnone =>
    rw [sshTalk_fails, not_and]
    constructor
    · exact fun h ↦ ⟨fun e he ↦ absurd (he.symm.trans hnone) (Option.some_ne_none e), fun _ ↦ h⟩
    · exact fun h ↦ h.command hnone

/-- So an attempt over SSH is honest exactly if the command runs, once there is a connection. -/
theorem sshTry_honest_iff {port : ℤ} {command : Json} {io : SshIo} :
    (sshTry re params port command io).Honest ↔
      ∀ l key, io.dial = .established l key → Runs command io := by
  rw [sshTry]
  rcases io.dial with ⟨sent, e⟩ | ⟨l, key⟩
  · refine iff_of_true (honest_of_not_established (by simp) fun _ _ _ ↦ ⟨sent, rfl⟩) ?_
    rintro l key ⟨⟩
  · refine (honest_caughtBy_iff onSshError_down fun oc h ↦ ?_).trans (left_fails.trans ?_)
    · rw [left] at h
      split at h
      · cases h
      · exact sshTalk_status h
    · simp

/-! ### The three checkers -/

/-- With its connection, a TCP attempt meets no `OSError`. -/
def TcpKeeps (params : Json) (timeoutMs : ℤ) (io : StreamIo) : Prop :=
  ∀ port send expect l, tcpArgs params timeoutMs = .ok (port, send, expect) →
    io.dial = .established l → Talks Exc.isOs (expect ≠ .null) send io

/-- With its connection, a Telnet attempt meets no `OSError` but a timeout of its read. -/
def TelnetKeeps (params : Json) (timeoutMs : ℤ) (io : StreamIo) : Prop :=
  ∀ port send expect l, telnetArgs params timeoutMs = .ok (port, send, expect) →
    io.dial = .established l → Talks Exc.breaks (send ≠ .null ∨ expect ≠ .null) send io

/-- With its connection, an SSH attempt meets no `OSError` and no error of the protocol. -/
def SshKeeps (params secretParams : Json) (timeoutMs : ℤ) (io : SshIo) : Prop :=
  ∀ port key command, sshArgs params secretParams timeoutMs = .ok (port, key, command) →
    (key.truthy = true → io.importKey = .ok ()) →
      ∀ l hostKey, io.dial = .established l hostKey → Runs command io

/-- What is asked of all arguments that are read is asked of those that are. -/
theorem forall_args_iff {args : ℤ × Json × Json} {P : ℤ → Json → Json → Prop} :
    (∀ a b c, (Except.ok args : Except Exc (ℤ × Json × Json)) = .ok (a, b, c) → P a b c) ↔
      P args.1 args.2.1 args.2.2 := by
  obtain ⟨a, b, c⟩ := args
  constructor
  · exact fun h ↦ h a b c rfl
  · intro h a' b' c' heq
    cases heq
    exact h

/-- A TCP check is honest exactly if the conversation is not broken off; arguments that cannot be
read come before it. -/
theorem tcpRun_honest_iff {io : StreamIo} :
    (tcpRun re params timeoutMs io).Honest ↔ TcpKeeps params timeoutMs io := by
  rw [tcpRun, TcpKeeps]
  rcases tcpArgs params timeoutMs with e | ⟨port, send, expect⟩
  · exact iff_of_true honest_raised nofun
  · refine Iff.trans ?_ (forall₃_congr fun _ _ _ ↦ forall_comm)
    rw [forall_args_iff]
    refine (streamTry_honest_iff fun _ _ ↦ tcpTalk_status).trans ?_
    simp only [tcpTalk, talks_iff tcpJudge_fails]

theorem telnetRun_honest_iff {io : StreamIo} :
    (telnetRun re params timeoutMs io).Honest ↔ TelnetKeeps params timeoutMs io := by
  rw [telnetRun, TelnetKeeps]
  rcases telnetArgs params timeoutMs with e | ⟨port, send, expect⟩
  · exact iff_of_true honest_raised nofun
  · refine Iff.trans ?_ (forall₃_congr fun _ _ _ ↦ forall_comm)
    rw [forall_args_iff]
    refine (streamTry_honest_iff fun _ _ ↦ telnetTalk_status).trans ?_
    have hrest : ∀ l, FailsWith Exc.isOs (do
        let banner ← telnetBanner send expect io
        telnetJudge re port expect l banner) ↔
        (send ≠ .null ∨ expect ≠ .null) ∧ FailsWith Exc.breaks io.read := by
      intro l
      rw [failsWith_bind, telnetBanner_fails]
      exact or_iff_left fun ⟨_, _, h⟩ ↦ telnetJudge_fails h
    simp only [telnetTalk, talks_iff (hrest _)]

/-- An SSH check likewise; with a key that cannot be imported it comes to no connection. -/
theorem sshRun_honest_iff {io : SshIo} :
    (sshRun re params secretParams timeoutMs io).Honest ↔
      SshKeeps params secretParams timeoutMs io := by
  rw [sshRun, SshKeeps]
  rcases sshArgs params secretParams timeoutMs with e | ⟨port, key, command⟩
  · exact iff_of_true honest_raised nofun
  rw [forall_args_iff]
  dsimp only
  -- a key that cannot be imported ends the check before anything is dialled
  split
  case isFalse hno =>
    rw [sshTry_honest_iff]
    exact ⟨fun h _ ↦ h, fun h ↦ h fun hyes ↦ absurd hyes hno⟩
  case isTrue hyes =>
    split
    case h_1 hkey =>
      rw [sshTry_honest_iff]
      exact ⟨fun h _ ↦ h, fun h ↦ h fun _ ↦ hkey⟩
    case h_2 e hkey =>
      refine iff_of_true ?_ fun himport ↦ ?_
      · split
        · refine honest_of_not_established (by simp) ?_
          rintro oc ⟨⟩ ⟨⟩
        · exact honest_raised
      · simp [hkey, hyes] at himport

/-- Each of the three checkers says `down` of an unreachable host only, and something else of one it
has a connection to, exactly when nothing goes wrong with that connection.

One `except` clause covers the connection attempt and everything behind it, so what goes wrong on a
connection is reported like the lack of one. `Talks` and `Runs` say what that is. -/
theorem down_unreachable_iff (re : Regex) (params secretParams : Json) (timeoutMs : ℤ)
    (io : StreamIo) (ssh : SshIo) :
    ((tcpRun re params timeoutMs io).Honest ↔ TcpKeeps params timeoutMs io) ∧
      ((telnetRun re params timeoutMs io).Honest ↔ TelnetKeeps params timeoutMs io) ∧
        ((sshRun re params secretParams timeoutMs ssh).Honest ↔
          SshKeeps params secretParams timeoutMs ssh) :=
  ⟨tcpRun_honest_iff, telnetRun_honest_iff, sshRun_honest_iff⟩

/-- Patterns that all compile and are found nowhere. -/
def noMatch : Regex := ⟨fun _ ↦ none, fun _ _ ↦ false⟩

/-- A host that lets itself be connected to and then says nothing. -/
def silentHost : StreamIo := ⟨.established 1, .ok (), .error ⟨.timeout, "", "TimeoutError"⟩⟩

/-- A port with a banner that is expected. -/
def bannerParams : Json := .obj [("port", .int 22), ("expect", .str "^SSH")]

/-- The TCP checker reports a silent host as an outage. -/
theorem silentHost_down :
    tcpValidate noMatch bannerParams = .ok () ∧
      ∃ oc, tcpRun noMatch bannerParams 2000 silentHost = ⟨.established, .ok oc⟩ ∧
        oc.status = .down := by
  have htimeout : overflows 2000 = false := by decide +kernel
  have hcheck : checkTimeout 2000 = .ok () := if_neg (by rw [htimeout]; exact Bool.false_ne_true)
  have hargs : tcpArgs bannerParams 2000 = .ok (22, .null, .str "^SSH") := by
    rw [tcpArgs]
    exact except_bind_eq_ok.2 ⟨22, rfl, except_bind_eq_ok.2 ⟨(), hcheck, rfl⟩⟩
  refine ⟨rfl, .down ⟨.timeout, "", "TimeoutError"⟩ [("port", .int 22)], ?_, rfl⟩
  rw [tcpRun, hargs]
  rfl

end Checks
