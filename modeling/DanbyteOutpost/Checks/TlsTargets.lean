import DanbyteOutpost.Checks.TlsCert

/-!
# The addresses a certificate collection dials

The policy looks the name up once, and either handshake looks it up again and dials what it is told
then (`mem_dialled_iff`). So a collection keeps to the addresses the policy allows as far as the
later answers do, and where all answers are the same it always does.

## The theorem

`dialled_allowed_iff` says when no address is dialled that the policy refuses: the lookup of
either handshake brings none, or the handshake is not made. `dialled_allowed_of_steady` is the
case in which the name means the same all along, and `rebound_dialled` the one in which it does
not.

That a handshake tries addresses in their order and stops at the first that takes the connection
is `mem_tryAddresses_iff`; `Brings` puts it in terms of what the lookup answered.
-/

namespace Checks

variable {policy : Policy} {allowPrivate : Bool} {io : TlsIo} {pass : Pass} {host : String}
  {port : ℤ} {serverName : Json} {addr : String}

/-! ### One handshake -/

/-- `addr` is among the addresses, and no connection stands to those in front of it. -/
def TriedAmong (connect : String → Except Exc Unit) (addr : String) (addrs : List String) : Prop :=
  ∃ before after, addrs = before ++ addr :: after ∧
    ∀ addr' ∈ before, ∃ e, connect addr' = .error e ∧ e.isOs = true

/-- The next address is tried once the connection to the one before has failed with an `OSError`. -/
theorem triedAmong_cons {connect : String → Except Exc Unit} {head : String}
    {addrs : List String} :
    TriedAmong connect addr (head :: addrs) ↔
      addr = head ∨ (∃ e, connect head = .error e ∧ e.isOs = true) ∧
        TriedAmong connect addr addrs := by
  constructor
  · rintro ⟨before, after, hsplit, hbefore⟩
    rcases List.cons_eq_append_iff.1 hsplit with ⟨-, hcons⟩ | ⟨before', rfl, hrest⟩
    · exact .inl (List.cons.inj hcons).1
    · rw [List.forall_mem_cons] at hbefore
      exact .inr ⟨hbefore.1, before', after, hrest, hbefore.2⟩
  · rintro (rfl | ⟨hhead, before, after, rfl, hbefore⟩)
    · exact ⟨[], addrs, rfl, fun _ h ↦ absurd h List.not_mem_nil⟩
    · exact ⟨head :: before, after, rfl, List.forall_mem_cons.2 ⟨hhead, hbefore⟩⟩

/-- `create_connection` tries exactly those. -/
theorem mem_tryAddresses_iff {connect : String → Except Exc Unit} {last : Exc}
    {addrs : List String} :
    addr ∈ (tryAddresses connect last addrs).1 ↔ TriedAmong connect addr addrs := by
  induction addrs generalizing last with
  | nil =>
    refine iff_of_false List.not_mem_nil ?_
    rintro ⟨before, after, hsplit, -⟩
    exact absurd hsplit.symm (List.append_ne_nil_of_right_ne_nil _ (List.cons_ne_nil _ _))
  | cons head addrs ih =>
    rw [triedAmong_cons, tryAddresses]
    rcases hconnect : connect head with e | -
    · dsimp only
      split
      case isTrue hos =>
        rw [List.mem_cons, ih]
        exact or_congr_right (and_iff_right ⟨e, rfl, hos⟩).symm
      case isFalse hos =>
        rw [List.mem_singleton]
        refine (or_iff_left ?_).symm
        rintro ⟨⟨e', heq, hos'⟩, -⟩
        exact hos (Except.error.inj heq ▸ hos')
    · rw [List.mem_singleton]
      refine (or_iff_left ?_).symm
      rintro ⟨⟨e', heq, -⟩, -⟩
      cases heq

/-- It comes to a connection exactly if there is one to an address it tries. -/
theorem tryAddresses_ok_iff {connect : String → Except Exc Unit} {last : Exc}
    {addrs : List String} :
    (tryAddresses connect last addrs).2 = .ok () ↔
      ∃ addr, TriedAmong connect addr addrs ∧ connect addr = .ok () := by
  induction addrs generalizing last with
  | nil =>
    refine iff_of_false (by simp [tryAddresses]) ?_
    rintro ⟨addr, ⟨before, after, hsplit, -⟩, -⟩
    exact absurd hsplit.symm (List.append_ne_nil_of_right_ne_nil _ (List.cons_ne_nil _ _))
  | cons head addrs ih =>
    simp only [triedAmong_cons, or_and_right, exists_or, exists_eq_left]
    rw [tryAddresses]
    rcases hconnect : connect head with e | -
    · dsimp only
      split
      case isTrue hos =>
        rw [ih, or_iff_right (by simp)]
        exact exists_congr fun addr ↦ and_congr_left' (and_iff_right ⟨e, rfl, hos⟩).symm
      case isFalse hos =>
        refine iff_of_false (by simp) ?_
        rintro (heq | ⟨addr, ⟨⟨e', heq, hos'⟩, -⟩, -⟩)
        · cases heq
        · exact hos (Except.error.inj heq ▸ hos')
    · exact iff_of_true rfl (.inl rfl)

namespace TlsIo

/-- The lookup of a handshake brings an address that is tried. -/
def Brings (io : TlsIo) (pass : Pass) (addr : String) : Prop :=
  ∃ addrs, io.lookup pass = .ok addrs ∧ TriedAmong (io.connect pass) addr addrs

/-- The verifying handshake, once there is a connection for it, ends in a verification error. -/
def Unverified (io : TlsIo) : Prop :=
  (∃ addr, io.Brings .verifying addr ∧ io.connect .verifying addr = .ok ()) ∧
    ∃ message, io.handshake .verifying = .error (.verification message)

end TlsIo

/-- A handshake dials what its own look-up brings, as far as it gets. -/
theorem mem_handshake_iff : addr ∈ (handshake io pass).1 ↔ io.Brings pass addr := by
  have hconnected : (handshake io pass).1 =
      (createConnection (io.lookup pass) (io.connect pass)).1 := by
    rw [handshake]
    rcases createConnection (io.lookup pass) (io.connect pass) with ⟨dialled, e | -⟩ <;> rfl
  rw [hconnected, TlsIo.Brings]
  rcases io.lookup pass with e | addrs
  · exact iff_of_false List.not_mem_nil (by simp)
  · rw [createConnection, mem_tryAddresses_iff]
    simp only [Except.ok.injEq, exists_eq_left']

/-- A verification error comes from a handshake over an established connection. -/
theorem handshake_verification_iff {message : String} :
    (handshake io pass).2.2 = .error (.verification message) ↔
      (∃ addr, io.Brings pass addr ∧ io.connect pass addr = .ok ()) ∧
        io.handshake pass = .error (.verification message) := by
  have hconnection : (createConnection (io.lookup pass) (io.connect pass)).2 = .ok () ↔
      ∃ addr, io.Brings pass addr ∧ io.connect pass addr = .ok () := by
    simp only [TlsIo.Brings]
    rcases io.lookup pass with e | addrs
    · exact iff_of_false (by simp [createConnection]) (by simp)
    · rw [createConnection, tryAddresses_ok_iff]
      simp only [Except.ok.injEq, exists_eq_left']
  rw [← hconnection, handshake]
  rcases createConnection (io.lookup pass) (io.connect pass) with ⟨dialled, e | -⟩
  · refine iff_of_false ?_ (by simp)
    -- a connection that raises raises no verification error
    show (Except.error (TlsExc.ofConnect e) : Except TlsExc TlsSession) ≠ _
    rw [TlsExc.ofConnect]
    split
    · exact fun h ↦ TlsExc.noConfusion (Except.error.inj h)
    · exact fun h ↦ TlsExc.noConfusion (Except.error.inj h)
  · exact (and_iff_right rfl).symm

/-! ### A collection -/

/-- The second handshake is made only behind a verification error, and then dials what its own
look-up brings. -/
theorem mem_readChain_iff : addr ∈ (readChain io host port serverName).dialled ↔
    io.Brings .verifying addr ∨ io.Unverified ∧ io.Brings .reading addr := by
  have hreading : addr ∈ (handshake io .reading).1 ↔ io.Brings .reading addr := mem_handshake_iff
  rw [← mem_handshake_iff, ← hreading]
  have hunverified : io.Unverified ↔
      ∃ message, (handshake io .verifying).2.2 = .error (.verification message) := by
    rw [TlsIo.Unverified, ← exists_and_left]
    exact exists_congr fun message ↦ handshake_verification_iff.symm
  rw [hunverified, readChain]
  rcases handshake io .verifying with ⟨dialled, contact, session⟩
  dsimp only
  have hnone : (∀ message, session ≠ .error (.verification message)) →
      (addr ∈ dialled ↔ addr ∈ dialled ∨ (∃ message, session = .error (.verification message)) ∧
        addr ∈ (handshake io .reading).1) := by
    intro hno
    refine (or_iff_left ?_).symm
    rintro ⟨⟨message, heq⟩, -⟩
    exact hno message heq
  rcases session with (message | shown | shown | e) | session
  · have hread : (readUnverified io host port serverName message).1 =
        (handshake io .reading).1 := by
      rw [readUnverified]
      rcases handshake io .reading with ⟨dialled', contact', (_ | _ | _ | _) | _⟩ <;> rfl
    show addr ∈ dialled ++ (readUnverified io host port serverName message).1 ↔ _
    rw [List.mem_append, hread]
    exact or_congr_right (and_iff_right ⟨message, rfl⟩).symm
  · exact hnone fun _ h ↦ TlsExc.noConfusion (Except.error.inj h)
  · exact hnone fun _ h ↦ TlsExc.noConfusion (Except.error.inj h)
  · exact hnone fun _ h ↦ TlsExc.noConfusion (Except.error.inj h)
  · exact hnone (by simp)

/-- What a collection dials, if the policy lets it: the addresses that each handshake's own lookup
brings. -/
theorem mem_dialled_iff :
    addr ∈ (collectChain policy allowPrivate io host port serverName).dialled ↔
      targetRefusal policy allowPrivate host io.policyLookup = .ok none ∧
        (io.Brings .verifying addr ∨ io.Unverified ∧ io.Brings .reading addr) := by
  rw [collectChain]
  rcases targetRefusal policy allowPrivate host io.policyLookup with e | - | reason
  · exact iff_of_false List.not_mem_nil (by simp)
  · exact mem_readChain_iff.trans (and_iff_right rfl).symm
  · exact iff_of_false List.not_mem_nil (by simp)

/-- `target_allowed` refuses an address. -/
def refuses (policy : Policy) (allowPrivate : Bool) (addr : String) : Bool :=
  match refusalIn policy allowPrivate [addr] with
  | .ok (some _) => true
  | _ => false

/-- The policy, where it lets a target pass, has let each of the addresses pass that its look-up
brought. -/
theorem refuses_of_refusalIn {infos : List String}
    (h : refusalIn policy allowPrivate infos = .ok none)
    (hmem : addr ∈ infos) : refuses policy allowPrivate addr = false := by
  induction infos with
  | nil => exact absurd hmem List.not_mem_nil
  | cons info infos ih =>
    rw [refusalIn] at h
    split at h
    case h_1 => cases h
    case h_2 ip hip =>
    split at h
    case isTrue => cases h
    case isFalse hdialled =>
    split at h
    case isTrue => cases h
    case isFalse hunblocked =>
    rcases List.mem_cons.1 hmem with rfl | hmem
    · rw [refuses, refusalIn, hip]
      dsimp only
      rw [if_neg hdialled, if_neg hunblocked, refusalIn]
    · exact ih h hmem

/-- Where every lookup has the answer of the policy's, no address is dialled that it refuses. -/
theorem dialled_allowed_of_steady (hsteady : ∀ pass, io.lookup pass = io.policyLookup)
    (h : addr ∈ (collectChain policy allowPrivate io host port serverName).dialled) :
    refuses policy allowPrivate addr = false := by
  obtain ⟨hallowed, hbrings⟩ := mem_dialled_iff.1 h
  obtain ⟨pass, addrs, haddrs, before, after, rfl, -⟩ : ∃ pass, io.Brings pass addr :=
    hbrings.elim (fun hv ↦ ⟨_, hv⟩) fun hr ↦ ⟨_, hr.2⟩
  rw [← hsteady pass, haddrs, targetRefusal] at hallowed
  exact refuses_of_refusalIn hallowed (List.mem_append_right _ List.mem_cons_self)

/-- A collection dials no address the policy refuses exactly if, once the policy has let the name
pass, the lookup of neither handshake it makes brings one to try.

The policy and the handshakes each look the name up for themselves. With one answer to all lookups
nothing that is refused is dialled (`dialled_allowed_of_steady`). -/
theorem dialled_allowed_iff (policy : Policy) (allowPrivate : Bool) (io : TlsIo) (host : String)
    (port : ℤ) (serverName : Json) :
    (∀ addr ∈ (collectChain policy allowPrivate io host port serverName).dialled,
      refuses policy allowPrivate addr = false) ↔
    (targetRefusal policy allowPrivate host io.policyLookup = .ok none →
      (∀ addr, io.Brings .verifying addr → refuses policy allowPrivate addr = false) ∧
        (io.Unverified → ∀ addr, io.Brings .reading addr →
          refuses policy allowPrivate addr = false)) := by
  simp only [mem_dialled_iff]
  constructor
  · exact fun h hallowed ↦ ⟨fun addr hbrings ↦ h addr ⟨hallowed, .inl hbrings⟩,
      fun hunverified addr hbrings ↦ h addr ⟨hallowed, .inr ⟨hunverified, hbrings⟩⟩⟩
  · rintro h addr ⟨hallowed, hbrings | ⟨hunverified, hbrings⟩⟩
    · exact (h hallowed).1 addr hbrings
    · exact (h hallowed).2 hunverified addr hbrings

/-- The name is looked up once more for the handshake, and is the loopback address by then. -/
theorem rebound_dialled :
    let io : TlsIo :=
      { policyLookup := .ok ["192.0.2.7"]
        lookup := fun _ ↦ .ok ["127.0.0.1"]
        connect := fun _ _ ↦ .ok ()
        handshake := fun _ ↦ .ok ⟨[], none, none, none⟩
        x509 := fun _ ↦ .error ⟨.value, "", "ValueError"⟩
        now := 0
        inTime := true }
    (collectChain (configure false []) false io "pki.example" 443 .null).dialled = ["127.0.0.1"] ∧
      refuses (configure false []) false "127.0.0.1" = true := by
  decide +kernel

end Checks
