import DanbyteOutpost.Data.Dict
import DanbyteOutpost.Data.PyText
import Mathlib.Data.List.Dedup

/-!
# Reverse DNS

`resolve_ptrs` and its two back ends. What is asked lies outside the program and is a parameter,
`Net`: the host's own resolver behind `loop.getnameinfo`, and `dnspython`, which may be missing,
may refuse a configuration, and otherwise answers each address.

Three facts are kept apart for an address, as `Lookup` says: it has a name, it was answered that
there is none, or nobody answered. `Net.answers` states which of these really was the case; the
back ends `viaSystem` and `viaResolvers` are what the code makes of it. They agree on the explicit
path (`viaResolversOne_eq`) and part on the host path at exactly one reading
(`viaSystemOne_eq_iff`): a `gaierror` is taken for "no such name" whatever its code.

## The chain of functions

`resolvePtrs` asks the back end that the resolvers select, which is the host's own where all of
them are blank (`usable`), and drops the addresses nobody answered for. `resolvePtrs_spec` is its
contract for callers.

`Net` leaves it open what the two services do. A `Failure` is of the call as a whole: `dnspython`
is missing, or refuses the configuration. Then there is no answer for any address.
-/

namespace ReverseDns

/-- The code a `socket.gaierror` carries. -/
inductive EaiCode
  /-- `EAI_NONAME`: the servers answered, and there is no such name. -/
  | noName
  /-- `EAI_AGAIN`: temporary failure in name resolution. -/
  | again
  /-- `EAI_FAIL`: the server refused or failed. -/
  | fail
  /-- Any other code. -/
  | other (code : ℤ)
  deriving DecidableEq

/-- What `loop.getnameinfo(…, NI_NAMEREQD)` ends in for one address. -/
inductive NameInfo
  /-- A name. -/
  | host (name : String)
  /-- `socket.gaierror`. -/
  | gaierror (code : EaiCode)
  /-- Another `OSError`. -/
  | osError
  /-- The wait was given up. -/
  | timeout
  deriving DecidableEq

/-- What `Resolver.resolve(…, "PTR")` ends in for one address. -/
inductive PtrReply
  /-- The first record. -/
  | answer (rdata : String)
  /-- `NXDOMAIN`: there is no such name. -/
  | nxdomain
  /-- `NoAnswer`: the name has no such record. -/
  | noAnswer
  /-- Any other exception: a timeout, a refusal, a name that is no address. -/
  | failed
  deriving DecidableEq

/-- The settings `_via_resolvers` gives a `dns.asyncresolver.Resolver`. -/
structure ResolverConfig where
  /-- The addresses to ask. -/
  nameservers : List String
  /-- The ports of those that have one of their own. -/
  nameserverPorts : Option (Dict String ℤ)

/-- The name services around the agent. -/
structure Net where
  /-- The resolver of the host. -/
  getnameinfo : String → NameInfo
  /-- `none` when dnspython is not installed; a configuration it refuses gives `none`. -/
  dnspython : Option (ResolverConfig → Option (String → PtrReply))

/-- What a lookup comes to: `host`, `None` or `_NO_ANSWER`. -/
inductive Lookup
  /-- There is a name. -/
  | host (name : String)
  /-- It was answered that there is none. -/
  | nameless
  /-- It was not answered. -/
  | noAnswer
  deriving DecidableEq

/-- Why `resolve_ptrs` raised. -/
inductive Failure
  /-- Dnspython is missing. -/
  | reverseDNSUnavailable
  /-- Any other exception. -/
  | exception
  deriving DecidableEq

/-! ### The code -/

/-- `host` or `host:port`, `[v6]` or `[v6]:port`; `none` when the port is no number. -/
def splitResolver (entry : String) : Option (String × ℤ) :=
  match (PyText.strip entry).toList with
  | '[' :: cs =>
    let (host, _, rest) := PyText.partition ']' cs
    let port := rest.dropWhile (· = ':')
    if port.isEmpty then some (String.ofList host, 53)
    else (PyText.intOfText (String.ofList port)).map (Prod.mk (String.ofList host))
  | cs =>
    let (host, sep, port) := PyText.rpartition ':' cs
    -- A port of digits that are not decimal, a superscript say, passes, and is no number.
    if sep && PyText.isdigit port && !host.contains ':' then
      (PyText.intOfText (String.ofList port)).map (Prod.mk (String.ofList host))
    else some (String.ofList cs, 53)

/-- `one(addr)` of `_via_system`. -/
def viaSystemOne : NameInfo → Lookup
  | .host name => .host name
  | .gaierror _ => .nameless
  | .osError => .noAnswer
  | .timeout => .noAnswer

/-- `_via_system(addresses)`: the host's own resolver, one address at a time. -/
def viaSystem (net : Net) (addresses : List String) : Dict String Lookup :=
  Dict.ofList (addresses.map fun addr ↦ (addr, viaSystemOne (net.getnameinfo addr)))

/-- The resolver settings for a list of servers; `none` when an entry does not parse. -/
def resolverConfig (resolvers : List String) : Option ResolverConfig :=
  (resolvers.mapM splitResolver).map fun parsed ↦
    let ports := Dict.ofList parsed
    { nameservers := parsed.map Prod.fst
      nameserverPorts := if ports.items.any fun e ↦ e.2 != 53 then some ports else none }

/-- `one(addr)` of `_via_resolvers`. -/
def viaResolversOne : PtrReply → Lookup
  | .answer rdata => .host (PyText.rstripDots rdata)
  | .nxdomain => .nameless
  | .noAnswer => .nameless
  | .failed => .noAnswer

/-- `_via_resolvers(addresses, resolvers)`. It raises where dnspython is missing or a resolver
cannot be read. -/
def viaResolvers (net : Net) (addresses resolvers : List String) :
    Except Failure (Dict String Lookup) :=
  match net.dnspython with
  | none => .error .reverseDNSUnavailable
  | some configure =>
    match (resolverConfig resolvers).bind configure with
    | none => .error .exception
    | some resolve =>
      .ok (Dict.ofList (addresses.map fun addr ↦ (addr, viaResolversOne (resolve addr))))

/-- `h is not _NO_ANSWER`, and the value kept. -/
def Lookup.answered? : Lookup → Option (Option String)
  | .host name => some (some name)
  | .nameless => some none
  | .noAnswer => none

/-- The resolvers that are not blank. -/
def usable (resolvers : List String) : List String :=
  resolvers.filter fun r ↦ !(PyText.strip r).isEmpty

/-- `resolve_ptrs(addresses, resolvers)`: an address that nobody answered for is not in the
result. -/
def resolvePtrs (net : Net) (addresses resolvers : List String) :
    Except Failure (Dict String (Option String)) :=
  if addresses.isEmpty then .ok Dict.empty
  else
    match usable resolvers with
    | [] => .ok ((viaSystem net addresses).filterMapValues Lookup.answered?)
    | r :: rs => (viaResolvers net addresses (r :: rs)).map
        fun got ↦ got.filterMapValues Lookup.answered?

/-! ### What was really answered -/

/-- The host resolver's answer: a name, `""` for an authoritative absence, `none` when nobody
answered. Only `EAI_NONAME` is an answer. -/
def NameInfo.answer? : NameInfo → Option String
  | .host name => some name
  | .gaierror .noName => some ""
  | .gaierror _ | .osError | .timeout => none

/-- A nameserver's answer, in the same terms. -/
def PtrReply.answer? : PtrReply → Option String
  | .answer rdata => some (PyText.rstripDots rdata)
  | .nxdomain | .noAnswer => some ""
  | .failed => none

/-- The answer to the lookup of `addr` when Danbyte names `resolvers`: the host's own resolver is
asked when the list is blank, the servers of the list otherwise. -/
def Net.answers (net : Net) (resolvers : List String) (addr : String) : Option String :=
  match usable resolvers with
  | [] => (net.getnameinfo addr).answer?
  | r :: rs => (net.dnspython.bind fun configure ↦ (resolverConfig (r :: rs)).bind configure).bind
      fun resolve ↦ (resolve addr).answer?

/-- The host resolver failed and the failure has the shape of an answer: a `gaierror` whose code
is not "no such name". -/
def NameInfo.Misread (i : NameInfo) : Prop := ∃ c, i = .gaierror c ∧ c ≠ .noName

instance (i : NameInfo) : Decidable i.Misread :=
  match i with
  | .gaierror c => decidable_of_iff (c ≠ .noName) ⟨fun h ↦ ⟨c, rfl, h⟩, fun ⟨_, hc, h⟩ ↦
      (NameInfo.gaierror.inj hc) ▸ h⟩
  | .host _ => isFalse fun ⟨_, h, _⟩ ↦ nomatch h
  | .osError => isFalse fun ⟨_, h, _⟩ ↦ nomatch h
  | .timeout => isFalse fun ⟨_, h, _⟩ ↦ nomatch h

/-! ### The back ends against the answers -/

/-- The value a lookup puts in a result, `found[target] or ""`. -/
def Lookup.reported? (l : Lookup) : Option String := l.answered?.map fun h ↦ h.getD ""

/-- **Explicit resolvers**: what the code reports is what was answered, whatever the outcome. -/
theorem viaResolversOne_eq (reply : PtrReply) :
    (viaResolversOne reply).reported? = reply.answer? := by
  cases reply <;> rfl

/-- **Host resolver**: the two differ at exactly the misread failures. -/
theorem viaSystemOne_eq_iff (i : NameInfo) :
    (viaSystemOne i).reported? = i.answer? ↔ ¬ i.Misread := by
  cases i with
  | host name => exact ⟨fun _ ⟨_, h, _⟩ ↦ (nomatch h), fun _ ↦ rfl⟩
  | osError => exact ⟨fun _ ⟨_, h, _⟩ ↦ (nomatch h), fun _ ↦ rfl⟩
  | timeout => exact ⟨fun _ ⟨_, h, _⟩ ↦ (nomatch h), fun _ ↦ rfl⟩
  | gaierror c =>
    by_cases hc : c = .noName
    · subst hc
      exact ⟨fun _ ⟨_, h, hne⟩ ↦ hne (NameInfo.gaierror.inj h).symm, fun _ ↦ rfl⟩
    · refine ⟨fun h ↦ ?_, fun h ↦ absurd ⟨c, rfl, hc⟩ h⟩
      have hnone : (NameInfo.gaierror c).answer? = none := by
        cases c <;> first | rfl | exact absurd rfl hc
      rw [hnone] at h
      exact nomatch h

/-- A dictionary of answers by address has the answer of each address that was asked for. -/
theorem get?_ofList_map {β : Type*} (f : String → β) (addresses : List String) (a : String) :
    (Dict.ofList (addresses.map fun x ↦ (x, f x))).get? a =
      if a ∈ addresses then some (f a) else none := by
  rw [Dict.get?_ofList, ← List.map_reverse]
  have hmem : a ∈ addresses ↔ a ∈ addresses.reverse := List.mem_reverse.symm
  simp only [hmem]
  induction addresses.reverse with
  | nil => rfl
  | cons b bs ih =>
    by_cases h : b = a
    · subst h
      simp [Assoc.get?]
    · simp only [List.map_cons, Assoc.get?, if_neg h, ih, List.mem_cons, Ne.symm h, false_or]

/-- What a target that was asked about is reported with: on the host path what `one` makes of the
failure, on the explicit path the answer. -/
def Net.reported (net : Net) (resolvers : List String) (addr : String) : Option String :=
  if usable resolvers = [] then (viaSystemOne (net.getnameinfo addr)).reported?
  else net.answers resolvers addr

/-- **What is reported is what was answered**, short of a misread failure on the host path. -/
theorem reported_eq_answers_iff (net : Net) (resolvers : List String) (addr : String) :
    net.reported resolvers addr = net.answers resolvers addr ↔
      ¬ (usable resolvers = [] ∧ (net.getnameinfo addr).Misread) := by
  by_cases h : usable resolvers = []
  · rw [Net.reported, if_pos h, Net.answers, h]
    simp only [true_and]
    exact viaSystemOne_eq_iff (net.getnameinfo addr)
  · rw [Net.reported, if_neg h]
    exact ⟨fun _ hc ↦ h hc.1, fun _ ↦ rfl⟩

/-- An answer is always reported. -/
theorem reported_of_answers {net : Net} {resolvers : List String} {addr ans : String}
    (h : net.answers resolvers addr = some ans) : net.reported resolvers addr = some ans := by
  rw [(reported_eq_answers_iff net resolvers addr).2, h]
  rintro ⟨hres, c, hc, hne⟩
  rw [Net.answers, hres] at h
  simp only [hc] at h
  cases c with
  | noName => exact hne rfl
  | again => exact nomatch h
  | fail => exact nomatch h
  | other code => exact nomatch h

/-- **`resolve_ptrs`**: it raises, and then nobody was asked; or it finds the asked addresses, and
no others, with what is reported for them. -/
theorem resolvePtrs_spec (net : Net) {addresses : List String} (resolvers : List String)
    (hne : addresses ≠ []) :
    (∃ e, resolvePtrs net addresses resolvers = .error e ∧
        ∀ a, net.reported resolvers a = none) ∨
      ∃ found, resolvePtrs net addresses resolvers = .ok found ∧ ∀ a,
        (found.get? a).map (fun h ↦ h.getD "") =
          if a ∈ addresses then net.reported resolvers a else none := by
  have hne' : ¬ addresses.isEmpty = true := by simpa using hne
  -- both back ends put one lookup for each address into a `dict`
  have hget : ∀ (one : String → Lookup) (a : String),
      (((Dict.ofList (addresses.map fun x ↦ (x, one x))).filterMapValues
        Lookup.answered?).get? a).map (fun h ↦ h.getD "") =
          if a ∈ addresses then (one a).reported? else none := by
    intro one a
    rw [Dict.get?_filterMapValues, get?_ofList_map]
    by_cases ha : a ∈ addresses <;> simp [ha, Lookup.reported?]
  rcases hrs : usable resolvers with - | ⟨r, rs⟩
  · refine .inr ⟨_, by rw [resolvePtrs, if_neg hne', hrs], fun a ↦ ?_⟩
    rw [viaSystem, hget, Net.reported, if_pos hrs]
  · have hans : ∀ a, net.reported resolvers a = net.answers resolvers a := fun a ↦ by
      rw [Net.reported, if_neg (by rw [hrs]; exact List.cons_ne_nil r rs)]
    simp only [hans]
    rcases hcfg : (net.dnspython.bind fun configure ↦
        (resolverConfig (r :: rs)).bind configure) with - | resolve
    · -- no resolver can be configured, for either of two reasons
      refine .inl ?_
      have hnobody : ∀ a, net.answers resolvers a = none := fun a ↦ by
        rw [Net.answers, hrs]
        simp only [hcfg, Option.bind_none]
      rcases hdns : net.dnspython with - | configure
      · refine ⟨.reverseDNSUnavailable, ?_, hnobody⟩
        rw [resolvePtrs, if_neg hne', hrs]
        simp only [viaResolvers, hdns]
        rfl
      · rw [hdns, Option.bind_some] at hcfg
        refine ⟨.exception, ?_, hnobody⟩
        rw [resolvePtrs, if_neg hne', hrs]
        simp only [viaResolvers, hdns, hcfg]
        rfl
    · obtain ⟨configure, hdns, hres⟩ := Option.bind_eq_some_iff.1 hcfg
      refine .inr ⟨(Dict.ofList (addresses.map fun x ↦ (x, viaResolversOne (resolve x)))
        ).filterMapValues Lookup.answered?, ?_, fun a ↦ ?_⟩
      · rw [resolvePtrs, if_neg hne', hrs]
        simp only [viaResolvers, hdns, hres]
        rfl
      · rw [hget, viaResolversOne_eq, Net.answers, hrs]
        simp only [hcfg, Option.bind_some]

end ReverseDns
