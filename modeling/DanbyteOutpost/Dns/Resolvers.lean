import DanbyteOutpost.Dns.ReverseDns

/-!
# The servers that are asked

Resolvers as they are written (`Resolver.text`), and what is left of them in the settings of
`_via_resolvers`: the servers in their order, and one port for each host.

## The written forms

A resolver is written as a bare host, as `host:port`, or as an address of IPv6 in brackets with a
port behind it. `HostText` and `AddressText` carry what makes such a text unambiguous: a host has
no colon in it, an address has two at least. `splitResolver_text` is the round trip, for each
form.

`asked_resolvers_iff` says exactly when every server is asked at the port it was written with: no
host may be written with two ports, since the ports are kept by host (`port_overwritten`).
-/

namespace ReverseDns

open PyText

/-! ### Written resolvers -/

/-- A character of a host or an address, as opposed to what stands around it. -/
def isBare (c : Char) : Bool := c ≠ '[' && c ≠ ']' && !isSpace c

/-- What may stand in a written address: anything but brackets and white space. -/
theorem isBare_iff {c : Char} : isBare c = true ↔ c ≠ '[' ∧ c ≠ ']' ∧ isSpace c = false := by
  simp only [isBare, Bool.and_eq_true, decide_eq_true_eq, Bool.not_eq_true', and_assoc]

/-- A name or an IPv4 address. -/
structure HostText where
  /-- As it is written. -/
  text : String
  /-- It has neither blanks nor brackets in it. -/
  bare : text.toList.all isBare = true
  /-- A colon would begin a port. -/
  colonless : ':' ∉ text.toList

/-- An IPv6 address: it has two colons at least. -/
structure AddressText where
  /-- As it is written. -/
  text : String
  /-- It has neither blanks nor brackets in it. -/
  bare : text.toList.all isBare = true
  /-- Two at least, which tells it from a name with a port. -/
  colons : 2 ≤ text.toList.count ':'

theorem HostText.isBare (h : HostText) {c : Char} (hc : c ∈ h.text.toList) :
    c ≠ '[' ∧ c ≠ ']' ∧ isSpace c = false :=
  isBare_iff.1 (List.all_eq_true.1 h.bare c hc)

theorem AddressText.isBare (a : AddressText) {c : Char} (hc : c ∈ a.text.toList) :
    c ≠ '[' ∧ c ≠ ']' ∧ isSpace c = false :=
  isBare_iff.1 (List.all_eq_true.1 a.bare c hc)

/-- A resolver in one of the forms it is written in. -/
inductive Resolver
  /-- `192.0.2.1`. -/
  | host (host : HostText)
  /-- `192.0.2.1:5353`. -/
  | hostPort (host : HostText) (port : ℕ)
  /-- `2001:db8::1`. -/
  | v6 (address : AddressText)
  /-- `[2001:db8::1]`. -/
  | bracketed (address : AddressText)
  /-- `[2001:db8::1]:5353`. -/
  | bracketedPort (address : AddressText) (port : ℕ)

namespace Resolver

/-- As it is written. -/
def text : Resolver → String
  | host h => h.text
  | hostPort h port => h.text ++ ":" ++ toString port
  | v6 a => a.text
  | bracketed a => "[" ++ a.text ++ "]"
  | bracketedPort a port => "[" ++ a.text ++ "]:" ++ toString port

/-- The host and the port that are meant. -/
def pair : Resolver → String × ℤ
  | host h => (h.text, 53)
  | hostPort h port => (h.text, port)
  | v6 a => (a.text, 53)
  | bracketed a => (a.text, 53)
  | bracketedPort a port => (a.text, port)

end Resolver

/-! ### Reading a written resolver -/

/-- The text of a port has no colon, so the last colon of a written resolver is the one in front of
its port. -/
theorem colon_notMem_toString (port : ℕ) : ':' ∉ (toString port).toList :=
  fun h ↦ absurd (isDigit_toString port ':' h) (by decide)

/-- A resolver that does not begin with a bracket. -/
theorem splitResolver_open {entry : String} {cs : List Char} (hstrip : strip entry = entry)
    (hentry : entry.toList = cs) (hopen : cs.head? ≠ some '[') : splitResolver entry =
      let (host, sep, port) := rpartition ':' cs
      if sep && isdigit port && !host.contains ':' then
        (intOfText (String.ofList port)).map (Prod.mk (String.ofList host))
      else some (entry, 53) := by
  subst hentry
  rw [splitResolver, hstrip]
  split
  case h_1 cs heq => exact absurd (congrArg List.head? heq) hopen
  case h_2 => rw [String.ofList_toList]

/-- A resolver in brackets. -/
theorem splitResolver_bracketed {entry : String} {cs rest : List Char}
    (hstrip : strip entry = entry) (hentry : entry.toList = '[' :: (cs ++ ']' :: rest))
    (hcs : ']' ∉ cs) : splitResolver entry =
      if (rest.dropWhile (· = ':')).isEmpty then some (String.ofList cs, 53)
      else (intOfText (String.ofList (rest.dropWhile (· = ':')))).map
        (Prod.mk (String.ofList cs)) := by
  rw [splitResolver, hstrip, hentry]
  split
  case h_1 cs' heq =>
    obtain ⟨-, rfl⟩ := List.cons.inj heq
    rw [partition_append hcs]
  case h_2 hopen => exact absurd rfl (hopen _)

namespace Resolver

/-- A written resolver has no white space around it. -/
theorem strip_text (r : Resolver) : strip r.text = r.text := by
  have hport : ∀ port : ℕ, ∀ c ∈ (toString port).toList, isSpace c = false :=
    fun port c hc ↦ not_isSpace_of_isDigit (isDigit_toString port c hc)
  refine strip_of_forall fun c hc ↦ ?_
  cases r with
  | host h => exact (h.isBare hc).2.2
  | v6 a => exact (a.isBare hc).2.2
  | hostPort h port =>
    simp only [text, String.toList_append, List.mem_append] at hc
    rcases hc with (hc | hc) | hc
    · exact (h.isBare hc).2.2
    · obtain rfl := List.mem_singleton.1 hc
      rfl
    · exact hport port c hc
  | bracketed a =>
    simp only [text, String.toList_append, List.mem_append] at hc
    rcases hc with (hc | hc) | hc
    · obtain rfl := List.mem_singleton.1 hc
      rfl
    · exact (a.isBare hc).2.2
    · obtain rfl := List.mem_singleton.1 hc
      rfl
  | bracketedPort a port =>
    simp only [text, String.toList_append, List.mem_append] at hc
    rcases hc with ((hc | hc) | hc) | hc
    · obtain rfl := List.mem_singleton.1 hc
      rfl
    · exact (a.isBare hc).2.2
    · rcases List.mem_pair.1 hc with rfl | rfl <;> rfl
    · exact hport port c hc

theorem intOfText_port (port : ℕ) :
    intOfText (String.ofList (toString port).toList) = some (port : ℤ) := by
  rw [String.ofList_toList, intOfText_toString]

/-- A resolver is read as it is meant, in whatever form it is written. -/
theorem splitResolver_text (r : Resolver) : splitResolver r.text = some r.pair := by
  have hstrip := r.strip_text
  -- no bare text is taken for a bracketed one
  have hopen : ∀ {cs : List Char}, cs.all isBare = true → cs.head? ≠ some '[' := fun hbare heq ↦
    (isBare_iff.1 (List.all_eq_true.1 hbare '[' (List.mem_of_head? heq))).1 rfl
  cases r with
  | host h =>
    rw [splitResolver_open hstrip rfl (hopen h.bare)]
    dsimp only [text]
    rw [rpartition_of_notMem h.colonless]
    rfl
  | hostPort h port =>
    have htext :
        (hostPort h port).text.toList = h.text.toList ++ ':' :: (toString port).toList := by
      simp [text]
    have hhead : (h.text.toList ++ ':' :: (toString port).toList).head? ≠ some '[' := by
      rcases hcs : h.text.toList with - | ⟨c, cs⟩
      · show some ':' ≠ some '['
        decide
      · exact fun heq ↦ hopen h.bare (by rw [hcs]; exact heq)
    have hdigits : isdigit (toString port).toList = true :=
      isdigit_of_digits (toString_toList_ne_nil port) (isDigit_toString port)
    have hplain : h.text.toList.contains ':' = false := by
      rw [List.contains_eq_mem, decide_eq_false_iff_not]
      exact h.colonless
    rw [splitResolver_open hstrip htext hhead, rpartition_append (colon_notMem_toString port)]
    dsimp only
    rw [hdigits, hplain, intOfText_port]
    simp [pair]
  -- the last colon of an address has another one in front of it
  | v6 a =>
    have hcount := a.colons
    obtain ⟨before, after, htext, hno⟩ :=
      exists_last (List.count_pos_iff.1 (by omega : 0 < a.text.toList.count ':'))
    have hbefore : before.contains ':' = true := by
      rw [htext, List.count_append, List.count_cons_self, List.count_eq_zero.2 hno] at hcount
      rw [List.contains_eq_mem, decide_eq_true_iff]
      exact List.count_pos_iff.1 (by omega)
    rw [splitResolver_open hstrip htext (htext ▸ hopen a.bare), rpartition_append hno]
    dsimp only
    rw [hbefore, Bool.not_true, Bool.and_false, if_neg Bool.false_ne_true]
    rfl
  | bracketed a =>
    have htext : (bracketed a).text.toList = '[' :: (a.text.toList ++ ']' :: []) := by simp [text]
    rw [splitResolver_bracketed hstrip htext fun h ↦ (a.isBare h).2.1 rfl]
    simp [pair]
  | bracketedPort a port =>
    have htext : (bracketedPort a port).text.toList =
        '[' :: (a.text.toList ++ ']' :: ':' :: (toString port).toList) := by simp [text]
    -- the digits of the port stop the stripping of colons
    have hrest : (':' :: (toString port).toList).dropWhile (· = ':') = (toString port).toList := by
      rw [List.dropWhile_cons_of_pos (by decide)]
      obtain ⟨c, cs, hcs⟩ := List.exists_cons_of_ne_nil (toString_toList_ne_nil port)
      rw [hcs, List.dropWhile_cons_of_neg]
      rw [decide_eq_true_eq]
      rintro rfl
      exact colon_notMem_toString port (hcs ▸ List.mem_cons_self)
    rw [splitResolver_bracketed hstrip htext fun h ↦ (a.isBare h).2.1 rfl, hrest,
      List.isEmpty_eq_false_iff.2 (toString_toList_ne_nil port), intOfText_port]
    simp [pair]

end Resolver

/-! ### The settings -/

/-- What dnspython asks: each nameserver, at the port that is set for it or else at 53. -/
def ResolverConfig.asked (config : ResolverConfig) : List (String × ℤ) :=
  config.nameservers.map fun host ↦
    (host, (config.nameserverPorts.bind fun ports ↦ ports.get? host).getD 53)

/-- The settings for servers that are meant so. -/
def configOf (pairs : List (String × ℤ)) : ResolverConfig where
  nameservers := pairs.map Prod.fst
  nameserverPorts :=
    if (Dict.ofList pairs).items.any fun e ↦ e.2 != 53 then some (Dict.ofList pairs) else none

/-- The settings read back as the pairs that were written, in their order. -/
theorem resolverConfig_texts (rs : List Resolver) :
    resolverConfig (rs.map Resolver.text) = some (configOf (rs.map Resolver.pair)) := by
  have hparsed : (rs.map Resolver.text).mapM splitResolver = some (rs.map Resolver.pair) := by
    induction rs with
    | nil => rfl
    | cons r rs ih =>
      rw [List.map_cons, List.mapM_cons, r.splitResolver_text, ih]
      rfl
  rw [resolverConfig, hparsed]
  rfl

/-- The servers asked are those that are meant exactly if no host is meant at two ports. -/
theorem asked_configOf_iff (pairs : List (String × ℤ)) :
    (configOf pairs).asked = pairs ↔
      ∀ host port port', (host, port) ∈ pairs → (host, port') ∈ pairs → port = port' := by
  have hasked : (configOf pairs).asked = pairs ↔ ∀ host port, (host, port) ∈ pairs →
      (((configOf pairs).nameserverPorts.bind fun ports ↦ ports.get? host).getD 53) = port := by
    rw [ResolverConfig.asked, configOf, List.map_map]
    conv_lhs => rhs; rw [← List.map_id pairs]
    rw [List.map_inj_left]
    constructor
    · exact fun h host port hmem ↦ congrArg Prod.snd (h (host, port) hmem)
    · exact fun h e hmem ↦ Prod.ext rfl (h e.1 e.2 hmem)
  rw [hasked]
  constructor
  · intro h host port port' hmem hmem'
    exact (h host port hmem).symm.trans (h host port' hmem')
  · intro h host port hmem
    obtain ⟨port', hget, hmem'⟩ := Dict.exists_get?_ofList hmem
    obtain rfl := h host port port' hmem hmem'
    rw [configOf]
    dsimp only
    split
    case isTrue => rw [Option.bind_some, hget, Option.getD_some]
    case isFalse hdefault =>
      rw [List.any_eq_true] at hdefault
      by_contra hne
      exact hdefault ⟨(host, port), Dict.mem_items_iff.2 hget, bne_iff_ne.2 (Ne.symm hne)⟩

/-- **`_via_resolvers`**: the servers that are asked, each at its port and in their order, are those
that are written exactly if no host is written with two ports.

The ports are kept in a dictionary by host, where a later port takes the place of an earlier one. -/
theorem asked_resolvers_iff (rs : List Resolver) :
    (resolverConfig (rs.map Resolver.text)).map ResolverConfig.asked =
        some (rs.map Resolver.pair) ↔
      ∀ r ∈ rs, ∀ r' ∈ rs, r.pair.1 = r'.pair.1 → r.pair.2 = r'.pair.2 := by
  rw [resolverConfig_texts, Option.map_some, Option.some.injEq, asked_configOf_iff]
  simp only [List.mem_map]
  constructor
  · intro h r hr r' hr' heq
    exact h r.pair.1 r.pair.2 r'.pair.2 ⟨r, hr, rfl⟩ ⟨r', hr', Prod.ext heq.symm rfl⟩
  · rintro h host port port' ⟨r, hr, hpair⟩ ⟨r', hr', hpair'⟩
    have hports := h r hr r' hr' (by rw [hpair, hpair'])
    rwa [hpair, hpair'] at hports

/-- One server on two ports: both times it is asked on the second. -/
theorem port_overwritten :
    let server : HostText := ⟨"10.0.0.45", by decide, by decide⟩
    let rs : List Resolver := [.host server, .hostPort server 5353]
    (resolverConfig (rs.map Resolver.text)).map ResolverConfig.asked ≠
        some (rs.map Resolver.pair) ∧
      (resolverConfig (rs.map Resolver.text)).map ResolverConfig.asked =
        some [("10.0.0.45", 5353), ("10.0.0.45", 5353)] := by
  decide +kernel

end ReverseDns
