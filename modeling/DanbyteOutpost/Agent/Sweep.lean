import DanbyteOutpost.Checks.Checker
import DanbyteOutpost.Data.IpHosts
import DanbyteOutpost.Data.Shards

/-!
# Sweeping a prefix

`sweep_cidr`, and `sweep_prefix` around it. What `icmplib` finds out is a function of the addresses
of one call and its timeout; no two calls of a sweep are about the same address.

`sweepCidr_covers` says what a sweep reports: every host of the network is in one shard, and whether
it is reported is up to that shard alone.

## What is given

`OneEach` is all that is known of `multiping`: it returns a host for each address it was given, or
raises as a whole. Nothing is said of which hosts are alive. A shard whose ping raises is reported
without a host, and the others are not concerned (`routerDown`).
-/

namespace Outpost

/-- `async_multiping(addresses, …, timeout=timeout)`: the hosts and whether they are alive, or an
exception. -/
abbrev Ping := List IpHost → ℚ → Except String (List (IpHost × Bool))

/-- The hosts come in the order of the addresses. -/
def OneEach (ping : Ping) : Prop :=
  ∀ addresses timeout hosts, ping addresses timeout = .ok hosts → hosts.map Prod.fst = addresses

/-- `MAX_HOSTS` -/
def maxHosts : ℕ := 8192

/-- `SHARD` -/
def shardSize : ℕ := 512

/-- `_multiping` -/
def multiping (ping : Ping) (addresses : List IpHost) (timeoutMs : ℤ) :
    Except String (List (IpHost × Bool)) :=
  if Checks.overflows timeoutMs then .error "OverflowError"
  else ping addresses (max (timeoutMs / 1000) (1 / 10))

/-- `ip_network(cidr, strict=False)`: a number is an address with a full prefix. -/
def networkOf : Json → Option IpNetwork
  | .str text => IpNetwork.ofText text
  | .int n => ofNumber n
  | .bool b => ofNumber (if b then 1 else 0)
  | _ => none
where
  ofNumber (n : ℤ) : Option IpNetwork :=
    if n < 0 then none
    else if n < 2 ^ 32 then some ⟨⟨.v4, n.toNat⟩, 32, none⟩
    else if n < 2 ^ 128 then some ⟨⟨.v6, n.toNat⟩, 128, none⟩
    else none

/-- What a shard adds to `alive`. -/
def sweepShard (ping : Ping) (timeoutMs : ℤ) (shard : List IpHost) : List IpHost :=
  match multiping ping shard timeoutMs with
  | .error _ => []
  | .ok hosts => (hosts.filter Prod.snd).map Prod.fst

/-- `sweep_cidr` -/
def sweepCidr (ping : Ping) (cidr : Json) (timeoutMs : ℤ) (maxHosts : ℕ) : List IpHost :=
  match networkOf cidr with
  | none => []
  | some net =>
    if net.hosts.isEmpty ∨ maxHosts < net.hosts.length then []
    else (shards shardSize net.hosts).flatMap (sweepShard ping timeoutMs)

/-- `sweep_prefix`, with the `prefix_id` and the addresses; an error where its argument is no
object. -/
def sweepPrefix (ping : Ping) (item : Json) : Except Unit (Json × List IpHost) :=
  match item.get? "cidr", item.get? "prefix_id" with
  | some cidr, some prefixId =>
    .ok (prefixId.getD .null, sweepCidr ping (cidr.getD (.str "")) 1000 maxHosts)
  | _, _ => .error ()

variable {ping : Ping} {timeoutMs : ℤ} {cidr : Json} {net : IpNetwork} {addr : IpHost}

/-- A shard reports the hosts that its ping found alive, and none if the ping raised. -/
theorem mem_sweepShard_iff {shard : List IpHost} :
    addr ∈ sweepShard ping timeoutMs shard ↔
      ∃ hosts, multiping ping shard timeoutMs = .ok hosts ∧ (addr, true) ∈ hosts := by
  rw [sweepShard]
  rcases multiping ping shard timeoutMs with e | hosts
  · simp
  · simp [List.mem_map, List.mem_filter]

/-- A shard adds addresses of its own, in their order. -/
theorem sweepShard_sublist (hping : OneEach ping) (timeoutMs : ℤ) (shard : List IpHost) :
    (sweepShard ping timeoutMs shard).Sublist shard := by
  rw [sweepShard]
  rcases hgot : multiping ping shard timeoutMs with e | hosts
  · exact List.nil_sublist _
  · rw [multiping] at hgot
    split at hgot
    · cases hgot
    · have hsub := (List.filter_sublist (p := Prod.snd) (l := hosts)).map Prod.fst
      rwa [hping _ _ _ hgot] at hsub

/-- Below the limit, a sweep is that of its shards. -/
theorem sweepCidr_of_network (hnet : networkOf cidr = some net) (ping : Ping) (timeoutMs : ℤ)
    {limit : ℕ} (hlimit : net.hosts.length ≤ limit) :
    sweepCidr ping cidr timeoutMs limit =
      (shards shardSize net.hosts).flatMap (sweepShard ping timeoutMs) := by
  rw [sweepCidr, hnet]
  dsimp only
  split
  case isTrue h =>
    rcases h with hempty | hlt
    · rw [List.isEmpty_iff.1 hempty]
      rfl
    · exact absurd hlimit (Nat.not_le.2 hlt)
  case isFalse => rfl

/-- **A sweep of a network that is not too large.** What is reported are hosts of the network, in
ascending order. Every host is in one shard, of at most 512 hosts, and is reported just when the
ping of this shard did not fail and found it alive. -/
theorem sweepCidr_covers (hping : OneEach ping) (hnet : networkOf cidr = some net) (timeoutMs : ℤ)
    {limit : ℕ} (hlimit : net.hosts.length ≤ limit) :
    let alive := sweepCidr ping cidr timeoutMs limit
    alive.Pairwise (fun a b ↦ a.ip < b.ip) ∧ (∀ addr ∈ alive, net.IsHost addr) ∧
      ∀ addr, net.IsHost addr → ∃ i shard, (shards shardSize net.hosts)[i]? = some shard ∧
        addr ∈ shard ∧ shard.length ≤ 512 ∧
        (∀ (j : ℕ) shard', (shards shardSize net.hosts)[j]? = some shard' → addr ∈ shard' → j = i) ∧
        (addr ∈ alive ↔
          ∃ hosts, multiping ping shard timeoutMs = .ok hosts ∧ (addr, true) ∈ hosts) := by
  intro alive
  have halive : alive = (shards shardSize net.hosts).flatMap (sweepShard ping timeoutMs) :=
    sweepCidr_of_network hnet ping timeoutMs hlimit
  have hsub : alive.Sublist net.hosts := by
    rw [halive]
    exact sublist_flatMap_shards (by decide) _ (sweepShard_sublist hping timeoutMs)
  refine ⟨net.pairwise_hosts.sublist hsub,
    fun addr haddr ↦ IpNetwork.mem_hosts_iff.1 (hsub.subset haddr), fun addr haddr ↦ ?_⟩
  obtain ⟨i, ⟨shard, hi, hmem⟩, honly⟩ := existsUnique_shard (n := shardSize) (by decide)
    net.nodup_hosts (IpNetwork.mem_hosts_iff.2 haddr)
  refine ⟨i, shard, hi, hmem, length_le_of_mem_shards (List.mem_of_getElem? hi),
    fun j shard' hj hmem' ↦ honly j ⟨shard', hj, hmem'⟩, ?_⟩
  rw [halive, List.mem_flatMap, ← mem_sweepShard_iff]
  constructor
  · intro h
    obtain ⟨shard', hshard', hmem'⟩ := h
    -- the shard that reports it is the shard it is in
    obtain ⟨j, hj⟩ := List.getElem?_of_mem hshard'
    have hin := (sweepShard_sublist hping timeoutMs shard').subset hmem'
    rw [honly j ⟨shard', hj, hin⟩, hi] at hj
    rwa [Option.some.inj hj]
  · exact fun h ↦ ⟨shard, List.mem_of_getElem? hi, h⟩

/-- A site behind a router that was rebooted: the ping of a shard with the router in it fails, and
of the other shards every address answers. -/
def routerDown (router : IpHost) : Ping := fun addresses _ ↦
  if router ∈ addresses then .error "ICMPSocketError"
  else .ok (addresses.map fun addr ↦ (addr, true))

/-- The pings answer for each host they were given, so they behave as `multiping` is to. -/
theorem oneEach_routerDown (router : IpHost) : OneEach (routerDown router) := by
  intro addresses timeout hosts h
  rw [routerDown] at h
  split at h
  · cases h
  · cases h
    rw [List.map_map]
    exact List.map_id _

/-- A network of 1022 hosts, in two shards; the first one's ping fails. -/
theorem sweepCidr_covers_two :
    let router : IpHost := ⟨⟨.v4, 0x0a000001⟩, none⟩
    let alive := sweepCidr (routerDown router) (.str "10.0.0.1/22") 1000 maxHosts
    ⟨⟨.v4, 0x0a000202⟩, none⟩ ∈ alive ∧ ⟨⟨.v4, 0x0a000002⟩, none⟩ ∉ alive := by
  intro router alive
  set net : IpNetwork := ⟨⟨.v4, 0x0a000001⟩, 22, none⟩ with hdef
  have hnet : networkOf (.str "10.0.0.1/22") = some net := by decide +kernel
  have hlimit : net.hosts.length ≤ maxHosts := by decide +kernel
  have hcovers := (sweepCidr_covers (oneEach_routerDown router) hnet 1000 hlimit).2.2
  have htimeout : Checks.overflows 1000 = false := by decide +kernel
  have hping : ∀ shard, multiping (routerDown router) shard 1000 =
      if router ∈ shard then .error "ICMPSocketError"
      else .ok (shard.map fun addr ↦ (addr, true)) := by
    intro shard
    rw [multiping, htimeout]
    rfl
  refine ⟨?_, fun hmem ↦ ?_⟩
  · obtain ⟨i, shard, hi, hmem, -, honly, hiff⟩ := hcovers ⟨⟨.v4, 0x0a000202⟩, none⟩
      (IpNetwork.mem_hosts_iff.1 (by decide +kernel))
    -- the host is in the second shard, without the router
    have hsecond : ∃ shard', (shards shardSize net.hosts)[1]? = some shard' ∧
        ⟨⟨.v4, 0x0a000202⟩, none⟩ ∈ shard' ∧ router ∉ shard' :=
      ⟨((shards shardSize net.hosts)[1]?).getD [], by decide +kernel⟩
    obtain ⟨shard', hshard', hmem', hrouter⟩ := hsecond
    obtain rfl := honly 1 shard' hshard' hmem'
    obtain rfl := Option.some.inj (hi.symm.trans hshard')
    refine hiff.2 ⟨_, (hping shard).trans (if_neg hrouter), List.mem_map.2 ⟨_, hmem, rfl⟩⟩
  · obtain ⟨i, shard, hi, -, -, honly, hiff⟩ := hcovers ⟨⟨.v4, 0x0a000002⟩, none⟩
      (IpNetwork.mem_hosts_iff.1 (by decide +kernel))
    have hfirst : ∃ shard', (shards shardSize net.hosts)[0]? = some shard' ∧
        ⟨⟨.v4, 0x0a000002⟩, none⟩ ∈ shard' ∧ router ∈ shard' :=
      ⟨((shards shardSize net.hosts)[0]?).getD [], by decide +kernel⟩
    obtain ⟨shard', hshard', hmem', hrouter⟩ := hfirst
    obtain rfl := honly 0 shard' hshard' hmem'
    obtain rfl := Option.some.inj (hi.symm.trans hshard')
    obtain ⟨hosts, hgot, -⟩ := hiff.1 hmem
    rw [hping shard, if_pos hrouter] at hgot
    cases hgot

end Outpost
