import DanbyteOutpost.Data.IpAddress

/-!
# The hosts of a network

`IPv4Network.hosts()` and `IPv6Network.hosts()`. Of a network with more than two addresses the first
is left out, and of an IPv4 one the last as well: they are the address of the network (the
subnet-router anycast address in IPv6) and the broadcast address. The one host of an IPv6 network
with a full prefix is the address as it was written, its scope included.

The hosts are given as numbers first (`hostNumbers`), in ascending order, and `mem_hosts_iff` says
which addresses they are (`IsHost`). `pairwise_hosts` is the order, from which it follows that no
host is there twice; networks of one and of two addresses are the exceptions both versions make.
-/

/-- An address with the scope it is named with. -/
structure IpHost extends IpAddress where
  /-- What follows a `%`. -/
  scope : Option (List Char) := none
  deriving DecidableEq

namespace IpNetwork

/-- The bits behind the prefix. -/
def width (net : IpNetwork) : ℕ := net.address.version.bits - net.prefixlen

/-- The number of `network_address`. -/
def first (net : IpNetwork) : ℕ := net.address.ip / 2 ^ net.width * 2 ^ net.width

/-- The number of `broadcast_address`. -/
def last (net : IpNetwork) : ℕ := net.first + 2 ^ net.width - 1

/-- The numbers of `hosts()`. -/
def hostNumbers (net : IpNetwork) : List ℕ :=
  match net.width, net.address.version with
  | 0, _ => [net.address.ip]
  | 1, _ => List.range' net.first 2
  | _, .v4 => List.range' (net.first + 1) (2 ^ net.width - 2)
  | _, .v6 => List.range' (net.first + 1) (2 ^ net.width - 1)

/-- The scope of the hosts: `hosts()` of a network with more than one address builds them from their
numbers alone. -/
def hostScope (net : IpNetwork) : Option (List Char) := if net.width = 0 then net.scope else none

/-- `hosts()` -/
def hosts (net : IpNetwork) : List IpHost :=
  net.hostNumbers.map fun n ↦ ⟨⟨net.address.version, n⟩, net.hostScope⟩

/-- An address of the network that is neither its own nor its broadcast address, named as
`hosts()` names it. -/
structure IsHost (net : IpNetwork) (host : IpHost) : Prop where
  /-- It is in the network. -/
  contained : net.contains host.toIpAddress = true
  /-- In a network of four addresses or more it is not the first. -/
  notFirst : 2 ≤ net.width → host.ip ≠ net.first
  /-- In one of IPv4 it is not the last either. -/
  notLast : 2 ≤ net.width → net.address.version = .v4 → host.ip ≠ net.last
  /-- It has the scope of the network's one host. -/
  named : host.scope = net.hostScope

variable {net : IpNetwork} {addr : IpAddress}

/-- The addresses of a network are a range. -/
theorem contains_iff_range : net.contains addr = true ↔
    addr.version = net.address.version ∧ net.first ≤ addr.ip ∧
      addr.ip < net.first + 2 ^ net.width := by
  rw [contains_iff, first, width]
  refine and_congr_right fun _ ↦ ?_
  set host := 2 ^ (net.address.version.bits - net.prefixlen) with hhost
  have hpos : 0 < host := by positivity
  rw [Nat.div_eq_iff hpos]
  set low := net.address.ip / host * host
  omega

/-- The numbers of the hosts: those of the network, but for the first one and, with IPv4, the last
one of a network with room for them. -/
theorem mem_hostNumbers_iff {n : ℕ} : n ∈ net.hostNumbers ↔
    (net.first ≤ n ∧ n < net.first + 2 ^ net.width) ∧ (2 ≤ net.width → n ≠ net.first) ∧
      (2 ≤ net.width → net.address.version = .v4 → n ≠ net.last) := by
  rw [hostNumbers]
  have hlast : net.last = net.first + 2 ^ net.width - 1 := rfl
  have hfour : 2 ≤ net.width → 4 ≤ 2 ^ net.width := fun h ↦
    (by norm_num : 4 = 2 ^ 2) ▸ Nat.pow_le_pow_right (by decide) h
  generalize hsize : 2 ^ net.width = size at *
  rcases hwidth : net.width with - | - | w
  · have hfirst : net.first = net.address.ip := by simp [first, hwidth]
    rw [hwidth] at hsize
    simp [hfirst, ← hsize]
    omega
  · rw [hwidth] at hsize
    simp [← hsize, List.mem_range'_1]
  · have hsize4 := hfour (by omega)
    rcases hversion : net.address.version
    · refine (List.mem_range'_1 (n := size - 2)).trans ?_
      simp only [hlast, forall_true_left]
      omega
    · refine (List.mem_range'_1 (n := size - 1)).trans ?_
      simp only [reduceCtorEq, IsEmpty.forall_iff, implies_true, and_true]
      omega

/-- What `hosts()` lists. -/
theorem mem_hosts_iff {host : IpHost} : host ∈ net.hosts ↔ net.IsHost host := by
  rw [hosts, List.mem_map]
  constructor
  · intro h
    obtain ⟨n, hn, rfl⟩ := h
    obtain ⟨hrange, hfirst, hlast⟩ := mem_hostNumbers_iff.1 hn
    exact ⟨contains_iff_range.2 ⟨rfl, hrange⟩, hfirst, hlast, rfl⟩
  · intro h
    obtain ⟨hversion, hrange⟩ := contains_iff_range.1 h.contained
    refine ⟨host.ip, mem_hostNumbers_iff.2 ⟨hrange, h.notFirst, h.notLast⟩, ?_⟩
    rw [← hversion, ← h.named]

/-- They are listed in ascending order. -/
theorem pairwise_hosts (net : IpNetwork) : net.hosts.Pairwise fun a b ↦ a.ip < b.ip := by
  rw [hosts, List.pairwise_map, hostNumbers]
  split
  · exact List.pairwise_singleton _ _
  all_goals exact List.pairwise_lt_range'

theorem nodup_hosts (net : IpNetwork) : net.hosts.Nodup :=
  (pairwise_hosts net).imp fun h heq ↦
    absurd (congrArg (fun host ↦ host.ip) heq) (Nat.ne_of_lt h)

end IpNetwork
