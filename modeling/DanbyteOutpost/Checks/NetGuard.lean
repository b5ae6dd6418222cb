import DanbyteOutpost.Data.IpAddress

/-!
# Which targets are refused

`danbyte_checks.netguard`. Its two process-wide variables are a `Policy`.

An entry of the allowlist wins over every class. A name is never blocked here: `target_blocked`
looks at targets that are addresses, and the callers resolve the others.
-/

namespace Checks

open PyText

/-- `_BLOCK_INTERNAL` and `_ALLOWLIST`. -/
structure Policy where
  /-- Whether internal and reserved addresses are refused, too. -/
  blockInternal : Bool
  /-- The networks that are let through, whatever else is refused. -/
  allowlist : List IpNetwork

/-- The policy of a process that never calls `configure`. -/
def Policy.permissive : Policy := ⟨false, []⟩

/-- An entry of an allowlist; what is malformed is ignored. -/
def allowed (entry : String) : Option IpNetwork :=
  if strip entry = "" then none else IpNetwork.ofText (strip entry)

/-- `configure(block_internal=…, allowlist=…)`. -/
def configure (blockInternal : Bool) (allowlist : List String) : Policy :=
  ⟨blockInternal, allowlist.filterMap allowed⟩

namespace Policy

/-- `_allowlisted(addr)`. -/
def allowlisted (policy : Policy) (addr : IpAddress) : Bool :=
  policy.allowlist.any fun net ↦ net.contains addr

/-- `address_blocked(addr)`. -/
def addressBlocked (policy : Policy) (addr : IpAddress) : Bool :=
  if policy.allowlisted addr then false
  else if addr.isLinkLocal || addr.isUnspecified then true
  else if !policy.blockInternal then false
  else addr.isLoopback || addr.isPrivate || addr.isReserved || addr.isMulticast

/-- `target_blocked(target)`. -/
def targetBlocked (policy : Policy) (target : String) : Bool :=
  match IpAddress.ofText target with
  | none => false
  | some addr => policy.addressBlocked addr

end Policy

end Checks
