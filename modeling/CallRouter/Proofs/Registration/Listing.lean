import CallRouter.Proofs.Registration.Seniority
import Mathlib.Algebra.BigOperators.Group.Finset.Piecewise
import Mathlib.Algebra.GroupWithZero.Nat
import Mathlib.Data.List.Nodup

namespace CallRouter

namespace Registration.Directory

variable {directory : Directory} {id : Nat} {pattern : Pattern} {policy : MatchPolicy}
  {entry : Entry}

def listed (directory : Directory) : List Nat := MatchPolicy.all.flatMap directory.entryIds

namespace Consistent

variable (consistent : directory.Consistent)

include consistent

end Consistent

end Registration.Directory

end CallRouter
