import CallRouter.Proofs.Dealer.Refusals
import CallRouter.Proofs.Registration.Allocation
import CallRouter.Proofs.Registration.Inquiry

namespace CallRouter.Dealer

open Registration Registration.Directory MetaProcedure

variable {peers : Peers} {dealer later : Dealer} {now : Time} {draw caller request : Nat}
  {options : Dict} {uri : String} {payload : Payload} {terms : Call.Options}

section Agreed

variable (valid : Uri.isProcedure .exact uri = true)
  (agreed : callOptions peers caller options = .ok terms)

include valid agreed

end Agreed

section Match

variable (wellFormed : dealer.directory.WellFormed) (valid : Uri.isProcedure .exact uri = true)
  (free : MetaProcedure.ofUri? uri = none)
  (agreed : callOptions peers caller options = .ok terms) (args : List Json)

include wellFormed valid free agreed

end Match

end CallRouter.Dealer
