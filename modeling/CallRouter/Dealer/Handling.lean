import CallRouter.Dealer.Answers
import CallRouter.Dealer.Dispatch
import CallRouter.Dealer.Endings
import CallRouter.Dealer.Procedures

namespace CallRouter.Dealer

/--
Handles a message of a session. Requests that cannot be fulfilled are answered; the message itself
is refused only if it is not one that a client sends to a dealer.
-/
def handle (dealer : Dealer) (peers : Peers) (now : Time) (draw session : Nat)
    (message : Message) : Except Refusal Dealer :=
  match Rpc.ofMessage message with
  | .error error => .error (.protocol error)
  | .ok rpc =>
    match rpc with
    | .register request options procedure =>
      .ok (dealer.register now session request options procedure)
    | .unregister request registration => .ok (dealer.unregister session request registration)
    | .call request options procedure payload =>
      .ok (dealer.call peers now draw session request options procedure payload)
    | .cancel request options => .ok (dealer.cancel session request options)
    | .yield invocation options payload =>
      if options.flag Dict.Key.progress then .ok (dealer.yieldProgress session invocation payload)
      else .ok (dealer.yieldResult now session invocation payload)
    | .error .invocation invocation details error payload =>
      .ok (dealer.fail session invocation details error payload)
    | .error .. => .ok dealer
    | other => .error (.unexpectedMessage other.kind)

end CallRouter.Dealer
