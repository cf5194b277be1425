import CallRouter.Router.Handling
import CallRouter.Wire.Reader

namespace CallRouter

inductive Reception where
  | message (disposition : Disposition)
  | garbage (error : ProtocolError)
  deriving DecidableEq, Repr

namespace Reception

def isMessage : Reception → Bool
  | message _ => true
  | garbage _ => false

end Reception

/--
Handles the messages that have arrived completely, up to the one that closes the session. Bytes
that are no message end the session too. A number is drawn for each message.
-/
def Router.receive (router : Router) (now : Time) (draws : Nat → Nat) (id : Nat)
    (reader : Wire.Reader) : List Reception × Wire.Reader × Router :=
  match _polled : reader.poll with
  | (.ok none, rest) => ([], rest, router)
  | (.error error, rest) => ([.garbage error], rest, (router.rejectBytes id error).2)
  | (.ok (some raw), rest) =>
    match router.handle now (draws 0) id raw with
    | (.close, router) => ([.message .close], rest, router)
    | (.keepOpen, router) =>
      let (receptions, rest, router) := router.receive now (fun k => draws (k + 1)) id rest
      (.message .keepOpen :: receptions, rest, router)
termination_by reader.buffer.length
decreasing_by exact Wire.Reader.length_of_poll (by assumption)

end CallRouter
