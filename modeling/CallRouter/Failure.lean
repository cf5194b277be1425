import CallRouter.Config.Basic
import CallRouter.Refusal

namespace CallRouter

inductive Failure where
  | protocol (error : ProtocolError)
  | refused (refusal : Refusal)
  | config (fault : Config.Fault)
  | aborted (reason : ErrorUri) (message : String)
  | shuttingDown
  deriving DecidableEq, Repr

namespace Failure

def message : Failure → String
  | protocol error => "protocol error: " ++ error.message
  | refused refusal => "core error: " ++ refusal.message
  | config fault => "configuration error: " ++ fault.message
  | aborted reason message => "session aborted (" ++ reason.uri ++ "): " ++ message
  | shuttingDown => "server shutting down"

def uri : Failure → ErrorUri
  | protocol _ => .protocolViolation
  | refused refusal => refusal.uri
  | config _ => .closeRealm
  | aborted reason _ => reason
  | shuttingDown => .systemShutdown

end Failure

end CallRouter
