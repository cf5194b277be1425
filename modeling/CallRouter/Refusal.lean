import CallRouter.ErrorUri
import CallRouter.ProtocolError

namespace CallRouter

inductive Refusal where
  | invalidUri (uri : String)
  | noSuchProcedure (uri : String)
  | procedureAlreadyExists (uri : String)
  | noSuchRegistration (registration : Nat)
  | noSuchCall (request : Nat)
  | invalidArgument (reason : String)
  | unexpectedMessage (kind : Message.Kind)
  | protocol (error : ProtocolError)
  deriving DecidableEq, Repr

namespace Refusal

open Text (decimal)

def ofUnknownOption (unknown : UnknownOption) : Refusal := invalidArgument unknown.message

def message : Refusal → String
  | invalidUri uri => "invalid procedure URI: " ++ uri
  | noSuchProcedure uri => "no such procedure: " ++ uri
  | procedureAlreadyExists uri => "procedure already exists: " ++ uri
  | noSuchRegistration registration => "no such registration: " ++ decimal registration
  | noSuchCall request => "no such call: " ++ decimal request
  | invalidArgument reason => "invalid argument: " ++ reason
  | unexpectedMessage kind => "unexpected " ++ kind.name ++ " from a client"
  | protocol error => "protocol error: " ++ error.message

def uri : Refusal → ErrorUri
  | invalidUri _ => .invalidUri
  | noSuchProcedure _ => .noSuchProcedure
  | procedureAlreadyExists _ => .procedureAlreadyExists
  | noSuchRegistration _ => .noSuchRegistration
  | noSuchCall _ => .noSuchCall
  | invalidArgument _ => .invalidArgument
  | unexpectedMessage _ => .protocolViolation
  | protocol _ => .invalidArgument

def isFatal : Refusal → Bool
  | unexpectedMessage _ => true
  | _ => false

end Refusal

end CallRouter
