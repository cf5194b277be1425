namespace CallRouter

inductive ErrorUri where
  | invalidUri
  | noSuchProcedure
  | procedureAlreadyExists
  | noSuchRegistration
  | noSuchCall
  | invalidArgument
  | canceled
  | timeout
  | notAuthorized
  | noSuchRealm
  | protocolViolation
  | systemShutdown
  | closeRealm
  | goodbyeAndOut
  deriving DecidableEq, Repr, Inhabited

namespace ErrorUri

def all : List ErrorUri :=
  [invalidUri, noSuchProcedure, procedureAlreadyExists, noSuchRegistration, noSuchCall,
    invalidArgument, canceled, timeout, notAuthorized, noSuchRealm, protocolViolation,
    systemShutdown, closeRealm, goodbyeAndOut]

def uri : ErrorUri → String
  | invalidUri => "wamp.error.invalid_uri"
  | noSuchProcedure => "wamp.error.no_such_procedure"
  | procedureAlreadyExists => "wamp.error.procedure_already_exists"
  | noSuchRegistration => "wamp.error.no_such_registration"
  | noSuchCall => "wamp.error.no_such_call"
  | invalidArgument => "wamp.error.invalid_argument"
  | canceled => "wamp.error.canceled"
  | timeout => "wamp.error.timeout"
  | notAuthorized => "wamp.error.not_authorized"
  | noSuchRealm => "wamp.error.no_such_realm"
  | protocolViolation => "wamp.error.protocol_violation"
  | systemShutdown => "wamp.error.system_shutdown"
  | closeRealm => "wamp.close.close_realm"
  | goodbyeAndOut => "wamp.close.goodbye_and_out"

def ofUri? (text : String) : Option ErrorUri := all.find? fun error => error.uri == text

def isCancellation (error : ErrorUri) : Bool := error == canceled || error == timeout

end ErrorUri

end CallRouter
