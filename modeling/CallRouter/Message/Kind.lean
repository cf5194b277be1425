namespace CallRouter.Message

inductive Kind where
  | hello
  | welcome
  | abort
  | goodbye
  | error
  | call
  | cancel
  | result
  | register
  | registered
  | unregister
  | unregistered
  | invocation
  | interrupt
  | yield
  deriving DecidableEq, Repr, Inhabited

namespace Kind

def all : List Kind :=
  [hello, welcome, abort, goodbye, error, call, cancel, result, register, registered, unregister,
    unregistered, invocation, interrupt, yield]

def code : Kind → Nat
  | hello => 1
  | welcome => 2
  | abort => 3
  | goodbye => 6
  | error => 8
  | call => 48
  | cancel => 49
  | result => 50
  | register => 64
  | registered => 65
  | unregister => 66
  | unregistered => 67
  | invocation => 68
  | interrupt => 69
  | yield => 70

def name : Kind → String
  | hello => "HELLO"
  | welcome => "WELCOME"
  | abort => "ABORT"
  | goodbye => "GOODBYE"
  | error => "ERROR"
  | call => "CALL"
  | cancel => "CANCEL"
  | result => "RESULT"
  | register => "REGISTER"
  | registered => "REGISTERED"
  | unregister => "UNREGISTER"
  | unregistered => "UNREGISTERED"
  | invocation => "INVOCATION"
  | interrupt => "INTERRUPT"
  | yield => "YIELD"

def ofCode? (code : Nat) : Option Kind := all.find? fun kind => kind.code == code

def isRequest (kind : Kind) : Bool :=
  kind == call || kind == cancel || kind == register || kind == unregister

theorem ofCode?_code (kind : Kind) : ofCode? kind.code = some kind := by cases kind <;> rfl

theorem code_of_ofCode? {code : Nat} {kind : Kind} (known : ofCode? code = some kind) :
    kind.code = code := by
  simpa using List.find?_some known

end Kind

end CallRouter.Message
