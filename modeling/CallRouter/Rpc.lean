import CallRouter.Message.Registry

namespace CallRouter

structure Payload where
  args : Option (List Json) := none
  kwargs : Option Dict := none
  deriving DecidableEq, Repr, Inhabited

namespace Payload

def empty : Payload := {}

def ofArgs (args : List Json) : Payload := { args := some args }

def isEmpty (payload : Payload) : Bool := payload.args.isNone && payload.kwargs.isNone

/-- Keyword arguments come after positional ones, if need be after an empty list of them. -/
def fields : Payload → List Json
  | ⟨none, none⟩ => []
  | ⟨some args, none⟩ => [.list args]
  | ⟨args, some kwargs⟩ => [.list (args.getD []), .dict kwargs]

end Payload

inductive Rpc where
  | register (request : Nat) (options : Dict) (procedure : String)
  | registered (request registration : Nat)
  | unregister (request registration : Nat)
  | unregistered (request : Nat) (details : Option Dict)
  | call (request : Nat) (options : Dict) (procedure : String) (payload : Payload)
  | cancel (request : Nat) (options : Dict)
  | result (request : Nat) (details : Dict) (payload : Payload)
  | invocation (request registration : Nat) (details : Dict) (payload : Payload)
  | interrupt (request : Nat) (options : Dict)
  | yield (request : Nat) (options : Dict) (payload : Payload)
  | error (type : Message.Kind) (request : Nat) (details : Dict) (error : String)
    (payload : Payload)
  deriving DecidableEq, Repr

namespace Rpc

def kind : Rpc → Message.Kind
  | register .. => .register
  | registered .. => .registered
  | unregister .. => .unregister
  | unregistered .. => .unregistered
  | call .. => .call
  | cancel .. => .cancel
  | result .. => .result
  | invocation .. => .invocation
  | interrupt .. => .interrupt
  | yield .. => .yield
  | error .. => .error

def request : Rpc → Nat
  | register request .. | registered request .. | unregister request .. | unregistered request ..
  | call request .. | cancel request .. | result request .. | invocation request ..
  | interrupt request .. | yield request .. | error _ request .. => request

def required {α : Type} (name : String) : Option α → Except ProtocolError α
  | some value => .ok value
  | none => .error (.missingField name)

def payloadAt (message : Message) (index : Nat) : Payload :=
  ⟨message.list? index, message.dict? (index + 1)⟩

def requestAt (message : Message) (index : Nat) : Except ProtocolError Nat :=
  required "Request" (message.nat? index)

def registrationAt (message : Message) (index : Nat) : Except ProtocolError Nat :=
  required "Registration" (message.nat? index)

def optionsAt (message : Message) (index : Nat) : Except ProtocolError Dict :=
  required "Options" (message.dict? index)

def detailsAt (message : Message) (index : Nat) : Except ProtocolError Dict :=
  required "Details" (message.dict? index)

def procedureAt (message : Message) (index : Nat) : Except ProtocolError String :=
  required "Procedure" (message.text? index)

def ofMessage (message : Message) : Except ProtocolError Rpc :=
  match message.kind with
  | .register => do
    return register (← requestAt message 0) (← optionsAt message 1) (← procedureAt message 2)
  | .registered => do return registered (← requestAt message 0) (← registrationAt message 1)
  | .unregister => do return unregister (← requestAt message 0) (← registrationAt message 1)
  | .unregistered => do return unregistered (← requestAt message 0) (message.dict? 1)
  | .call => do
    return call (← requestAt message 0) (← optionsAt message 1) (← procedureAt message 2)
      (payloadAt message 3)
  | .cancel => do return cancel (← requestAt message 0) (← optionsAt message 1)
  | .result => do
    return result (← requestAt message 0) (← detailsAt message 1) (payloadAt message 2)
  | .invocation => do
    return invocation (← requestAt message 0) (← registrationAt message 1) (← detailsAt message 2)
      (payloadAt message 3)
  | .interrupt => do return interrupt (← requestAt message 0) (← optionsAt message 1)
  | .yield => do
    return yield (← requestAt message 0) (← optionsAt message 1) (payloadAt message 2)
  | .error => do
    let code ← required "RequestType" (message.nat? 0)
    match Message.Kind.ofCode? code with
    | none => throw (.invalidTypeCode (Json.ofNat code).compact)
    | some type =>
      return error type (← requestAt message 1) (← detailsAt message 2)
        (← required "Error" (message.text? 3)) (payloadAt message 4)
  | .hello | .welcome | .abort | .goodbye => throw (.notRpc message.kind)

def fields : Rpc → List Json
  | register request options procedure => [.ofNat request, .dict options, .text procedure]
  | registered request registration | unregister request registration =>
    [.ofNat request, .ofNat registration]
  | unregistered request none => [.ofNat request]
  | unregistered request (some details) => [.ofNat request, .dict details]
  | call request options procedure payload =>
    [.ofNat request, .dict options, .text procedure] ++ payload.fields
  | cancel request options | interrupt request options => [.ofNat request, .dict options]
  | result request details payload => [.ofNat request, .dict details] ++ payload.fields
  | invocation request registration details payload =>
    [.ofNat request, .ofNat registration, .dict details] ++ payload.fields
  | yield request options payload => [.ofNat request, .dict options] ++ payload.fields
  | error type request details uri payload =>
    [.ofNat type.code, .ofNat request, .dict details, .text uri] ++ payload.fields

def toMessage (registry : Message.Registry) (rpc : Rpc) : Except ProtocolError Message :=
  registry.build rpc.kind rpc.fields

end Rpc

end CallRouter
