import CallRouter.Message.Registry

namespace CallRouter.Message

namespace Field

def request : Field := ⟨"Request", .id⟩
def options : Field := ⟨"Options", .dict⟩
def details : Field := ⟨"Details", .dict⟩
def procedure : Field := ⟨"Procedure", .uri⟩
def registration : Field := ⟨"Registration", .id⟩
def reason : Field := ⟨"Reason", .uri⟩
def realm : Field := ⟨"Realm", .uri⟩
def session : Field := ⟨"Session", .id⟩
def requestType : Field := ⟨"RequestType", .integer⟩
def error : Field := ⟨"Error", .uri⟩

end Field

namespace Shape

open CallRouter.Message.Field

def toRouter : List Flow :=
  [⟨.caller, .dealer⟩, ⟨.callee, .dealer⟩, ⟨.publisher, .broker⟩, ⟨.subscriber, .broker⟩]

def fromRouter : List Flow :=
  [⟨.dealer, .caller⟩, ⟨.dealer, .callee⟩, ⟨.broker, .publisher⟩, ⟨.broker, .subscriber⟩]

def bothWays : List Flow :=
  [⟨.caller, .dealer⟩, ⟨.callee, .dealer⟩, ⟨.dealer, .caller⟩, ⟨.dealer, .callee⟩]

def fromCaller : List Flow := [⟨.caller, .dealer⟩]
def fromCallee : List Flow := [⟨.callee, .dealer⟩]
def toCaller : List Flow := [⟨.dealer, .caller⟩]
def toCallee : List Flow := [⟨.dealer, .callee⟩]

def standard : Kind → Shape
  | .hello => ⟨.hello, [[realm, details]], toRouter⟩
  | .welcome => ⟨.welcome, [[session, details]], fromRouter⟩
  | .abort => ⟨.abort, [[details, reason]], bothWays⟩
  | .goodbye => ⟨.goodbye, [[details, reason]], bothWays⟩
  | .error =>
    ⟨.error, withPayload [requestType, request, details, error], fromCallee ++ toCaller ++ toCallee⟩
  | .call => ⟨.call, withPayload [request, options, procedure], fromCaller⟩
  | .cancel => ⟨.cancel, [[request, options]], fromCaller⟩
  | .result => ⟨.result, withPayload [request, details], toCaller⟩
  | .register => ⟨.register, [[request, options, procedure]], fromCallee⟩
  | .registered => ⟨.registered, [[request, registration]], toCallee⟩
  | .unregister => ⟨.unregister, [[request, registration]], fromCallee⟩
  | .unregistered => ⟨.unregistered, [[request], [request, details]], toCallee⟩
  | .invocation => ⟨.invocation, withPayload [request, registration, details], toCallee⟩
  | .interrupt => ⟨.interrupt, [[request, options]], toCallee⟩
  | .yield => ⟨.yield, withPayload [request, options], fromCallee⟩

end Shape

namespace Registry

def standard : Registry := ⟨Kind.all.map Shape.standard⟩

theorem shape?_standard (kind : Kind) : standard.shape? kind = some (Shape.standard kind) := by
  cases kind <;> rfl

end Registry

end CallRouter.Message
