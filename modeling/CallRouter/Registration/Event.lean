import CallRouter.Json.Basic
import CallRouter.Policy

namespace CallRouter.Registration

structure Details where
  id : Nat
  created : String
  uri : String
  policy : MatchPolicy
  invoke : InvocationPolicy
  deriving DecidableEq, Repr

def Details.json (details : Details) : Json :=
  .dict [("created", .text details.created), ("id", .ofNat details.id),
    ("invoke", .text details.invoke.name), ("match", .text details.policy.name),
    ("uri", .text details.uri)]

inductive Event.Kind where
  | create
  | register
  | unregister
  | delete
  deriving DecidableEq, Repr, Inhabited

namespace Event.Kind

def all : List Kind := [create, register, unregister, delete]

def topic : Kind → String
  | create => "wamp.registration.on_create"
  | register => "wamp.registration.on_register"
  | unregister => "wamp.registration.on_unregister"
  | delete => "wamp.registration.on_delete"

end Event.Kind

structure Event where
  kind : Event.Kind
  session : Nat
  entry : Nat
  details : Option Details := none
  deriving DecidableEq, Repr

namespace Event

def topic (event : Event) : String := event.kind.topic

/-- The session, and the description of the entry if the event carries it, else the id. -/
def args (event : Event) : List Json :=
  [.ofNat event.session,
    match event.details with
    | some details => details.json
    | none => .ofNat event.entry]

/-- The topics and the sessions that a listener wants; no topics or no sessions stand for all. -/
structure Filter where
  topics : List String := []
  sessions : List Nat := []
  deriving DecidableEq, Repr

def Filter.admits (filter : Filter) (event : Event) : Bool :=
  (filter.topics.isEmpty || filter.topics.contains event.topic) &&
    (filter.sessions.isEmpty || filter.sessions.contains event.session)

end Event

end CallRouter.Registration
