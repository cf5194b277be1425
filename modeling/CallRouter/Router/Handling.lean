import CallRouter.Dealer.Handling
import CallRouter.Router.Basic

namespace CallRouter.Router

def abort (router : Router) (id : Nat) (session : Session) (reason : ErrorUri) (text : String) :
    Disposition × Router :=
  let router := router.measure (·.increment .errors reason.uri)
  let router := router.send id .abort [.dict [(Dict.Key.message, .text text)], .text reason.uri]
  (.close, router.setSession id { session with state := .closing })

/--
Answers a malformed message: with an ERROR if the session is established and the message is known
to be a request, and else with an ABORT.
-/
def reject (router : Router) (id : Nat) (session : Session)
    (request : Option (Message.Kind × Nat)) (error : ProtocolError) : Disposition × Router :=
  match session.state, request with
  | .established, some (kind, request) =>
    let router := router.measure (·.increment .errors ErrorUri.invalidArgument.uri)
    (.keepOpen, router.send id .error
      [.ofNat kind.code, .ofNat request, .dict [], .text ErrorUri.invalidArgument.uri,
        .list [.text error.message]])
  | _, _ => router.abort id session .protocolViolation error.message

def welcomeDetails (router : Router) : Dict :=
  let features := Dict.ofEntries
    ((Dealer.features router.dealer.options).map fun feature => (feature, .bool true))
  [("agent", .text router.identity.agent),
    ("roles", .dict [(Role.dealer.name, .dict [("features", .dict features)])])]

def hello (router : Router) (id : Nat) (session : Session) (message : Message) :
    Disposition × Router :=
  let realm := (message.text? 0).getD ""
  let roles := Announcement.ofDetails ((message.dict? 1).getD [])
  if realm ≠ router.identity.realm then
    router.abort id session .noSuchRealm ("no such realm: " ++ realm)
  else if roles.isEmpty then
    router.abort id session .protocolViolation "HELLO announces no client role"
  else
    let router := (router.setSession id (session.join realm roles)).measure
      (·.increment .sessionsActive "")
    (.keepOpen, router.send id .welcome [.ofNat id, .dict router.welcomeDetails])

/-- Answers a GOODBYE, unless it is itself an answer, and closes the session. -/
def goodbye (router : Router) (id : Nat) (session : Session) (message : Message) :
    Disposition × Router :=
  let router := if message.text? 1 = some ErrorUri.goodbyeAndOut.uri then router
    else router.send id .goodbye [.dict [], .text ErrorUri.goodbyeAndOut.uri]
  (.close, router.setSession id { session with state := .closing })

def allows (session : Session) (kind : Message.Kind) : Bool :=
  (Message.Registry.standard.shape? kind).any fun shape =>
    shape.flows.any fun flow => !flow.source.isRouter && session.hasRole flow.source

def roleTitles (session : Session) : String :=
  String.intercalate ", " (session.roles.map fun (role, _) => role.title)

def route (router : Router) (now : Time) (draw id : Nat) (session : Session) (message : Message) :
    Disposition × Router :=
  if !allows session message.kind then
    router.abort id session .protocolViolation
      (message.kind.name ++ " not allowed for roles [" ++ roleTitles session ++ "]")
  else
    match router.dealer.handle router.peers now draw id message with
    | .ok dealer => (.keepOpen, router.withDealer dealer)
    | .error refusal =>
      if refusal.isFatal then router.abort id session .protocolViolation refusal.message
      else (.keepOpen, router)

def dispatch (router : Router) (now : Time) (draw id : Nat) (session : Session)
    (message : Message) : Disposition × Router :=
  match session.state, message.kind with
  | .closing, _ => (.close, router)
  | _, .abort => (.close, router.setSession id { session with state := .closing })
  | .establishing, .hello => router.hello id session message
  | .establishing, kind =>
    router.abort id session .protocolViolation ("expected HELLO, got " ++ kind.name)
  | .established, .hello =>
    router.abort id session .protocolViolation "HELLO on an established session"
  | .established, .goodbye => router.goodbye id session message
  | .established, _ => router.route now draw id session message

def handle (router : Router) (now : Time) (draw id : Nat) (raw : List Json) :
    Disposition × Router :=
  match router.sessions.find? id with
  | none => (.close, router)
  | some session =>
    let session := { session with messages := session.messages + 1 }
    let router := router.setSession id session
    match Message.Registry.standard.parse raw with
    | .error error => router.reject id session (Message.recover? raw) error
    | .ok message =>
      let (disposition, router) := router.dispatch now draw id session message
      let kind := message.kind.name
      let router := router.measure fun metrics =>
        (metrics.increment .messages kind).observe kind (.zero false)
      (disposition, router.gauge)

def rejectBytes (router : Router) (id : Nat) (error : ProtocolError) : Disposition × Router :=
  match router.sessions.find? id with
  | none => (.close, router)
  | some session => router.abort id session .protocolViolation error.message

def openSession (router : Router) (id : Nat) : Router := router.setSession id {}

def closeSession (router : Router) (id : Nat) : Router :=
  let joined := (router.sessions.find? id).any fun session => session.realm.isSome
  let router := if joined then router.measure (·.decrement .sessionsActive "") else router
  (router.withDealer (router.dealer.closeSession id)).gauge

def sweep (router : Router) (now : Time) : Nat × Router :=
  let (expired, dealer) := router.dealer.checkTimeouts router.peers now
  let router := (router.withDealer dealer).measure fun metrics =>
    (metrics.add .callTimeouts "" (Metrics.whole expired)).set .pendingInvocations ""
      (Metrics.whole dealer.pending)
  (expired, router)

def forgetSession (router : Router) (id : Nat) : Router :=
  let router := router.closeSession id
  { router with
    sessions := router.sessions.erase id
    dealer := { router.dealer with drawn := router.dealer.drawn.erase id } }

def farewell : List Json :=
  [.dict [(Dict.Key.message, .text "router is shutting down")], .text ErrorUri.systemShutdown.uri]

end CallRouter.Router
