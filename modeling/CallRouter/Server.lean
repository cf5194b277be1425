import CallRouter.Router.Reception

/-!
The server: connections, each a stream of bytes in both directions that carries one session of the
router. A connection ends when its session closes, when bytes come in that are no message, when a
message cannot be carried by it, when nothing happens on it for too long, or from the other side.
-/

namespace CallRouter

structure Connection where
  reader : Wire.Reader
  active : Time
  deriving DecidableEq, Repr

structure Server.Totals where
  connections : Nat := 0
  messages : Nat := 0
  errors : Nat := 0
  timedOut : Nat := 0
  deriving DecidableEq, Repr, Inhabited

structure Server where
  mode : Wire.Mode := .binary
  maxConnections : Nat := 1000
  idleTimeout : Time := Time.milliseconds 300000
  router : Router := {}
  connections : Keyed Nat Connection := Keyed.empty
  totals : Server.Totals := {}
  running : Bool := true
  written : List (Nat × Wire.Bytes) := []

namespace Server

instance : Inhabited Server := ⟨{}⟩

def connect? (server : Server) (now : Time) (id : Nat) : Option Server :=
  if server.maxConnections ≤ server.connections.size then none
  else
    let totals := { server.totals with connections := server.totals.connections + 1 }
    let router := (server.router.openSession id).measure fun metrics =>
      (metrics.increment .connections "").increment .connectionsActive ""
    let connections := server.connections.insert id ⟨{ mode := server.mode }, now⟩
    some { server with totals, router, connections }

def write (server : Server) (now : Time) (id : Nat) (message : Message) :
    Except ProtocolError Server :=
  match server.connections.find? id with
  | none => .ok server
  | some connection =>
    (server.mode.encode message).map fun bytes =>
      { server with
        written := server.written ++ [(id, bytes)]
        connections := server.connections.insert id { connection with active := now } }

def flush (server : Server) (now : Time) : List Nat × Server :=
  server.router.effects.foldl (fun (broken, server) effect =>
    match effect with
    | .publish _ => (broken, server)
    | .send id message _ =>
      if broken.contains id then (broken, server)
      else
        match server.write now id message with
        | .ok server => (broken, server)
        | .error _ => (broken ++ [id], server))
    ([], { server with router := { server.router with effects := [] } })

def disconnect (server : Server) (id : Nat) : Server :=
  if server.connections.contains id then
    { server with
      router := (server.router.forgetSession id).measure (·.decrement .connectionsActive "")
      connections := server.connections.erase id }
  else server

/--
Writes what is to be written and ends the connections that are to end, those that broke among them,
until nothing is left to do. Each round but the last ends a connection.
-/
def settle (now : Time) : Nat → List Nat → List Nat → Server → Server
  | 0, _, _, server => server
  | rounds + 1, ending, broken, server =>
    let (failed, server) := server.flush now
    let broken := (broken ++ failed).eraseDups
    let totals := { server.totals with errors := server.totals.errors + broken.length }
    match (ending ++ broken).eraseDups with
    | [] => server
    | gone => settle now rounds [] [] (gone.foldl disconnect { server with totals })

def finish (server : Server) (now : Time) (ending broken : List Nat) : Server :=
  settle now (server.connections.size + 1) ending broken server

def receive (server : Server) (now : Time) (draws : Nat → Nat) (id : Nat) (bytes : Wire.Bytes) :
    Server :=
  match server.connections.find? id with
  | none => server
  | some connection =>
    let (receptions, reader, router) :=
      server.router.receive now draws id (connection.reader.extend bytes)
    let messages := server.totals.messages + receptions.countP Reception.isMessage
    let server := { server with
      router
      totals := { server.totals with messages }
      connections := server.connections.insert id ⟨reader, now⟩ }
    match receptions.getLast? with
    | some (.garbage _) => server.finish now [] [id]
    | some (.message .close) => server.finish now [id] []
    | _ => server.finish now [] []

def drop (server : Server) (now : Time) (id : Nat) : Server := server.finish now [id] []

def dropIdle (server : Server) (now : Time) : Server :=
  let idle := server.connections.entries.filter fun (_, connection) =>
    connection.active + server.idleTimeout ≤ now
  server.finish now (idle.map (·.1)) []

def sweep (server : Server) (now : Time) : Server :=
  let (expired, router) := server.router.sweep now
  let totals := { server.totals with timedOut := server.totals.timedOut + expired }
  { server with router, totals }.finish now [] []

def shutdown (server : Server) (now : Time) : Server :=
  let joined := server.router.sessions.entries.filter fun (_, session) =>
    session.state == .established
  let router := joined.foldl (fun router (id, _) => router.send id .goodbye Router.farewell)
    server.router
  { server with router, running := false }.finish now server.connections.keys []

end Server

end CallRouter
