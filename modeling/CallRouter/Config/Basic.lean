import CallRouter.Network.Address
import CallRouter.Server

namespace CallRouter

structure Config.Listener where
  bind : Network.Address := ⟨.v4 [127, 0, 0, 1], 8080⟩
  idleSeconds : Nat := 300
  maxConnections : Nat := 1000
  mode : Wire.Mode := .binary
  deriving DecidableEq, Repr

structure Config.Reporting where
  enabled : Bool := false
  bind : Network.Address := ⟨.v4 [0, 0, 0, 0], 9090⟩
  deriving DecidableEq, Repr

structure Config where
  network : Config.Listener := {}
  identity : Identity := {}
  dealer : Dealer.Options := {}
  sweepMilliseconds : Nat := 100
  reporting : Config.Reporting := {}
  deriving DecidableEq, Repr

namespace Config

inductive Fault where
  | unreadable (path reason : String)
  | malformed (path : String)
  | invalid (reason : String)
  deriving DecidableEq, Repr

def Fault.message : Fault → String
  | unreadable path reason => "failed to read config file '" ++ path ++ "': " ++ reason
  | malformed path => "failed to parse config file '" ++ path ++ "': not a configuration"
  | invalid reason => "configuration validation failed: " ++ reason

def validate (config : Config) : Except Fault Config :=
  if !Uri.isProcedure .exact config.identity.realm then
    .error (.invalid ("invalid realm name: '" ++ config.identity.realm ++ "'"))
  else if config.network.maxConnections = 0 then
    .error (.invalid "network.max_connections must be at least 1")
  else .ok config

def sweepInterval (config : Config) : Option Nat :=
  if config.sweepMilliseconds = 0 then none else some config.sweepMilliseconds

def server (config : Config) : Server where
  mode := config.network.mode
  maxConnections := config.network.maxConnections
  idleTimeout := Time.milliseconds (1000 * config.network.idleSeconds)
  router := { identity := config.identity, dealer := { options := config.dealer } }

def measuredServer (config : Config) : Server :=
  let server := config.server
  if config.reporting.enabled then
    { server with router := { server.router with metrics := some Metrics.empty } }
  else server

end Config

end CallRouter
