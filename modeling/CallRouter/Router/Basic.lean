import CallRouter.Dealer.Basic
import CallRouter.Metrics.Basic
import CallRouter.Session

namespace CallRouter

structure Identity where
  realm : String := "realm1"
  agent : String := "wampd-0.1.0"
  deriving DecidableEq, Repr

inductive Disposition where
  | keepOpen
  | close
  deriving DecidableEq, Repr, Inhabited

structure Router where
  identity : Identity := {}
  dealer : Dealer := {}
  sessions : Keyed Nat Session := Keyed.empty
  published : Keyed String Nat := Keyed.empty
  metrics : Option Metrics := none
  effects : List Effect := []

namespace Router

instance : Inhabited Router := ⟨{}⟩

def peers (router : Router) : Peers where
  supports id role feature :=
    (router.sessions.find? id).any fun session => session.supports role feature
  requestId _ count := requestIdAfter count

def measure (router : Router) (change : Metrics → Metrics) : Router :=
  { router with metrics := router.metrics.map change }

def relay (router : Router) (effect : Effect) : Router :=
  let relayed := { router with effects := router.effects ++ [effect] }
  match effect with
  | .send .. => relayed
  | .publish event =>
    { relayed with published := relayed.published.adjust event.topic 0 (· + 1) }.measure
      (·.increment .metaEvents event.topic)

def withDealer (router : Router) (dealer : Dealer) : Router :=
  dealer.effects.foldl relay { router with dealer := { dealer with effects := [] } }

def gauge (router : Router) : Router :=
  router.measure fun metrics =>
    (metrics.set .registrations "" (Metrics.whole router.dealer.directory.size)).set
      .pendingInvocations "" (Metrics.whole router.dealer.pending)

def setSession (router : Router) (id : Nat) (session : Session) : Router :=
  { router with sessions := router.sessions.insert id session }

def send (router : Router) (id : Nat) (kind : Message.Kind) (fields : List Json) : Router :=
  match Message.Registry.standard.build kind fields with
  | .ok message => { router with effects := router.effects ++ [.send id message none] }
  | .error _ => router

end Router

end CallRouter
