import CallRouter.Proofs.Dealer.Attempts
import CallRouter.Proofs.Message.Views
import CallRouter.Router.Handling
import Mathlib.Logic.Function.Basic

/-!
Runs of the router: sessions that are opened, send messages or bytes that are none, and are closed,
in any order, while the clock goes on. A step of a run has the dealer do some work, sends messages
of the router itself, and changes at most one session.
-/

namespace CallRouter

theorem Keyed.find?_insert_eq {κ ν : Type} [DecidableEq κ] (m : Keyed κ ν) (key : κ) (value : ν) :
    (m.insert key value).find? = Function.update m.find? key (some value) := by
  funext other
  rw [find?_insert, Function.update_apply]
  by_cases same : key = other
  · rw [if_pos same, if_pos same.symm]
  · rw [if_neg same, if_neg (Ne.symm same)]

namespace Message

theorem IsValid.build {message : Message} (valid : message.IsValid) :
    Registry.standard.build message.kind message.fields = .ok message := by
  simp [Registry.build, Registry.shape?_standard, valid.validate, bind, Except.bind, pure,
    Except.pure]

theorem isValid_of_parse {raw : List Json} {message : Message}
    (reads : Registry.standard.parse raw = .ok message) : message.IsValid := by
  obtain ⟨rfl, -⟩ := Registry.parse_eq_ok_iff.mp reads
  exact reads

end Message

namespace Router

inductive Operation where
  | connect (id : Nat)
  | handle (now : Time) (draw id : Nat) (raw : List Json)
  | rejectBytes (id : Nat) (error : ProtocolError)
  | sweep (now : Time)
  | farewell (id : Nat)
  | closeSession (id : Nat)

/--
A session is opened under a valid id that no other session has. When the router shuts down, it says
farewell to the sessions that are established.
-/
def step (router : Router) : Operation → Router
  | .connect id =>
    if isValidId id && !router.sessions.contains id then router.openSession id else router
  | .handle now draw id raw => (router.handle now draw id raw).2
  | .rejectBytes id error => (router.rejectBytes id error).2
  | .sweep now => (router.sweep now).2
  | .farewell id =>
    if (router.sessions.find? id).any fun session => session.state == .established then
      router.send id .goodbye farewell
    else router
  | .closeSession id => router.closeSession id

def run (identity : Identity) (options : Dealer.Options) (metrics : Option Metrics)
    (operations : List Operation) : Router :=
  operations.foldl step { identity, dealer := { options }, metrics }

theorem run_concat (identity : Identity) (options : Dealer.Options) (metrics : Option Metrics)
    (operations : List Operation) (operation : Operation) :
    run identity options metrics (operations ++ [operation]) =
      (run identity options metrics operations).step operation := by
  simp [run]

section Frames

variable (router : Router) (change : Metrics → Metrics) (id : Nat) (session : Session)
  (dealer : Dealer)

@[simp] theorem identity_measure : (router.measure change).identity = router.identity := rfl
@[simp] theorem dealer_measure : (router.measure change).dealer = router.dealer := rfl
@[simp] theorem sessions_measure : (router.measure change).sessions = router.sessions := rfl
@[simp] theorem effects_measure : (router.measure change).effects = router.effects := rfl

@[simp] theorem identity_gauge : router.gauge.identity = router.identity := rfl
@[simp] theorem dealer_gauge : router.gauge.dealer = router.dealer := rfl
@[simp] theorem sessions_gauge : router.gauge.sessions = router.sessions := rfl
@[simp] theorem effects_gauge : router.gauge.effects = router.effects := rfl

@[simp] theorem identity_setSession : (router.setSession id session).identity = router.identity :=
  rfl
@[simp] theorem dealer_setSession : (router.setSession id session).dealer = router.dealer := rfl
@[simp] theorem effects_setSession : (router.setSession id session).effects = router.effects := rfl

@[simp] theorem sessions_setSession : (router.setSession id session).sessions.find? =
    Function.update router.sessions.find? id (some session) := Keyed.find?_insert_eq _ _ _

theorem withDealer_eq : ∃ published metrics, router.withDealer dealer =
    { router with
      dealer := { dealer with effects := [] }
      published, metrics, effects := router.effects ++ dealer.effects } := by
  have relayed (effects : List Effect) (router : Router) : ∃ published metrics,
      effects.foldl relay router =
        { router with published, metrics, effects := router.effects ++ effects } := by
    induction effects generalizing router with
    | nil => exact ⟨router.published, router.metrics, by simp⟩
    | cons effect effects ih =>
      obtain ⟨published, metrics, rest⟩ := ih (router.relay effect)
      refine ⟨published, metrics, ?_⟩
      rw [List.foldl_cons, rest]
      cases effect <;> simp [relay, measure]
  exact relayed dealer.effects _

@[simp] theorem identity_withDealer : (router.withDealer dealer).identity = router.identity := by
  obtain ⟨_, _, same⟩ := router.withDealer_eq dealer
  rw [same]

@[simp] theorem dealer_withDealer :
    (router.withDealer dealer).dealer = { dealer with effects := [] } := by
  obtain ⟨_, _, same⟩ := router.withDealer_eq dealer
  rw [same]

@[simp] theorem sessions_withDealer : (router.withDealer dealer).sessions = router.sessions := by
  obtain ⟨_, _, same⟩ := router.withDealer_eq dealer
  rw [same]

@[simp] theorem effects_withDealer :
    (router.withDealer dealer).effects = router.effects ++ dealer.effects := by
  obtain ⟨_, _, same⟩ := router.withDealer_eq dealer
  rw [same]

theorem send_of_isValid {kind : Message.Kind} {fields : List Json}
    (valid : Message.IsValid ⟨kind, fields⟩) :
    router.send id kind fields =
      { router with effects := router.effects ++ [.send id ⟨kind, fields⟩ none] } := by
  rw [send, valid.build]

theorem peers_setSession {before : Session} (known : router.sessions.find? id = some before)
    (same : session.roles = before.roles) :
    (router.setSession id session).peers = router.peers := by
  have supports : (router.setSession id session).peers.supports = router.peers.supports := by
    funext other role feature
    by_cases here : other = id
    · subst here
      simp [peers, known, Session.supports, same]
    · simp [peers, here]
  exact congrArg (Peers.mk · _) supports

end Frames

end Router

end CallRouter
