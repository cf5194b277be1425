import CallRouter.Proofs.Dealer.Draws
import CallRouter.Proofs.Dealer.Inquiry
import CallRouter.Proofs.Dealer.Sweep
import CallRouter.Proofs.Registration.Narrowest

namespace CallRouter

namespace Registration

variable {directory : Directory} {id : Nat} {entry : Entry}

end Registration

namespace Dealer

open Registration Registration.Directory

variable {peers : Peers} {dealer later : Dealer} {options : Options} {operations : List Operation}
  {registration : Registration} {registrations : List Registration} {target : Call.Target}
  {index session : Nat}

def invocation (peers : Peers) (options : Options) (number : Nat) (call : Call) (payload : Payload)
    (target : Call.Target) : Effect :=
  .send target.callee (Rpc.invocation target.invocation target.registration
    (invocationDetails peers options call target) payload).message (some number)

/-- A new call has one target for each of some registrations, which is invoked once. -/
structure Engages (peers : Peers) (registrations : List Registration) (payload : Payload)
    (dealer : Dealer) (call : Call) (later : Dealer) : Prop where
  calls : later.calls = dealer.calls ++ [call]
  length : call.targets.length = registrations.length
  targets : ∀ {index : Nat} {registration : Registration} {target : Call.Target},
    registrations[index]? = some registration → call.targets[index]? = some target →
      target.registration = registration.id ∧ target.callee = registration.session ∧
      target.invocation = peers.requestId registration.session
        (dealer.draws registration.session +
          (registrations.take index).countP fun other => other.session = registration.session)
  effects : later.effects = dealer.effects ++
    call.targets.map (invocation peers dealer.options dealer.calls.length call payload)

theorem Engages.unheard {payload : Payload} {call : Call}
    (engages : Engages peers registrations payload dealer call later) (linked : dealer.Linked) :
    later.replies dealer.calls.length = [] := by
  rw [replies, engages.effects, List.filterMap_append, ← replies,
    replies_of_linked linked (Nat.le_refl _), List.nil_append, List.filterMap_eq_nil_iff]
  intro effect member
  obtain ⟨target, -, rfl⟩ := List.mem_map.mp member
  simp [invocation, Effect.reply?, Message.Kind.isReply, Rpc.message, Rpc.kind]

end Dealer

end CallRouter
