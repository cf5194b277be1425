import CallRouter.Proofs.Dealer.Isolation

namespace CallRouter

namespace Registration.Directory

theorem session_apply {directory : Directory} {request : Request} {id : Nat}
    {live : Registration} (found : (directory.apply request).registration? id = some live) :
    directory.registration? id = some live ∨ ∃ now pattern invoke options,
      request = .register now live.session pattern invoke options := by
  cases request with
  | register now session pattern invoke options =>
    simp only [apply] at found
    cases done : directory.register now session pattern invoke options with
    | error refusal =>
      simp only [done] at found
      exact .inl found
    | ok answer =>
      obtain ⟨registration, events, later⟩ := answer
      simp only [done] at found
      refine (registration_of_register done found).imp_right ?_
      rintro rfl
      exact ⟨now, pattern, invoke, options, rfl⟩
  | unregister other =>
    simp only [apply] at found
    cases done : directory.unregister other with
    | error refusal =>
      simp only [done] at found
      exact .inl found
    | ok answer =>
      obtain ⟨registration, events, later⟩ := answer
      simp only [done] at found
      exact .inl ((registration_unregister done).mp found).2
  | closeSession session => exact .inl ((registration_unregisterAll _).mp found).2
  | select entry draw => exact .inl found

end Registration.Directory

namespace Dealer

open Registration.Directory

variable {peers : Peers} {dealer : Dealer} {operation : Operation} {callers callees : Nat → Prop}

structure Peopled (callers callees : Nat → Prop) (dealer : Dealer) : Prop where
  registered : ∀ {id : Nat} {registration : Registration},
    dealer.directory.registration? id = some registration → callees registration.session
  made : ∀ {number : Nat} {call : Call}, dealer.calls[number]? = some call → callers call.caller
  served : ∀ {number : Nat} {call : Call}, dealer.calls[number]? = some call →
    ∀ target ∈ call.targets, callees target.callee

def Operation.IsAllowed (callers callees : Nat → Prop) : Operation → Prop
  | .handle _ _ session message =>
    (message.kind = .register → callees session) ∧ (message.kind = .call → callers session)
  | .checkTimeout .. | .closeSession _ => True

theorem peopled_initial (callers callees : Nat → Prop) (options : Options) :
    Peopled callers callees { options } where
  registered := by
    simp [Registration.Directory.registration?, Keyed.find?, Keyed.empty, Keyed.lookup]
  made := by simp
  served := by simp

theorem Peopled.imp {callers' callees' : Nat → Prop} (peopled : dealer.Peopled callers callees)
    (calling : ∀ {session : Nat}, callers session → callers' session)
    (called : ∀ {session : Nat}, callees session → callees' session) :
    dealer.Peopled callers' callees' where
  registered := fun live => called (peopled.registered live)
  made := fun found => calling (peopled.made found)
  served := fun found target member => called (peopled.served found target member)

theorem peopled_step (linked : dealer.Linked) (peopled : dealer.Peopled callers callees)
    (allowed : operation.IsAllowed callers callees) :
    (dealer.step peers operation).Peopled callers callees := by
  have registered {id : Nat} {registration : Registration}
      (live : (dealer.step peers operation).directory.registration? id = some registration) :
      callees registration.session := by
    rcases step_directory linked peers operation with same | ⟨asked, asks, same⟩
    · exact peopled.registered (same ▸ live)
    · rw [same] at live
      rcases session_apply live with before | ⟨now, pattern, invoke, options, rfl⟩
      · exact peopled.registered before
      · cases asks with
        | register reads => exact allowed.1 (Rpc.kind_of_ofMessage reads).symm
  have call {number : Nat} {call : Call}
      (found : (dealer.step peers operation).calls[number]? = some call) :
      callers call.caller ∧ ∀ target ∈ call.targets, callees target.callee := by
    rcases step_cases linked peers operation with moves | ⟨new, dispatches⟩
    -- A turn leaves the parties of a call as they are.
    · obtain ⟨before, there, same, -⟩ := before_moves moves found
      refine ⟨Call.caller_eq_of_origin same ▸ peopled.made there, fun target member => ?_⟩
      obtain ⟨other, among, callee⟩ := (Call.callee_of_origin same).mp ⟨target, member, rfl⟩
      exact callee ▸ peopled.served there other among
    · rcases dispatches.cases found with before | ⟨rfl, rfl⟩
      · exact ⟨peopled.made before, peopled.served before⟩
      -- The new call was asked for by its caller and is served by owners of registrations.
      · refine ⟨?_, fun target member => ?_⟩
        · obtain ⟨_, _, message, _, _, rfl, reads, -⟩ := dispatches.request
          exact allowed.2 (Rpc.kind_of_ofMessage reads).symm
        · obtain ⟨id, registration, live, -, callee⟩ := dispatches.serves member
          exact callee ▸ peopled.registered live
  exact ⟨registered, fun found => (call found).1, fun found => (call found).2⟩

theorem peopled_work (peers : Peers) (linked : dealer.Linked)
    (peopled : dealer.Peopled callers callees) (work : List Operation)
    (allowed : ∀ operation ∈ work, operation.IsAllowed callers callees) :
    (work.foldl (step peers) dealer).Peopled callers callees := by
  induction work generalizing dealer with
  | nil => exact peopled
  | cons operation work ih =>
    have first : (dealer.step peers operation).Peopled callers callees :=
      peopled_step linked peopled (allowed operation (by simp))
    exact ih (linked_step linked peers operation) first fun other member =>
      allowed other (by simp [member])

end Dealer

end CallRouter
