import CallRouter.Proofs.Dealer.Reach
import CallRouter.Proofs.Registration.Reachable
import CallRouter.Proofs.Registration.Reserved

namespace CallRouter.Dealer

open Registration Registration.Directory

variable {peers : Peers} {operation : Operation} {dealer later : Dealer}

@[simp] theorem directory_send (dealer : Dealer) (session : Nat) (rpc : Rpc) (call : Option Nat) :
    (dealer.send session rpc call).directory = dealer.directory := by
  rw [send_eq]

@[simp] theorem directory_refuse (dealer : Dealer) (session : Nat) (kind : Message.Kind)
    (request : Nat) (refusal : Refusal) :
    (dealer.refuse session kind request refusal).directory = dealer.directory :=
  directory_send _ _ _ _

theorem directory_closeSession (linked : dealer.Linked) (session : Nat) :
    (dealer.closeSession session).directory = (dealer.directory.closeSession session).2 := by
  rw [closeSession_eq]
  exact (Order.listed dealer session).directory linked (.refl _)

theorem Dispatches.directory {call : Call}
    (dispatches : Dispatches peers dealer operation call later) :
    later.directory = dealer.directory ∨
      ∃ entry draw, later.directory = dealer.directory.apply (.select entry draw) := by
  cases dispatches with
  | @dispatch now draw caller request message options uri payload terms entry registrations chosen
      reads valid agreed resolved choice any =>
    have kept : (chosen.dispatch peers now caller request uri terms registrations payload).directory =
        chosen.directory := by rw [dispatch_eq]
    rw [kept]
    simp only [chooseRegistrations] at choice
    split at choice
    · obtain ⟨-, rfl⟩ := Prod.mk.inj choice
      exact .inl rfl
    · obtain ⟨-, rfl⟩ := Prod.mk.inj choice
      exact .inr ⟨entry, draw, rfl⟩

inductive Asks : Operation → Request → Prop
  | register {now : Time} {draw session request : Nat} {message : Message} {options : Dict}
      {pattern : Pattern} {invoke : InvocationPolicy}
      (reads : Rpc.ofMessage message = .ok (.register request options pattern.uri))
      (matched : chosen (options.choice MatchPolicy.ofName Dict.Key.match_) = .ok pattern.policy)
      (invoked : chosen (options.choice InvocationPolicy.ofName Dict.Key.invoke) = .ok invoke)
      (isOpen : pattern.IsOpen) :
      Asks (.handle now draw session message) (.register now session pattern invoke options)
  | unregister {now : Time} {draw session request id : Nat} {message : Message}
      (reads : Rpc.ofMessage message = .ok (.unregister request id)) :
      Asks (.handle now draw session message) (.unregister id)
  | select {now : Time} {draw session request : Nat} {message : Message} {options : Dict}
      {uri : String} {payload : Payload} {entry : Entry} {drawn : Nat}
      (reads : Rpc.ofMessage message = .ok (.call request options uri payload)) :
      Asks (.handle now draw session message) (.select entry drawn)
  | closeSession {session : Nat} : Asks (.closeSession session) (.closeSession session)

theorem directory_register {now : Time} {draw session request : Nat} {message : Message}
    {options : Dict} {uri : String}
    (reads : Rpc.ofMessage message = .ok (.register request options uri)) :
    (dealer.register now session request options uri).directory = dealer.directory ∨
      ∃ asked, Asks (.handle now draw session message) asked ∧
        (dealer.register now session request options uri).directory =
          dealer.directory.apply asked := by
  unfold register
  cases done : dealer.register? now session options uri with
  | error refusal => exact .inl (directory_refuse _ _ _ _ _)
  | ok answer =>
    obtain ⟨registration, later⟩ := answer
    obtain ⟨policy, invoke, events, directory, matched, invoked, valid, unreserved, made, rfl⟩ :=
      register?_cases done
    have isOpen : Pattern.IsOpen ⟨policy, uri⟩ := ⟨valid, unreserved⟩
    have asks : Asks (.handle now draw session message)
        (.register now session ⟨policy, uri⟩ invoke options) :=
      .register reads matched invoked isOpen
    refine .inr ⟨_, asks, ?_⟩
    simp [Directory.apply, made]

theorem directory_unregister {now : Time} {draw session request id : Nat} {message : Message}
    (reads : Rpc.ofMessage message = .ok (.unregister request id)) :
    (dealer.unregister session request id).directory = dealer.directory ∨
      ∃ asked, Asks (.handle now draw session message) asked ∧
        (dealer.unregister session request id).directory = dealer.directory.apply asked := by
  unfold unregister
  cases done : dealer.unregister? session id with
  | error refusal => exact .inl (directory_refuse _ _ _ _ _)
  | ok later =>
    obtain ⟨_, registration, events, directory, made, rfl⟩ := unregister?_cases done
    refine .inr ⟨_, .unregister reads, ?_⟩
    simp [Directory.apply, made]

theorem step_directory (linked : dealer.Linked) (peers : Peers) (operation : Operation) :
    (dealer.step peers operation).directory = dealer.directory ∨
      ∃ asked, Asks operation asked ∧
        (dealer.step peers operation).directory = dealer.directory.apply asked := by
  cases operation with
  | checkTimeout now session => exact .inl (directory_turns (checkTimeout_turns dealer now session))
  | closeSession session => exact .inr ⟨_, .closeSession, directory_closeSession linked session⟩
  | handle now draw session message =>
    have handled := handled_step linked peers now draw session message
    generalize dealer.step peers (.handle now draw session message) = later at handled ⊢
    cases handled with
    | register reads => exact directory_register reads
    | unregister reads => exact directory_unregister reads
    | refuse reads => exact .inl (directory_refuse _ _ _ _ _)
    | turns turns => exact .inl (directory_turns turns)
    | @call request options uri payload reads =>
      rcases call_cases dealer peers now draw session request options uri payload reads with
        ⟨statistics, rpc, _, _, answered⟩ | ⟨call, dispatches⟩
      · rw [answered]
        exact .inl (directory_send _ _ _ _)
      · rcases dispatches.directory with same | ⟨entry, drawn, selected⟩
        · exact .inl same
        · exact .inr ⟨_, .select reads, selected⟩

theorem isOpen_of_run {options : Options} {operations : List Operation} {id : Nat} {entry : Entry}
    (held : (run peers options operations).directory.entry? id = some entry) :
    entry.pattern.IsOpen := by
  induction operations using List.reverseRecOn generalizing id entry with
  | nil => cases held
  | append_singleton operations operation ih =>
    rw [run_concat] at held
    rcases step_directory (linked_run peers options operations) peers operation with
      same | ⟨asked, asks, same⟩
    · rw [same] at held
      exact ih held
    · rw [same] at held
      rcases pattern_apply held with ⟨before, there, agree⟩ | ⟨now, session, invoke, terms, rfl⟩
      · rw [agree]
        exact ih there
      · cases asks with
        | register reads matched invoked isOpen => exact isOpen

def Ends (dealer : Dealer) (operation : Operation) : Prop :=
  ∀ asked, Asks operation asked → dealer.directory.Ends asked

def HasIds (dealer : Dealer) : Prop := dealer.directory.usedIds.length + 2 ≤ maxId

instance (dealer : Dealer) : Decidable dealer.HasIds :=
  inferInstanceAs (Decidable (dealer.directory.usedIds.length + 2 ≤ maxId))

theorem HasIds.ends (room : dealer.HasIds) (operation : Operation) : dealer.Ends operation := by
  intro asked asks
  cases asks with
  | register reads matched invoked isOpen =>
    intro _
    unfold HasIds at room
    unfold HasRoom
    split <;> omega
  | _ => trivial

theorem wellFormed_step (linked : dealer.Linked) (wellFormed : dealer.directory.WellFormed)
    (ends : dealer.Ends operation) : (dealer.step peers operation).directory.WellFormed := by
  rcases step_directory linked peers operation with same | ⟨asked, asks, same⟩
  · rw [same]
    exact wellFormed
  · rw [same]
    exact wellFormed_apply wellFormed asked (ends asked asks)

def RunsEnd (peers : Peers) (options : Options) (operations : List Operation) : Prop :=
  ∀ before operation, before ++ [operation] <+: operations →
    (run peers options before).Ends operation

theorem runsEnd_concat {options : Options} {operations : List Operation}
    (ends : RunsEnd peers options (operations ++ [operation])) :
    RunsEnd peers options operations ∧ (run peers options operations).Ends operation :=
  ⟨fun before next within => ends before next (within.trans (List.prefix_append _ _)),
    ends operations operation (List.prefix_refl _)⟩

theorem runsEnd_of_hasIds {options : Options} {operations : List Operation}
    (room : ∀ count < operations.length, (run peers options (operations.take count)).HasIds) :
    RunsEnd peers options operations := by
  intro before operation within
  have shorter : before.length < operations.length := by
    have length := within.length_le
    rw [List.length_append, List.length_singleton] at length
    omega
  have start := List.prefix_iff_eq_take.mp ((List.prefix_append before [operation]).trans within)
  rw [start]
  exact (room before.length shorter).ends operation

theorem wellFormed_of_runsEnd (peers : Peers) (options : Options) (operations : List Operation)
    (ends : RunsEnd peers options operations) :
    (run peers options operations).directory.WellFormed := by
  induction operations using List.reverseRecOn with
  | nil => exact wellFormed_empty
  | append_singleton operations operation ih =>
    obtain ⟨earlier, last⟩ := runsEnd_concat ends
    rw [run_concat]
    exact wellFormed_step (linked_run peers options operations) (ih earlier) last

theorem wellFormed_run (peers : Peers) (options : Options) (operations : List Operation)
    (room : ∀ before, before <+: operations → (run peers options before).HasIds) :
    (run peers options operations).directory.WellFormed :=
  wellFormed_of_runsEnd peers options operations
    (runsEnd_of_hasIds fun count _ => room _ (List.take_prefix count operations))

end CallRouter.Dealer
