import CallRouter.Proofs.Dealer.Turns

namespace CallRouter.Dealer

theorem publish_eq (dealer : Dealer) (events : List Registration.Event) :
    dealer.publish events =
      { dealer with effects := dealer.effects ++ events.map .publish } := by
  induction events generalizing dealer with
  | nil => simp [publish]
  | cons event events ih =>
    have rest := ih (dealer.perform (.publish event))
    simp only [publish, List.foldl_cons] at rest ⊢
    rw [rest]
    simp [perform]

theorem register?_cases {dealer later : Dealer} {now : Time} {session : Nat} {options : Dict}
    {uri : String} {registration : Registration}
    (done : dealer.register? now session options uri = .ok (registration, later)) :
    ∃ policy invoke events directory,
      chosen (options.choice MatchPolicy.ofName Dict.Key.match_) = .ok policy ∧
      chosen (options.choice InvocationPolicy.ofName Dict.Key.invoke) = .ok invoke ∧
      Uri.isProcedure policy uri = true ∧ Uri.isReserved uri = false ∧
      dealer.directory.register now session ⟨policy, uri⟩ invoke options =
        .ok (registration, events, directory) ∧
      later = { dealer with
        directory
        statistics := dealer.statistics.attach [uri]
        effects := dealer.effects ++ events.map .publish } := by
  simp only [register?, bind, Except.bind] at done
  cases matched : chosen (options.choice MatchPolicy.ofName Dict.Key.match_) with
  | error refusal => simp [matched] at done
  | ok policy =>
    cases invoked : chosen (options.choice InvocationPolicy.ofName Dict.Key.invoke) with
    | error refusal => simp [matched, invoked] at done
    | ok invoke =>
      simp only [matched, invoked] at done
      cases valid : Uri.isProcedure policy uri with
      | false => simp [valid, throw, throwThe, MonadExceptOf.throw] at done
      | true =>
        cases reserved : Uri.isReserved uri with
        | true => simp [valid, reserved, throw, throwThe, MonadExceptOf.throw] at done
        | false =>
          simp only [valid, reserved] at done
          cases made : dealer.directory.register now session ⟨policy, uri⟩ invoke options with
          | error refusal => simp [made] at done
          | ok answer =>
            obtain ⟨added, events, directory⟩ := answer
            simp only [made, pure, Except.pure] at done
            obtain ⟨rfl, rfl⟩ := Prod.mk.inj (Except.ok.inj done)
            exact ⟨policy, invoke, events, directory, rfl, rfl, valid, rfl, made,
              publish_eq _ events⟩

theorem unregister?_cases {dealer later : Dealer} {session id : Nat}
    (done : dealer.unregister? session id = .ok later) :
    ((dealer.directory.registration? id).any fun owned => owned.session == session) = true ∧
    ∃ registration events directory,
      dealer.directory.unregister id = .ok (registration, events, directory) ∧
      later = { dealer with
        directory, effects := dealer.effects ++ events.map .publish } := by
  simp only [unregister?] at done
  split at done
  · rename_i owned
    refine ⟨owned, ?_⟩
    cases removed : dealer.directory.unregister id with
    | error refusal => simp [removed, bind, Except.bind] at done
    | ok answer =>
      obtain ⟨registration, events, directory⟩ := answer
      simp only [removed, bind, Except.bind, pure, Except.pure] at done
      obtain rfl := Except.ok.inj done
      exact ⟨registration, events, directory, rfl, publish_eq _ events⟩
  · simp [throw, throwThe, MonadExceptOf.throw] at done

end CallRouter.Dealer
