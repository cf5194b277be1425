import CallRouter.Proofs.Dealer.Directory
import CallRouter.Proofs.Dealer.Replies
import CallRouter.Proofs.Registration.Lookup

namespace CallRouter.Dealer

open Registration Registration.Directory

variable {peers : Peers} {dealer : Dealer} {now : Time} {draw caller request : Nat}
  {message : Message} {terms : Dict} {uri : String} {payload : Payload}

def Invokes (peers : Peers) (dealer : Dealer) (operation : Operation) : Prop :=
  ∃ session message number,
    Effect.send session message number ∈
      (dealer.step peers operation).effects.drop dealer.effects.length ∧
    message.kind = .invocation

theorem covered_of_invokes (reads : Rpc.ofMessage message = .ok (.call request terms uri payload))
    (invokes : Invokes peers dealer (.handle now draw caller message)) :
    Uri.isProcedure .exact uri = true ∧
      (dealer.options.metaApi = true → MetaProcedure.ofUri? uri = none) ∧
      ∃ id entry, dealer.directory.entry? id = some entry ∧ entry.pattern.covers uri = true := by
  obtain ⟨session, sent, number, member, kind⟩ := invokes
  have answer : dealer.step peers (.handle now draw caller message) =
      dealer.call peers now draw caller request terms uri payload := by
    simp only [step, handle, reads]
  rcases call_cases dealer peers now draw caller request terms uri payload reads with
    ⟨statistics, rpc, reply, _, answered⟩ | ⟨call, dispatches⟩
  · rw [answer, answered, send_eq, List.drop_left] at member
    simp [← kind_of_outgoing member, kind, Message.Kind.isReply] at reply
  · generalize dealer.call peers now draw caller request terms uri payload = later at dispatches
    cases dispatches with
    | dispatch reads' valid agreed resolved choice any =>
      obtain ⟨-, -, rfl, -⟩ := Rpc.call.inj (Except.ok.inj (reads.symm.trans reads'))
      simp only [Directory.resolve] at resolved
      split at resolved
      · cases resolved
      · rename_i unserved
        obtain ⟨entry, found, _⟩ := Option.map_eq_some_iff.mp resolved
        obtain ⟨⟨id, held⟩, covers⟩ := covers_of_lookup found
        exact ⟨valid, fun offered => by simpa [offered] using unserved, id, entry, held, covers⟩

theorem invokes_of_covered (wellFormed : dealer.directory.WellFormed)
    (draws : ∀ session count, isValidId (peers.requestId session count) = true)
    (reads : Rpc.ofMessage message = .ok (.call request [] uri payload))
    (valid : Uri.isProcedure .exact uri = true)
    (unserved : dealer.options.metaApi = true → MetaProcedure.ofUri? uri = none) {id : Nat}
    {entry : Entry} (held : dealer.directory.entry? id = some entry)
    (covers : entry.pattern.covers uri = true) :
    Invokes peers dealer (.handle now draw caller message) := by
  obtain ⟨other, found⟩ := wellFormed.toConsistent.lookup_exists held covers
  obtain ⟨⟨place, listed⟩, -⟩ := covers_of_lookup found
  obtain ⟨registration, selected, live⟩ := wellFormed.select_exists listed draw
  have resolved : dealer.directory.resolve uri dealer.options.metaApi = some (.entry other) := by
    rw [resolve_of_foreign unserved, found, Option.map_some]
  let plain : Call.Options := { receiveProgress := false, timeout := none, discloseMe := false }
  have agreed : callOptions peers caller [] = .ok plain := rfl
  let chosen : Dealer := { dealer with directory := (dealer.directory.select other draw).2 }
  have choice : dealer.chooseRegistrations other false draw = ([registration], chosen) := by
    simp [chooseRegistrations, selected, chosen]
  have answer : dealer.step peers (.handle now draw caller message) =
      chosen.dispatch peers now caller request uri plain [registration] payload := by
    simp only [step, handle, reads, call, call?, valid, agreed, resolved, bind, Except.bind]
    simp [choice, plain, pure, Except.pure]
  have registered : isValidId registration.id = true :=
    wellFormed.toConsistent.isValidId_of_live live
  have sent : ∃ invocation details, isValidId invocation = true ∧
      invocations peers chosen.options
        (chosen.newCall peers now caller request uri plain [registration]) payload =
      [(registration.session, .invocation invocation registration.id details payload)] :=
    ⟨_, _, draws _ _, rfl⟩
  obtain ⟨invocation, details, drawn, sent⟩ := sent
  have sendable := Rpc.isSendable_invocation drawn registered details payload
  refine ⟨registration.session, (Rpc.invocation invocation registration.id details payload).message,
    some chosen.calls.length, ?_, rfl⟩
  rw [answer, dispatch_eq, sent, mailing_cons, outgoing_eq, if_pos sendable, List.drop_left]
  exact List.mem_cons_self

/--
A call of a reserved URI invokes a session only if a live pattern intrudes on the reserved URIs: one
of the prefixes of `wamp`, or a wildcard pattern whose first segment is open. Any such pattern lets
some reserved call through.
-/
theorem reserved_calls_reach_intruders (peers : Peers) (options : Options)
    (operations : List Operation) :
    let dealer := run peers options operations
    (∀ now draw caller message request terms uri payload,
      Rpc.ofMessage message = .ok (.call request terms uri payload) →
      Uri.isReserved uri = true → Invokes peers dealer (.handle now draw caller message) →
        ∃ id entry, dealer.directory.entries.find? id = some entry ∧
          entry.pattern.covers uri = true ∧ entry.pattern.Intrudes options.metaApi) ∧
    ((∀ before, before <+: operations → (run peers options before).HasIds) →
      (∀ session count, isValidId (peers.requestId session count) = true) →
      ∀ id entry, dealer.directory.entries.find? id = some entry →
        entry.pattern.Intrudes options.metaApi → ∀ now draw caller,
          ∃ message request uri, message.IsValid ∧
            Rpc.ofMessage message = .ok (.call request [] uri .empty) ∧
            Uri.isReserved uri = true ∧
            Invokes peers dealer (.handle now draw caller message)) := by
  intro dealer
  have offers : dealer.options.metaApi = options.metaApi := by
    rw [options_run peers options operations]
  constructor
  · intro now draw caller message request terms uri payload reads reserved invokes
    obtain ⟨valid, unserved, id, entry, held, covers⟩ := covered_of_invokes reads invokes
    rw [offers] at unserved
    exact ⟨id, entry, held, covers,
      (Pattern.intrudes_iff (isOpen_of_run held)).mpr ⟨uri, ⟨reserved, valid, unserved⟩, covers⟩⟩
  · intro room draws id entry held intrudes now draw caller
    obtain ⟨uri, unserved, covers⟩ := (Pattern.intrudes_iff (isOpen_of_run held)).mp intrudes
    have wellFormed := wellFormed_run peers options operations room
    have valid := unserved.valid
    have named : Uri.isValid uri = true := by
      rw [Uri.isProcedure, Bool.and_eq_true] at valid
      exact valid.1
    have reads : Rpc.ofMessage ⟨.call, [.ofNat 1, .dict [], .text uri]⟩ =
        .ok (.call 1 [] uri .empty) := rfl
    refine ⟨_, 1, uri, ?_, reads, unserved.reserved, ?_⟩
    · apply Message.isValid_of_validate
      have typed : Message.Shape.mistyped? [.request, .options, .procedure]
          [.ofNat 1, .dict [], .text uri] = none := by
        simp [Message.Shape.mistyped?, Message.FieldType.accepts, Message.Field.request,
          Message.Field.options, Message.Field.procedure, named, isValidId, maxId]
      exact Rpc.validate_withPayload rfl typed .empty
    · exact invokes_of_covered wellFormed draws reads valid (offers ▸ unserved.unserved) held covers

/-- A session that registers the prefix `wamp` is invoked for a reserved URI. -/
theorem reserved_call_reaches_session :
    let registering : Message :=
      ⟨.register, [.ofNat 1, .dict [(Dict.Key.match_, .text "prefix")], .text "wamp"]⟩
    let calling : Message := ⟨.call, [.ofNat 1, .dict [], .text "wamp.secret"]⟩
    registering.IsValid ∧ calling.IsValid ∧
      Rpc.ofMessage calling = .ok (.call 1 [] "wamp.secret" .empty) ∧
      Uri.isReserved "wamp.secret" = true ∧
      Invokes obliging (run obliging {} [.handle 0 0 1 registering]) (.handle 0 0 2 calling) := by
  intro registering calling
  let details : Dict := [(Dict.Key.procedure, .text "wamp.secret")]
  refine ⟨rfl, rfl, rfl, rfl, 1, ⟨.invocation, [.ofNat 1, .ofNat 2, .dict details]⟩, some 0, ?_, rfl⟩
  decide +kernel

theorem reserved_calls_reach_intruders_of_prefix :
    let operations : List Operation := [.handle 0 0 1
      ⟨.register, [.ofNat 1, .dict [(Dict.Key.match_, .text "prefix")], .text "wam"]⟩]
    let dealer := run obliging {} operations
    (∃ id entry, dealer.directory.entries.find? id = some entry ∧
      entry.pattern.covers "wamp.secret" = true ∧ entry.pattern.Intrudes true) ∧
    ∃ message request uri, message.IsValid ∧
      Rpc.ofMessage message = .ok (.call request [] uri .empty) ∧ Uri.isReserved uri = true ∧
      Invokes obliging dealer (.handle 0 0 2 message) := by
  intro operations dealer
  obtain ⟨only, all⟩ := reserved_calls_reach_intruders obliging {} operations
  let details : Dict := [(Dict.Key.procedure, .text "wamp.secret")]
  have invokes : Invokes obliging dealer
      (.handle 0 0 2 ⟨.call, [.ofNat 1, .dict [], .text "wamp.secret"]⟩) :=
    ⟨1, ⟨.invocation, [.ofNat 1, .ofNat 2, .dict details]⟩, some 0, by decide +kernel, rfl⟩
  refine ⟨only _ _ _ _ 1 [] "wamp.secret" .empty rfl rfl invokes, ?_⟩
  have room : ∀ before, before <+: operations → (run obliging {} before).HasIds := by
    intro before within
    unfold HasIds
    cases before with
    | nil => decide +kernel
    | cons operation rest =>
      obtain ⟨rfl, none⟩ := List.cons_prefix_cons.mp within
      obtain rfl := List.prefix_nil.mp none
      decide +kernel
  have draws (session count : Nat) : isValidId (obliging.requestId session count) = true :=
    isValidId_requestIdAfter count
  have held : dealer.directory.entries.find? 1 =
      some { id := 1, pattern := ⟨.byPrefix, "wam"⟩, invoke := .single, created := 0
             members := [2] } := by
    decide +kernel
  exact all room draws 1 _ held (by simp [Pattern.Intrudes]) 0 0 2

end CallRouter.Dealer
