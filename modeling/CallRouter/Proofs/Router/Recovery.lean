import CallRouter.Proofs.Dealer.Resolution
import CallRouter.Proofs.Router.Roles

namespace CallRouter

open Message.Registry (standard)

theorem Message.Kind.isRequest_iff {kind : Kind} :
    kind.isRequest = true ↔ kind ∈ [Kind.call, .cancel, .register, .unregister] := by
  cases kind <;> decide

theorem Message.fields_of_parse {kind : Kind} {request : Nat} {rest : List Json} {message : Message}
    (reads : standard.parse (.ofNat kind.code :: .ofNat request :: rest) = .ok message) :
    message.kind = kind ∧ message.fields = .ofNat request :: rest := by
  obtain ⟨same, -⟩ := Registry.parse_eq_ok_iff.mp reads
  obtain ⟨code, fields⟩ := List.cons.inj same
  exact ⟨(Kind.eq_of_code code).symm, fields.symm⟩

namespace Router

variable {router : Router} {id : Nat} {session : Session} {raw : List Json} {message : Message}

theorem Reacts.of_malformed {reaction : Reaction} (reacts : Reacts router id session raw reaction)
    {error : ProtocolError} (fails : standard.parse raw = .error error) :
    (∃ kind request, session.state = .established ∧ Message.recover? raw = some (kind, request) ∧
      reaction =
        { disposition := .keepOpen, session := heard session,
          sent := [correction kind request error] }) ∨
    ((session.state = .established → Message.recover? raw = none) ∧
      reaction =
        { disposition := .close, session := closing (heard session),
          sent := [abortion .protocolViolation error.message] }) := by
  cases reacts with
  | correct state also recovered =>
    obtain rfl := Except.error.inj (fails.symm.trans also)
    exact .inl ⟨_, _, state, recovered, rfl⟩
  | abort why =>
    cases why with
    | malformed also unrecovered =>
      obtain rfl := Except.error.inj (fails.symm.trans also)
      exact .inr ⟨unrecovered, rfl⟩
    | realm _ reads | roles _ reads | early _ reads | again _ reads | forbidden _ reads =>
      simp [fails] at reads
  | late _ reads | aborted _ reads | join _ reads | part _ reads | route _ reads =>
    simp [fails] at reads

section Handling

variable {now : Time} {draw : Nat} (settled : router.Settled)
  (known : router.sessions.find? id = some session)

include settled known

theorem corrects_handle (state : session.state = .established) {error : ProtocolError}
    (fails : standard.parse raw = .error error) {kind : Message.Kind} {request : Nat}
    (recovered : Message.recover? raw = some (kind, request)) :
    let answer := router.handle now draw id raw
    answer.1 = .keepOpen ∧
      (∃ after, answer.2.sessions.find? id = some after ∧ after.state = .established) ∧
      answer.2.dealer = router.dealer ∧
      Effect.messages answer.2.effects =
        Effect.messages router.effects ++ [(id, correction kind request error)] := by
  intro answer
  obtain ⟨reaction, reacts, disposition, found, becomes⟩ := reacts_handle settled known now draw raw
  rcases reacts.of_malformed fails with ⟨_, _, _, same, rfl⟩ | ⟨unrecovered, -⟩
  · obtain ⟨rfl, rfl⟩ := Prod.mk.inj (Option.some.inj (recovered.symm.trans same))
    exact ⟨disposition, ⟨_, found, state⟩, becomes.quiet settled⟩
  · simp [unrecovered state] at recovered

theorem ends_handle {error : ProtocolError} (fails : standard.parse raw = .error error)
    (unrecovered : Message.recover? raw = none) :
    let answer := router.handle now draw id raw
    answer.1 = .close ∧
      (∃ after, answer.2.sessions.find? id = some after ∧ after.state = .closing) ∧
      answer.2.dealer = router.dealer ∧
      Effect.messages answer.2.effects =
        Effect.messages router.effects ++ [(id, abortion .protocolViolation error.message)] := by
  intro answer
  obtain ⟨reaction, reacts, disposition, found, becomes⟩ := reacts_handle settled known now draw raw
  rcases reacts.of_malformed fails with ⟨_, _, _, recovered, -⟩ | ⟨-, rfl⟩
  · simp [unrecovered] at recovered
  · exact ⟨disposition, ⟨_, found, rfl⟩, becomes.quiet settled⟩

theorem routes_handle (ids : router.dealer.ValidIds) (state : session.state = .established)
    (reads : standard.parse raw = .ok message) (kind : message.kind ∉ [.abort, .hello, .goodbye])
    (allowed : allows session message.kind = true) :
    let answer := router.handle now draw id raw
    answer.1 = .keepOpen ∧
      (∃ after, answer.2.sessions.find? id = some after ∧ after.state = .established) ∧
      Effect.messages answer.2.effects = Effect.messages router.effects ++
        (router.dealer.attempts router.peers (.handle now draw id message)).map
          fun attempt => (attempt.1, attempt.2.message) := by
  intro answer
  obtain ⟨reaction, reacts, disposition, found, -⟩ := reacts_handle settled known now draw raw
  obtain ⟨replied, routed⟩ := replies_of_reacts reacts
  have reacted := reacts.of_established state reads kind
  rw [if_pos allowed] at reacted
  subst reacted
  have attempted : router.attempts (.handle now draw id raw) =
      (router.dealer.attempts router.peers (.handle now draw id message)).map
        fun attempt => (attempt.1, attempt.2.message) := by
    simp [attempts, work, ownAttempts, known, replied, routed, Dealer.workAttempts]
  have sends := sends_step settled ids (.handle now draw id raw)
  rw [attempted] at sends
  exact ⟨disposition, ⟨_, found, state⟩, sends.sent⟩

end Handling

section Runs

variable {identity : Identity} {options : Dealer.Options} {metrics : Option Metrics}
  {operations : List Operation} {kind : Message.Kind}

theorem allows_request
    (known : (run identity options metrics operations).sessions.find? id = some session)
    (caller : Announced identity options metrics operations id .caller)
    (callee : Announced identity options metrics operations id .callee)
    (asks : kind ∈ [.call, .cancel, .register, .unregister]) : allows session kind = true := by
  have flow : ∃ flow ∈ (Message.Shape.standard kind).flows,
      flow.source = .caller ∨ flow.source = .callee := by
    cases kind <;> simp [Message.Shape.standard, Message.Shape.fromCaller, Message.Shape.fromCallee]
      at asks ⊢
  obtain ⟨flow, among, source⟩ := flow
  refine (allows_iff_announced known kind).mpr ⟨flow, among, ?_⟩
  rcases source with same | same
  · exact same ▸ caller
  · exact same ▸ callee

end Runs

/--
A request never costs its session. If a session that joined as a caller and as a callee sends a
message that begins with the code of a request and a valid id, however it goes on, then the session
goes on too. A malformed one is answered with an ERROR and does nothing else; any other one is
granted, denied or passed on. A malformed message that does not begin like that is answered with an
ABORT and ends the session, in whatever state that is.
-/
theorem requests_never_cost_the_session (identity : Identity) (options : Dealer.Options)
    (metrics : Option Metrics) (operations : List Operation) (id : Nat) (session : Session)
    (known : (run identity options metrics operations).sessions.find? id = some session) :
    let router := run identity options metrics operations
    let announced := Announced identity options metrics operations id
    let requests : List Message.Kind := [.call, .cancel, .register, .unregister]
    (session.state = .established → announced .caller → announced .callee →
      ∀ kind ∈ requests, ∀ request, isValidId request = true → ∀ now draw rest,
        let raw := .ofNat kind.code :: .ofNat request :: rest
        let answer := router.handle now draw id raw
        answer.1 = .keepOpen ∧
        (∃ after, answer.2.sessions.find? id = some after ∧ after.state = .established) ∧
        (∀ error, standard.parse raw = .error error → answer.2.dealer = router.dealer ∧
          Effect.messages answer.2.effects =
            Effect.messages router.effects ++ [(id, correction kind request error)]) ∧
        ∀ message, standard.parse raw = .ok message →
          ∃ sent, Dealer.Resolves id request kind sent ∧
            Effect.messages answer.2.effects = Effect.messages router.effects ++
              sent.map fun attempt => (attempt.1, attempt.2.message)) ∧
    ∀ raw error, standard.parse raw = .error error →
      (∀ kind ∈ requests, ∀ request rest, isValidId request = true →
        raw ≠ .ofNat kind.code :: .ofNat request :: rest) →
      ∀ now draw,
        let answer := router.handle now draw id raw
        answer.1 = .close ∧
        (∃ after, answer.2.sessions.find? id = some after ∧ after.state = .closing) ∧
        answer.2.dealer = router.dealer ∧
        Effect.messages answer.2.effects =
          Effect.messages router.effects ++ [(id, abortion .protocolViolation error.message)] := by
  intro router announced requests
  have settled : router.Settled := settled_run identity options metrics operations
  have ids : router.dealer.ValidIds := validIds_run identity options metrics operations
  constructor
  · intro state caller callee kind asks request numbered now draw rest raw answer
    have isRequest : kind.isRequest = true := Message.Kind.isRequest_iff.mpr asks
    cases reads : standard.parse raw with
    | error error =>
      have recovered : Message.recover? raw = some (kind, request) :=
        Message.recover?_eq_some_iff.mpr ⟨isRequest, numbered, rest, rfl⟩
      obtain ⟨disposition, goesOn, corrected⟩ := corrects_handle settled known state reads recovered
      refine ⟨disposition, goesOn, fun other also => ?_, nofun⟩
      exact Except.error.inj also ▸ corrected
    | ok message =>
      obtain ⟨rfl, fields⟩ := Message.fields_of_parse reads
      have routed : message.kind ∉ [.abort, .hello, .goodbye] := by
        cases kind : message.kind <;> simp [requests, kind] at asks ⊢
      have allowed := allows_request known caller callee asks
      obtain ⟨disposition, goesOn, sent⟩ :=
        routes_handle settled known ids state reads routed allowed
      have resolves : Dealer.Resolves id request message.kind
          (router.dealer.attempts router.peers (.handle now draw id message)) :=
        Dealer.resolves_attempts (Message.isValid_of_parse reads) isRequest fields
      refine ⟨disposition, goesOn, nofun, fun other also => ?_⟩
      obtain rfl := Except.ok.inj also
      exact ⟨_, resolves, sent⟩
  · intro raw error fails unlike now draw
    refine ends_handle settled known fails (Option.eq_none_iff_forall_ne_some.mpr ?_)
    rintro ⟨kind, request⟩ recovered
    obtain ⟨isRequest, numbered, rest, same⟩ := Message.recover?_eq_some_iff.mp recovered
    exact unlike kind (Message.Kind.isRequest_iff.mp isRequest) request rest numbered same

theorem requests_never_cost_the_session_of_mistakes :
    let roles : Json := .dict [("caller", .dict []), ("callee", .dict [])]
    let operations : List Operation :=
      [.connect 1, .handle 0 0 1 [.ofNat 1, .text "realm1", .dict [("roles", roles)]]]
    let router := run {} {} none operations
    let corrected := router.handle 0 0 1 [.ofNat 48, .ofNat 7, .text "oops"]
    let ended := router.handle 0 0 1 [.text "oops"]
    corrected.1 = .keepOpen ∧ corrected.2.dealer = router.dealer ∧
      (∃ error, Effect.messages corrected.2.effects =
        Effect.messages router.effects ++ [(1, correction .call 7 error)]) ∧
      ended.1 = .close ∧ ended.2.dealer = router.dealer ∧
      ∃ text, Effect.messages ended.2.effects =
        Effect.messages router.effects ++ [(1, abortion .protocolViolation text)] := by
  intro roles operations
  dsimp only
  let session : Session :=
    { state := .established, realm := some "realm1", roles := [(.caller, []), (.callee, [])],
      messages := 1 }
  have known : (run {} {} none operations).sessions.find? 1 = some session := by decide +kernel
  have announced (role : Role) (has : session.hasRole role = true) :
      Announced {} {} none operations 1 role := (hasRole_iff_announced known role).mp has
  obtain ⟨requests, others⟩ := requests_never_cost_the_session {} {} none operations 1 session known
  obtain ⟨error, fails⟩ : ∃ error, standard.parse [.ofNat 48, .ofNat 7, .text "oops"] =
      .error error := ⟨_, rfl⟩
  obtain ⟨other, unread⟩ : ∃ error, standard.parse [.text "oops"] = .error error := ⟨_, rfl⟩
  obtain ⟨goesOn, -, malformed, -⟩ := requests rfl (announced .caller rfl) (announced .callee rfl)
    .call (by simp) 7 (by decide) 0 0 [.text "oops"]
  obtain ⟨same, sent⟩ := malformed error fails
  obtain ⟨closed, -, also, abort⟩ := others [.text "oops"] other unread (by simp) 0 0
  exact ⟨goesOn, same, ⟨error, sent⟩, closed, also, _, abort⟩

end Router

end CallRouter
