import CallRouter.Proofs.Router.Run

/-!
What the router does with the values that a session sends: how the session goes on, which message
the dealer gets to handle, and what the router itself sends. All of it depends on the state of the
session.
-/

namespace CallRouter

namespace Message

theorem recover?_eq_some_iff {raw : List Json} {kind : Kind} {request : Nat} :
    recover? raw = some (kind, request) ↔ kind.isRequest = true ∧ isValidId request = true ∧
      ∃ rest, raw = .ofNat kind.code :: .ofNat request :: rest := by
  constructor
  · intro recovered
    obtain _ | ⟨code, _ | ⟨number, rest⟩⟩ := raw
    · cases recovered
    · cases recovered
    · obtain ⟨known, typed, recovered⟩ := Option.bind_eq_some_iff.mp recovered
      obtain ⟨n, first, coded⟩ := Option.bind_eq_some_iff.mp typed
      obtain ⟨id, second, recovered⟩ := Option.bind_eq_some_iff.mp recovered
      split at recovered
      · rename_i both
        obtain ⟨valid, asks⟩ := (Bool.and_eq_true _ _).mp both
        obtain ⟨rfl, rfl⟩ := Prod.mk.inj (Option.some.inj recovered)
        rw [Json.nat?_eq_some_iff.mp first, Json.nat?_eq_some_iff.mp second,
          ← Kind.code_of_ofCode? coded]
        exact ⟨asks, valid, rest, rfl⟩
      · cases recovered
  · rintro ⟨asks, valid, rest, rfl⟩
    simp [recover?, Kind.ofCode?_code, asks, valid]

theorem IsValid.hello {message : Message} (valid : message.IsValid) (kind : message.kind = .hello) :
    ∃ realm details, message = ⟨.hello, [.text realm, .dict details]⟩ := by
  obtain ⟨found, fields⟩ := message
  obtain rfl : found = .hello := kind
  obtain _ | ⟨front, _ | ⟨back, ⟨⟩⟩⟩ := Shape.fits_of_admits valid.admits
  obtain ⟨realm, rfl⟩ := FieldType.eq_of_accepts_uri front
  obtain ⟨details, rfl⟩ := FieldType.eq_of_accepts_dict back
  exact ⟨realm, details, rfl⟩

end Message

namespace Dealer

theorem clear_of_settled {dealer : Dealer} (settled : dealer.effects = []) :
    { dealer with effects := [] } = dealer := by
  conv => lhs; rw [← settled]

theorem checkTimeouts_eq (dealer : Dealer) (peers : Peers) (now : Time) :
    (dealer.checkTimeouts peers now).2 =
      (dealer.awaited.map (.checkTimeout now)).foldl (step peers) dealer := by
  unfold checkTimeouts
  generalize 0 = count
  generalize dealer.awaited = sessions
  induction sessions generalizing dealer count with
  | nil => rfl
  | cons session sessions ih => exact ih _ _

theorem isFatal_of_handle {dealer : Dealer} {peers : Peers} {now : Time} {draw session : Nat}
    {message : Message} {refusal : Refusal}
    (fromClient : (Message.Shape.standard message.kind).clientMaySend = true)
    (refused : dealer.handle peers now draw session message = .error refusal) :
    refusal.isFatal = false := by
  unfold handle at refused
  cases reads : Rpc.ofMessage message with
  | error error =>
    simp only [reads] at refused
    obtain rfl := Except.error.inj refused
    rfl
  | ok rpc =>
    have kind := Rpc.kind_of_ofMessage reads
    simp only [reads] at refused
    cases rpc with
    | registered | unregistered | result | invocation | interrupt =>
      rw [← kind] at fromClient
      cases fromClient
    | yield invocation options payload =>
      simp only at refused
      split at refused <;> cases refused
    | error type invocation details error payload => cases type <;> cases refused
    | _ => cases refused

end Dealer

namespace Router

open Message.Registry (standard)

def abortion (reason : ErrorUri) (text : String) : Message :=
  ⟨.abort, [.dict [(Dict.Key.message, .text text)], .text reason.uri]⟩

def correction (kind : Message.Kind) (request : Nat) (error : ProtocolError) : Message :=
  ⟨.error, [.ofNat kind.code, .ofNat request, .dict [], .text ErrorUri.invalidArgument.uri,
    .list [.text error.message]]⟩

def welcome (router : Router) (id : Nat) : Message :=
  ⟨.welcome, [.ofNat id, .dict router.welcomeDetails]⟩

def leave : Message := ⟨.goodbye, [.dict [], .text ErrorUri.goodbyeAndOut.uri]⟩

theorem isOutbound_of_fields {kind : Message.Kind} {fields : List Json}
    (variant : List Message.Field) (listed : variant ∈ (Message.Shape.standard kind).variants)
    (length : variant.length = fields.length)
    (typed : Message.Shape.mistyped? variant fields = none)
    (flow : (Message.Shape.standard kind).routerMaySend = true) :
    Message.IsOutbound ⟨kind, fields⟩ where
  valid := Message.isValid_of_validate
    ((Message.Shape.validate_eq_ok_iff _ _).mpr ⟨variant, listed, length, typed⟩)
  flow := flow

theorem isOutbound_reason (error : ErrorUri) {kind : Message.Kind} (details : Dict)
    (ending : kind = .abort ∨ kind = .goodbye) :
    Message.IsOutbound ⟨kind, [.dict details, .text error.uri]⟩ := by
  have typed :
      Message.Shape.mistyped? [.details, .reason] [.dict details, .text error.uri] = none := by
    simp [Message.Shape.mistyped?, Message.FieldType.accepts, Message.Field.details,
      Message.Field.reason, error.isValid_uri]
  rcases ending with rfl | rfl <;>
    exact isOutbound_of_fields _ (by simp [Message.Shape.standard]) rfl typed rfl

theorem isOutbound_abortion (reason : ErrorUri) (text : String) :
    (abortion reason text).IsOutbound := isOutbound_reason reason _ (.inl rfl)

theorem isOutbound_leave : leave.IsOutbound := isOutbound_reason .goodbyeAndOut [] (.inr rfl)

theorem isOutbound_farewell : Message.IsOutbound ⟨.goodbye, farewell⟩ :=
  isOutbound_reason .systemShutdown _ (.inr rfl)

theorem isOutbound_correction {request : Nat} (valid : isValidId request = true)
    (kind : Message.Kind) (error : ProtocolError) : (correction kind request error).IsOutbound :=
  Rpc.isOutbound_of_isSendable
    (Rpc.isSendable_error valid ErrorUri.invalidArgument.isValid_uri kind []
      (.ofArgs [.text error.message])) rfl

theorem isOutbound_welcome (router : Router) {id : Nat} (valid : isValidId id = true) :
    (router.welcome id).IsOutbound := by
  refine isOutbound_of_fields [.session, .details] ?_ rfl ?_ rfl
  · simp [Message.Shape.standard]
  · simp [Message.Shape.mistyped?, Message.FieldType.accepts, Message.Field.session,
      Message.Field.details, valid]

theorem allows_eq_true_iff {session : Session} {kind : Message.Kind} :
    allows session kind = true ↔ ∃ flow ∈ (Message.Shape.standard kind).flows,
      flow.source.isRouter = false ∧ session.hasRole flow.source = true := by
  simp [allows, Message.Registry.shape?_standard]

theorem clientMaySend_of_allows {session : Session} {kind : Message.Kind}
    (allowed : allows session kind = true) :
    (Message.Shape.standard kind).clientMaySend = true := by
  obtain ⟨flow, member, client, -⟩ := allows_eq_true_iff.mp allowed
  exact List.any_eq_true.mpr ⟨flow, member, by simp [client]⟩

inductive Aborts (router : Router) (session : Session) (raw : List Json) :
    ErrorUri → String → Prop
  | malformed {error : ProtocolError} (fails : standard.parse raw = .error error)
      (unrecovered : session.state = .established → Message.recover? raw = none) :
      Aborts router session raw .protocolViolation error.message
  | realm {message : Message} (state : session.state = .establishing)
      (reads : standard.parse raw = .ok message) (kind : message.kind = .hello)
      (other : (message.text? 0).getD "" ≠ router.identity.realm) :
      Aborts router session raw .noSuchRealm
        ("no such realm: " ++ (message.text? 0).getD "")
  | roles {message : Message} (state : session.state = .establishing)
      (reads : standard.parse raw = .ok message) (kind : message.kind = .hello)
      (realm : (message.text? 0).getD "" = router.identity.realm)
      (none : Announcement.ofDetails ((message.dict? 1).getD []) = []) :
      Aborts router session raw .protocolViolation "HELLO announces no client role"
  | early {message : Message} (state : session.state = .establishing)
      (reads : standard.parse raw = .ok message) (kind : message.kind ≠ .hello)
      (stays : message.kind ≠ .abort) :
      Aborts router session raw .protocolViolation ("expected HELLO, got " ++ message.kind.name)
  | again {message : Message} (state : session.state = .established)
      (reads : standard.parse raw = .ok message) (kind : message.kind = .hello) :
      Aborts router session raw .protocolViolation "HELLO on an established session"
  | forbidden {message : Message} (state : session.state = .established)
      (reads : standard.parse raw = .ok message) (kind : message.kind ∉ [.abort, .hello, .goodbye])
      (disallowed : allows session message.kind = false) :
      Aborts router session raw .protocolViolation
        (message.kind.name ++ " not allowed for roles [" ++ roleTitles session ++ "]")

structure Reaction where
  disposition : Disposition
  session : Session
  routed : Option Message := none
  sent : List Message := []

def closing (session : Session) : Session := { session with state := .closing }

def heard (session : Session) : Session := { session with messages := session.messages + 1 }

@[simp] theorem state_heard (session : Session) : (heard session).state = session.state := rfl

inductive Reacts (router : Router) (id : Nat) (session : Session) (raw : List Json) :
    Reaction → Prop
  | correct {error : ProtocolError} {kind : Message.Kind} {request : Nat}
      (state : session.state = .established) (fails : standard.parse raw = .error error)
      (recovered : Message.recover? raw = some (kind, request)) :
      Reacts router id session raw
        { disposition := .keepOpen, session := heard session,
          sent := [correction kind request error] }
  | abort {reason : ErrorUri} {text : String} (why : router.Aborts session raw reason text) :
      Reacts router id session raw
        { disposition := .close, session := closing (heard session),
          sent := [abortion reason text] }
  | late {message : Message} (state : session.state = .closing)
      (reads : standard.parse raw = .ok message) :
      Reacts router id session raw { disposition := .close, session := heard session }
  | aborted {message : Message} (state : session.state ≠ .closing)
      (reads : standard.parse raw = .ok message) (kind : message.kind = .abort) :
      Reacts router id session raw { disposition := .close, session := closing (heard session) }
  | join {details : Dict} (state : session.state = .establishing)
      (reads : standard.parse raw = .ok ⟨.hello, [.text router.identity.realm, .dict details]⟩)
      (some : Announcement.ofDetails details ≠ []) :
      Reacts router id session raw
        { disposition := .keepOpen
          session := (heard session).join router.identity.realm (Announcement.ofDetails details)
          sent := [router.welcome id] }
  | part {message : Message} (state : session.state = .established)
      (reads : standard.parse raw = .ok message) (kind : message.kind = .goodbye) :
      Reacts router id session raw
        { disposition := .close, session := closing (heard session),
          sent := if message.text? 1 = Option.some ErrorUri.goodbyeAndOut.uri then [] else [leave] }
  | route {message : Message} (state : session.state = .established)
      (reads : standard.parse raw = .ok message) (kind : message.kind ∉ [.abort, .hello, .goodbye])
      (allowed : allows session message.kind = true) :
      Reacts router id session raw
        { disposition := .keepOpen, session := heard session, routed := message }

structure Becomes (router : Router) (sessions : Nat → Option Session)
    (work : List Dealer.Operation) (sent : List (Nat × Message)) (later : Router) : Prop where
  identity : later.identity = router.identity
  sessions : later.sessions.find? = sessions
  dealer : later.dealer = { work.foldl (Dealer.step router.peers) router.dealer with effects := [] }
  effects : later.effects = router.effects ++
    (work.foldl (Dealer.step router.peers) router.dealer).effects ++
      sent.map fun message => .send message.1 message.2 none

variable {router later : Router} {id : Nat} {session : Session} {raw : List Json}

theorem becomes_quiet {sessions : Nat → Option Session} {sent : List (Nat × Message)}
    (settled : router.dealer.effects = []) (identity : later.identity = router.identity)
    (known : later.sessions.find? = sessions) (dealer : later.dealer = router.dealer)
    (effects : later.effects = router.effects ++
      sent.map fun message => .send message.1 message.2 none) :
    router.Becomes sessions [] sent later where
  identity := identity
  sessions := known
  dealer := by rw [dealer, List.foldl_nil, Dealer.clear_of_settled settled]
  effects := by rw [effects, List.foldl_nil, settled, List.append_nil]

theorem abort_eq (router : Router) (id : Nat) (session : Session) (reason : ErrorUri)
    (text : String) :
    router.abort id session reason text =
      (.close, { router.measure (·.increment .errors reason.uri) with
        effects := router.effects ++ [Effect.send id (abortion reason text) none] }.setSession id
          (closing session)) :=
  congrArg (fun router : Router => (Disposition.close, router.setSession id (closing session)))
    (send_of_isValid _ id (isOutbound_abortion reason text).valid)

def Answers (router : Router) (now : Time) (draw id : Nat) (session : Session) (raw : List Json)
    (answer : Disposition × Router) : Prop :=
  ∃ reaction, Reacts router id session raw reaction ∧ answer.1 = reaction.disposition ∧
    router.Becomes (Function.update router.sessions.find? id (some reaction.session))
      (reaction.routed.toList.map (.handle now draw id)) (reaction.sent.map (id, ·)) answer.2

section Handling

variable {now : Time} {draw : Nat} (settled : router.dealer.effects = [])

include settled

theorem answers_abort {reason : ErrorUri} {text : String}
    (why : router.Aborts session raw reason text) :
    router.Answers now draw id session raw
      ((router.setSession id (heard session)).abort id (heard session) reason text) := by
  refine ⟨_, .abort why, by rw [abort_eq], ?_⟩
  rw [abort_eq]
  exact becomes_quiet settled rfl (by simp) rfl rfl

theorem answers_reject {error : ProtocolError} (fails : standard.parse raw = .error error) :
    router.Answers now draw id session raw
      ((router.setSession id (heard session)).reject id (heard session) (Message.recover? raw)
        error) := by
  have aborted (unrecovered : session.state = .established → Message.recover? raw = none) :
      router.Answers now draw id session raw _ :=
    answers_abort settled (.malformed fails unrecovered)
  cases state : session.state with
  | established =>
    cases recovered : Message.recover? raw with
    | none =>
      simp only [reject, state_heard, state]
      exact aborted fun _ => recovered
    | some request =>
      obtain ⟨kind, request⟩ := request
      obtain ⟨-, valid, -⟩ := Message.recover?_eq_some_iff.mp recovered
      have outbound := isOutbound_correction valid kind error
      simp only [reject, state_heard, state]
      refine ⟨_, .correct state fails recovered, rfl, ?_⟩
      rw [send_of_isValid _ id outbound.valid]
      exact becomes_quiet settled rfl (by simp) rfl rfl
  | establishing =>
    simp only [reject, state_heard, state]
    exact aborted (by simp [state])
  | closing =>
    simp only [reject, state_heard, state]
    exact aborted (by simp [state])

theorem answers_hello {message : Message} (valid : isValidId id = true)
    (state : session.state = .establishing) (reads : standard.parse raw = .ok message)
    (kind : message.kind = .hello) :
    router.Answers now draw id session raw
      ((router.setSession id (heard session)).hello id (heard session) message) := by
  obtain ⟨realm, details, rfl⟩ := (Message.isValid_of_parse reads).hello kind
  by_cases same : realm = router.identity.realm
  · subst same
    by_cases none : Announcement.ofDetails details = []
    · have refused : router.Answers now draw id session raw _ :=
        answers_abort settled (.roles state reads kind rfl none)
      simpa [hello, Message.text?, Message.dict?, Message.field?, Json.text?, Json.dict?, none]
        using refused
    · let joined := ((router.setSession id (heard session)).setSession id
        ((heard session).join router.identity.realm (Announcement.ofDetails details))).measure
          (·.increment .sessionsActive "")
      have welcoming : (router.setSession id (heard session)).hello id (heard session)
          ⟨.hello, [.text router.identity.realm, .dict details]⟩ =
            (.keepOpen, joined.send id .welcome [.ofNat id, .dict router.welcomeDetails]) := by
        simp [hello, Message.text?, Message.dict?, Message.field?, Json.text?, Json.dict?, none]
        rfl
      rw [welcoming, send_of_isValid joined id (isOutbound_welcome router valid).valid]
      exact ⟨_, .join state reads none, rfl, becomes_quiet settled rfl (by simp [joined]) rfl rfl⟩
  · have refused : router.Answers now draw id session raw _ :=
      answers_abort settled (.realm state reads kind same)
    simpa [hello, Message.text?, Message.field?, Json.text?, same] using refused

theorem answers_goodbye {message : Message}
    (state : session.state = .established) (reads : standard.parse raw = .ok message)
    (kind : message.kind = .goodbye) :
    router.Answers now draw id session raw
      ((router.setSession id (heard session)).goodbye id (heard session) message) := by
  refine ⟨_, .part state reads kind, rfl, ?_⟩
  unfold goodbye
  by_cases answer : message.text? 1 = some ErrorUri.goodbyeAndOut.uri
  · simp only [if_pos answer]
    exact becomes_quiet settled rfl (by simp; rfl) rfl (by simp)
  · simp only [if_neg answer]
    rw [send_of_isValid _ id isOutbound_leave.valid]
    exact becomes_quiet settled rfl (by simp; rfl) rfl rfl

theorem answers_route {message : Message} (known : router.sessions.find? id = some session)
    (state : session.state = .established) (reads : standard.parse raw = .ok message)
    (kind : message.kind ∉ [.abort, .hello, .goodbye]) :
    router.Answers now draw id session raw
      ((router.setSession id (heard session)).route now draw id (heard session) message) := by
  have same : (router.setSession id (heard session)).peers = router.peers :=
    peers_setSession _ _ _ known rfl
  cases allowed : allows session message.kind with
  | false =>
    have disallowed : allows (heard session) message.kind = false := allowed
    simp only [route, disallowed]
    exact answers_abort settled (.forbidden state reads kind allowed)
  | true =>
    have allows : allows (heard session) message.kind = true := allowed
    simp only [route, allows, same, dealer_setSession]
    cases handled : router.dealer.handle router.peers now draw id message with
    | ok dealer =>
      have stepped : router.dealer.step router.peers (.handle now draw id message) = dealer := by
        rw [Dealer.step, handled]
      refine ⟨_, .route state reads kind allowed, rfl, ?_⟩
      constructor
      · simp
      · simp
      · simp [stepped]
      · simp [stepped]
    | error refusal =>
      have spared := Dealer.isFatal_of_handle (clientMaySend_of_allows allowed) handled
      have stepped : router.dealer.step router.peers (.handle now draw id message) =
          router.dealer := by rw [Dealer.step, handled]
      simp only [spared]
      refine ⟨_, .route state reads kind allowed, rfl, ?_⟩
      constructor
      · simp
      · simp
      · simp [stepped, Dealer.clear_of_settled settled]
      · simp [stepped, settled]

end Handling

theorem Becomes.counted {sessions : Nat → Option Session} {work : List Dealer.Operation}
    {sent : List (Nat × Message)} (becomes : router.Becomes sessions work sent later)
    (change : Metrics → Metrics) :
    router.Becomes sessions work sent (later.measure change).gauge :=
  ⟨becomes.identity, becomes.sessions, becomes.dealer, becomes.effects⟩

theorem answers_dispatch (settled : router.dealer.effects = []) {message : Message}
    (valid : isValidId id = true) (known : router.sessions.find? id = some session)
    (reads : standard.parse raw = .ok message) (now : Time) (draw : Nat) :
    router.Answers now draw id session raw
      ((router.setSession id (heard session)).dispatch now draw id (heard session) message) := by
  have aborted (state : session.state ≠ .closing) (kind : message.kind = .abort) :
      router.Answers now draw id session raw
        (.close, (router.setSession id (heard session)).setSession id (closing (heard session))) :=
    ⟨_, .aborted state reads kind, rfl, becomes_quiet settled rfl (by simp) rfl (by simp)⟩
  cases state : session.state with
  | closing =>
    simp only [dispatch, state_heard, state]
    exact ⟨_, .late state reads, rfl, becomes_quiet settled rfl (by simp) rfl (by simp)⟩
  | establishing =>
    cases kind : message.kind with
    | abort =>
      simp only [dispatch, state_heard, state, kind]
      exact aborted (by simp [state]) kind
    | hello =>
      simp only [dispatch, state_heard, state, kind]
      exact answers_hello settled valid state reads kind
    | _ =>
      have early : router.Answers now draw id session raw _ :=
        answers_abort settled (.early state reads (by simp [kind]) (by simp [kind]))
      simpa only [dispatch, state_heard, state, kind] using early
  | established =>
    cases kind : message.kind with
    | abort =>
      simp only [dispatch, state_heard, state, kind]
      exact aborted (by simp [state]) kind
    | hello =>
      simp only [dispatch, state_heard, state, kind]
      exact answers_abort settled (.again state reads kind)
    | goodbye =>
      simp only [dispatch, state_heard, state, kind]
      exact answers_goodbye settled state reads kind
    | _ =>
      simp only [dispatch, state_heard, state, kind]
      exact answers_route settled known state reads (by simp [kind])

theorem answers_handle (settled : router.dealer.effects = []) (valid : isValidId id = true)
    (known : router.sessions.find? id = some session) (now : Time) (draw : Nat)
    (raw : List Json) :
    router.Answers now draw id session raw (router.handle now draw id raw) := by
  unfold handle
  simp only [known]
  cases parsed : standard.parse raw with
  | error error => exact answers_reject settled parsed
  | ok message =>
    obtain ⟨reaction, reacts, disposition, becomes⟩ :=
      answers_dispatch settled valid known parsed now draw
    exact ⟨reaction, reacts, disposition, becomes.counted _⟩

def Idle (router : Router) : Operation → Prop
  | .connect id => isValidId id = false ∨ router.sessions.find? id ≠ none
  | .handle _ _ id _ | .rejectBytes id _ => router.sessions.find? id = none
  | .farewell id =>
    ∀ session, router.sessions.find? id = some session → session.state ≠ .established
  | .sweep _ | .closeSession _ => False

inductive Acts (router : Router) : Operation → (Nat → Option Session) → List Dealer.Operation →
    List (Nat × Message) → Prop
  | idle {operation : Operation} (idle : router.Idle operation) :
      Acts router operation router.sessions.find? [] []
  | connect {id : Nat} (valid : isValidId id = true) (new : router.sessions.find? id = none) :
      Acts router (.connect id) (Function.update router.sessions.find? id (some {})) [] []
  | handle {now : Time} {draw id : Nat} {raw : List Json} {session : Session} {reaction : Reaction}
      (known : router.sessions.find? id = some session)
      (reacts : Reacts router id session raw reaction) :
      Acts router (.handle now draw id raw)
        (Function.update router.sessions.find? id (some reaction.session))
        (reaction.routed.toList.map (.handle now draw id)) (reaction.sent.map (id, ·))
  | rejectBytes {id : Nat} {error : ProtocolError} {session : Session}
      (known : router.sessions.find? id = some session) :
      Acts router (.rejectBytes id error)
        (Function.update router.sessions.find? id (some (closing session))) []
        [(id, abortion .protocolViolation error.message)]
  | sweep {now : Time} :
      Acts router (.sweep now) router.sessions.find?
        (router.dealer.awaited.map (.checkTimeout now)) []
  | farewell {id : Nat} {session : Session} (known : router.sessions.find? id = some session)
      (state : session.state = .established) :
      Acts router (.farewell id) router.sessions.find? [] [(id, ⟨.goodbye, farewell⟩)]
  | closeSession {id : Nat} :
      Acts router (.closeSession id) router.sessions.find? [.closeSession id] []

/-- Sessions have valid ids, and nothing that the dealer wants to send is left with it. -/
structure Settled (router : Router) : Prop where
  effects : router.dealer.effects = []
  ids : ∀ id session, router.sessions.find? id = some session → isValidId id = true

theorem reacts_handle (settled : router.Settled) (known : router.sessions.find? id = some session)
    (now : Time) (draw : Nat) (raw : List Json) :
    ∃ reaction, Reacts router id session raw reaction ∧
      (router.handle now draw id raw).1 = reaction.disposition ∧
      (router.handle now draw id raw).2.sessions.find? id = some reaction.session ∧
      router.Becomes (Function.update router.sessions.find? id (some reaction.session))
        (reaction.routed.toList.map (.handle now draw id)) (reaction.sent.map (id, ·))
        (router.handle now draw id raw).2 := by
  obtain ⟨reaction, reacts, disposition, becomes⟩ :=
    answers_handle settled.effects (settled.ids id session known) known now draw raw
  refine ⟨reaction, reacts, disposition, ?_, becomes⟩
  rw [becomes.sessions, Function.update_self]

theorem becomes_idle (settled : router.dealer.effects = []) :
    router.Becomes router.sessions.find? [] [] router :=
  becomes_quiet settled rfl rfl rfl (by simp)

theorem acts_connect (settled : router.Settled) (id : Nat) : ∃ sessions work sent,
    router.Acts (.connect id) sessions work sent ∧
      router.Becomes sessions work sent (router.step (.connect id)) := by
  cases open_ : isValidId id && !router.sessions.contains id with
  | false =>
    refine ⟨_, _, _, .idle ?_, ?_⟩
    · simpa [Idle, Keyed.contains, Option.isSome_iff_ne_none, Decidable.imp_iff_not_or] using open_
    · simp only [step, open_]
      exact becomes_idle settled.effects
  | true =>
    simp only [Bool.and_eq_true, Bool.not_eq_true', Keyed.contains, Option.isSome_eq_false_iff,
      Option.isNone_iff_eq_none] at open_
    refine ⟨_, _, _, .connect open_.1 open_.2, ?_⟩
    simp only [step, open_, Keyed.contains]
    exact becomes_quiet settled.effects rfl (by simp [openSession]) rfl (by simp [openSession])

theorem step_acts (settled : router.Settled) (operation : Operation) : ∃ sessions work sent,
    router.Acts operation sessions work sent ∧
      router.Becomes sessions work sent (router.step operation) := by
  cases operation with
  | connect id => exact acts_connect settled id
  | handle now draw id raw =>
    cases known : router.sessions.find? id with
    | none =>
      refine ⟨_, _, _, .idle known, ?_⟩
      simp only [step, handle, known]
      exact becomes_idle settled.effects
    | some session =>
      obtain ⟨reaction, reacts, -, -, becomes⟩ := reacts_handle settled known now draw raw
      exact ⟨_, _, _, .handle known reacts, becomes⟩
  | rejectBytes id error =>
    cases known : router.sessions.find? id with
    | none =>
      refine ⟨_, _, _, .idle known, ?_⟩
      simp only [step, rejectBytes, known]
      exact becomes_idle settled.effects
    | some session =>
      refine ⟨_, _, _, .rejectBytes known, ?_⟩
      simp only [step, rejectBytes, known, abort_eq]
      exact becomes_quiet settled.effects rfl (by simp) rfl rfl
  | sweep now =>
    refine ⟨_, _, _, .sweep, ?_⟩
    simp only [step, sweep]
    constructor <;> simp [Dealer.checkTimeouts_eq]
  | farewell id =>
    cases ready : (router.sessions.find? id).any fun session => session.state == .established with
    | false =>
      refine ⟨_, _, _, .idle ?_, ?_⟩
      · intro session known
        simpa [known] using ready
      · simp only [step, ready]
        exact becomes_idle settled.effects
    | true =>
      obtain ⟨session, known, state⟩ := (Option.any_eq_true _ _).mp ready
      refine ⟨_, _, _, .farewell known (by simpa using state), ?_⟩
      simp only [step, ready, send_of_isValid _ _ isOutbound_farewell.valid]
      exact becomes_quiet settled.effects rfl rfl rfl rfl
  | closeSession id =>
    refine ⟨_, _, _, .closeSession, ?_⟩
    simp only [step, closeSession]
    constructor <;> split <;> simp [Dealer.step]

theorem Acts.handled {operation : Operation} {sessions : Nat → Option Session}
    {work : List Dealer.Operation} {sent : List (Nat × Message)}
    (acts : router.Acts operation sessions work sent) {now : Time} {draw : Nat} {message : Message}
    (member : .handle now draw id message ∈ work) :
    ∃ session raw, router.sessions.find? id = some session ∧ session.state = .established ∧
      standard.parse raw = .ok message ∧ allows session message.kind = true := by
  cases acts with
  | idle | connect | sweep | rejectBytes | farewell | closeSession => simp at member
  | @handle _ _ _ raw session reaction known reacts =>
    cases reacts with
    | route state reads kind allowed =>
      obtain ⟨-, -, rfl, rfl⟩ : _ ∧ _ ∧ _ ∧ _ := by simpa using member
      exact ⟨session, raw, known, state, reads, allowed⟩
    | _ => simp at member

def inbox (id : Nat) (messages : List (Nat × Message)) : List Message :=
  (messages.filter fun message => message.1 = id).map (·.2)

@[simp] theorem inbox_nil (id : Nat) : inbox id [] = [] := rfl

@[simp] theorem inbox_append (id : Nat) (messages more : List (Nat × Message)) :
    inbox id (messages ++ more) = inbox id messages ++ inbox id more := by
  simp [inbox]

theorem inbox_map (id other : Nat) (messages : List Message) :
    inbox id (messages.map (other, ·)) = if other = id then messages else [] := by
  by_cases same : other = id <;> simp [inbox, List.filter_map, Function.comp_def, same]

inductive Fate (router : Router) (id : Nat) : Operation → Option Session → List Message → Prop
  | stays {operation : Operation} : Fate router id operation (router.sessions.find? id) []
  | opens (valid : isValidId id = true) (new : router.sessions.find? id = none) :
      Fate router id (.connect id) (some {}) []
  | reacts {now : Time} {draw : Nat} {raw : List Json} {session : Session} {reaction : Reaction}
      (known : router.sessions.find? id = some session)
      (reacts : Reacts router id session raw reaction) :
      Fate router id (.handle now draw id raw) (some reaction.session) reaction.sent
  | rejects {error : ProtocolError} {session : Session}
      (known : router.sessions.find? id = some session) :
      Fate router id (.rejectBytes id error) (some (closing session))
        [abortion .protocolViolation error.message]
  | parts {session : Session} (known : router.sessions.find? id = some session)
      (state : session.state = .established) :
      Fate router id (.farewell id) (some session) [⟨.goodbye, farewell⟩]

theorem Acts.fate {operation : Operation} {sessions : Nat → Option Session}
    {work : List Dealer.Operation} {sent : List (Nat × Message)}
    (acts : router.Acts operation sessions work sent) (id : Nat) :
    router.Fate id operation (sessions id) (inbox id sent) := by
  have updated (other : Nat) (session : Session) (messages : List Message)
      (own : router.Fate other operation (some session) messages) :
      router.Fate id operation (Function.update router.sessions.find? other (some session) id)
        (inbox id (messages.map (other, ·))) := by
    rw [Function.update_apply, inbox_map]
    by_cases same : other = id
    · subst same
      simpa using own
    · rw [if_neg (Ne.symm same), if_neg same]
      exact .stays
  cases acts with
  | idle | sweep | closeSession => exact .stays
  | connect valid new => exact updated _ _ [] (.opens valid new)
  | handle known reacts => exact updated _ _ _ (.reacts known reacts)
  | rejectBytes known => exact updated _ _ [_] (.rejects known)
  | @farewell other session known state =>
    by_cases same : other = id
    · subst same
      simpa [inbox, known] using Fate.parts known state
    · simpa [inbox, same] using Fate.stays

theorem fate_step (settled : router.Settled) (operation : Operation) (id : Nat) :
    ∃ sent, router.Fate id operation ((router.step operation).sessions.find? id) sent := by
  obtain ⟨sessions, work, sent, acts, becomes⟩ := step_acts settled operation
  rw [becomes.sessions]
  exact ⟨_, acts.fate id⟩

theorem settled_step (settled : router.Settled) (operation : Operation) :
    (router.step operation).Settled where
  effects := by
    obtain ⟨sessions, work, sent, acts, becomes⟩ := step_acts settled operation
    rw [becomes.dealer]
  ids := by
    intro id session found
    obtain ⟨sent, fate⟩ := fate_step settled operation id
    rw [found] at fate
    generalize same : some session = after at fate
    cases fate with
    | stays => exact settled.ids id session same.symm
    | opens valid new => exact valid
    | reacts known | rejects known | parts known => exact settled.ids id _ known

theorem settled_run (identity : Identity) (options : Dealer.Options) (metrics : Option Metrics)
    (operations : List Operation) : (run identity options metrics operations).Settled := by
  induction operations using List.reverseRecOn with
  | nil => exact ⟨rfl, by simp [run, Keyed.find?, Keyed.empty, Keyed.lookup]⟩
  | append_singleton operations operation ih =>
    rw [run_concat]
    exact settled_step ih operation

end Router

end CallRouter
