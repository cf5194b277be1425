import CallRouter.Proofs.Router.LifeCycle

/-!
How sessions end. An ABORT or a GOODBYE is sent to a session only when it begins to close, and then
at most one of them. What it sends after that is ignored if it is well-formed; but each malformed
message is objected to with one more ABORT.
-/

namespace CallRouter

open Message.Registry (standard)

def Message.isEnding (message : Message) : Bool :=
  message.kind == .abort || message.kind == .goodbye

theorem Rpc.not_isEnding (rpc : Rpc) : rpc.message.isEnding = false := by
  cases rpc <;> rfl

namespace Router

variable {router later : Router} {id : Nat} {session : Session} {operation : Operation}
  {sessions : Nat → Option Session} {work : List Dealer.Operation} {sent : List (Nat × Message)}

def endings (router : Router) (id : Nat) : List Message :=
  (router.received id).filter Message.isEnding

/-- The answer to values that are no message, unless their request is known and still of use. -/
def objection (raw : List Json) : List Message :=
  match standard.parse raw with
  | .error error => [abortion .protocolViolation error.message]
  | .ok _ => []

def objections (id : Nat) : Operation → List Message
  | .handle _ _ other raw => if other = id then objection raw else []
  | .rejectBytes other error =>
    if other = id then [abortion .protocolViolation error.message] else []
  | _ => []

theorem Reacts.of_closing {raw : List Json} {reaction : Reaction}
    (reacts : Reacts router id session raw reaction) (closed : session.state = .closing) :
    reaction.disposition = .close ∧ reaction.routed = none ∧ reaction.sent = objection raw := by
  cases reacts with
  | abort why =>
    refine ⟨rfl, rfl, ?_⟩
    cases why with
    | malformed fails => simp [objection, fails]
    | realm state | roles state | early state | again state | forbidden state =>
      simp [closed] at state
  | late state reads => exact ⟨rfl, rfl, by simp [objection, reads]⟩
  | aborted state => exact absurd closed state
  | correct state | join state | part state | route state => simp [closed] at state

theorem fate_own (settled : router.Settled) (operation : Operation) (id : Nat) :
    router.Fate id operation ((router.step operation).sessions.find? id)
      (inbox id (router.ownAttempts operation)) := by
  obtain ⟨sessions, work, sent, acts, becomes⟩ := step_acts settled operation
  rw [becomes.sessions, (work_of_acts acts).2]
  exact acts.fate id

theorem endings_step (settled : router.Settled) (ids : router.dealer.ValidIds)
    (operation : Operation) (id : Nat) :
    (router.step operation).endings id = router.endings id ++
      (inbox id (router.ownAttempts operation)).filter Message.isEnding := by
  have dealt (tried : List (Nat × Rpc)) :
      (inbox id (tried.map fun attempt => (attempt.1, attempt.2.message))).filter
        Message.isEnding = [] := by
    simp [inbox, List.filter_eq_nil_iff, Rpc.not_isEnding]
  rw [endings, received, (sends_step settled ids operation).sent, attempts, inbox_append,
    inbox_append, List.filter_append, List.filter_append, dealt, List.nil_append]
  rfl

def IsClosing (router : Router) (id : Nat) : Prop :=
  ∃ session, router.sessions.find? id = some session ∧ session.state = .closing

theorem endings_of_open (settled : router.Settled) (isOpen : ¬ router.IsClosing id)
    (stays : operation ≠ .farewell id) :
    (¬ (router.step operation).IsClosing id ∧
      (inbox id (router.ownAttempts operation)).filter Message.isEnding = []) ∨
    ((router.step operation).IsClosing id ∧ ∃ first : Option Message,
      (inbox id (router.ownAttempts operation)).filter Message.isEnding = first.toList) := by
  have fate := fate_own settled operation id
  unfold IsClosing at isOpen ⊢
  generalize (router.step operation).sessions.find? id = after at fate ⊢
  generalize inbox id (router.ownAttempts operation) = own at fate ⊢
  cases fate with
  | stays => exact .inl ⟨isOpen, rfl⟩
  | opens valid new => exact .inl ⟨by simp, rfl⟩
  | rejects known => exact .inr ⟨⟨_, rfl, rfl⟩, some _, rfl⟩
  | parts known state => exact absurd rfl stays
  | @reacts now draw raw session reaction known reacts =>
    have live : session.state ≠ .closing := fun closed => isOpen ⟨session, known, closed⟩
    cases reacts with
    | correct state fails recovered =>
      exact .inl ⟨by simp [state], rfl⟩
    | abort why => exact .inr ⟨⟨_, rfl, rfl⟩, some _, rfl⟩
    | late state reads => exact absurd state live
    | aborted state reads kind => exact .inr ⟨⟨_, rfl, rfl⟩, none, rfl⟩
    | join state reads some => exact .inl ⟨by simp [Session.join], rfl⟩
    | part state reads kind =>
      refine .inr ⟨⟨_, rfl, rfl⟩, ?_⟩
      split
      · exact ⟨none, rfl⟩
      · exact ⟨some leave, rfl⟩
    | route state reads kind allowed => exact .inl ⟨by simp [state], rfl⟩

theorem own_of_closing (settled : router.Settled)
    (known : router.sessions.find? id = some session) (closed : session.state = .closing)
    (operation : Operation) :
    inbox id (router.ownAttempts operation) = objections id operation := by
  obtain ⟨sessions, work, sent, acts, -⟩ := step_acts settled operation
  rw [(work_of_acts acts).2]
  cases acts with
  | connect | sweep | closeSession => rfl
  | @idle operation idle =>
    cases operation with
    | handle now draw other raw | rejectBytes other error =>
      have absent : router.sessions.find? other = none := idle
      have apart : other ≠ id := fun same => by simp [same, known] at absent
      simp [objections, apart]
    | _ => rfl
  | @handle now draw other raw found reaction there reacts =>
    rw [inbox_map, objections]
    split
    · rename_i same
      subst same
      obtain rfl := Option.some.inj (known.symm.trans there)
      exact (reacts.of_closing closed).2.2
    · rfl
  | @rejectBytes other error found there =>
    by_cases same : other = id <;> simp [inbox, objections, same]
  | @farewell other found there state =>
    have apart : other ≠ id := by
      rintro rfl
      obtain rfl := Option.some.inj (known.symm.trans there)
      simp [closed] at state
    simp [inbox, objections, apart]

theorem isEnding_of_objections {message : Message} (member : message ∈ objections id operation) :
    message.isEnding = true := by
  have abortions : ∀ raw, ∀ message ∈ objection raw, message.isEnding = true := by
    intro raw message member
    unfold objection at member
    split at member
    · rw [List.mem_singleton.mp member]
      rfl
    · simp at member
  cases operation with
  | handle now draw other raw =>
    rw [objections] at member
    split at member
    · exact abortions raw message member
    · simp at member
  | rejectBytes other error =>
    rw [objections] at member
    split at member
    · rw [List.mem_singleton.mp member]
      rfl
    · simp at member
  | _ => simp [objections] at member

theorem handle_closing (settled : router.Settled)
    (known : router.sessions.find? id = some session) (closed : session.state = .closing)
    (now : Time) (draw : Nat) (raw : List Json) :
    let answer := router.handle now draw id raw
    answer.1 = .close ∧ answer.2.dealer = router.dealer ∧
      Effect.messages answer.2.effects =
        Effect.messages router.effects ++ (objection raw).map (id, ·) := by
  intro answer
  obtain ⟨reaction, reacts, disposition, -, becomes⟩ := reacts_handle settled known now draw raw
  obtain ⟨closes, unrouted, sent⟩ := reacts.of_closing closed
  rw [unrouted, sent] at becomes
  exact ⟨disposition.trans closes, becomes.quiet settled⟩

section Runs

variable (identity : Identity) (options : Dealer.Options) (metrics : Option Metrics)

structure ClosesWith (id : Nat) (before : List Operation) (last : Operation) : Prop where
  isOpen : ¬ (run identity options metrics before).IsClosing id
  closed : (run identity options metrics (before ++ [last])).IsClosing id

theorem endings_run (operations : List Operation) (stays : .farewell id ∉ operations) :
    (¬ (run identity options metrics operations).IsClosing id ∧
      (run identity options metrics operations).endings id = []) ∨
    ∃ before last rest, ∃ first : Option Message, operations = before ++ last :: rest ∧
      ClosesWith identity options metrics id before last ∧
      (run identity options metrics operations).endings id =
        first.toList ++ rest.flatMap (objections id) := by
  induction operations using List.reverseRecOn with
  | nil => exact .inl ⟨by simp [IsClosing, run, Keyed.find?, Keyed.empty, Keyed.lookup], rfl⟩
  | append_singleton operations operation ih =>
    have settled := settled_run identity options metrics operations
    have ids := validIds_run identity options metrics operations
    have grown := endings_step settled ids operation id
    rw [List.mem_append, not_or, List.mem_singleton] at stays
    rcases ih stays.1 with ⟨isOpen, none⟩ | ⟨before, last, rest, first, rfl, closes, heard⟩
    · rw [none, List.nil_append] at grown
      have apart : operation ≠ .farewell id := Ne.symm stays.2
      rcases endings_of_open settled isOpen apart with ⟨goesOn, quiet⟩ | ⟨ends, first, sent⟩
      · rw [run_concat]
        exact .inl ⟨goesOn, grown.trans quiet⟩
      · refine .inr ⟨operations, operation, [], first, rfl, ⟨isOpen, ?_⟩, ?_⟩
        · rwa [run_concat]
        · rw [run_concat, grown, sent]
          simp
    · obtain ⟨session, known, state⟩ := closes.closed
      obtain ⟨after, there, still⟩ := closing_run identity options metrics known state rest
      rw [List.append_assoc, List.singleton_append] at there
      have objected := own_of_closing settled there still operation
      refine .inr ⟨before, last, rest ++ [operation], first, by simp, closes, ?_⟩
      rw [run_concat, grown, heard, objected,
        List.filter_eq_self.mpr fun _ => isEnding_of_objections]
      simp

end Runs

/--
How a session ends, unless the router shuts down. It hears no ABORT and no GOODBYE before it is
closing, and at most one when it begins to. From then on the router itself sends it one more ABORT
for each of its messages that is malformed, and nothing else; what is well-formed is ignored.
-/
theorem closing_sessions_hear_objections (identity : Identity) (options : Dealer.Options)
    (metrics : Option Metrics) (operations : List Operation) (id : Nat)
    (stays : .farewell id ∉ operations) :
    let router := run identity options metrics operations
    (¬ router.IsClosing id → router.endings id = []) ∧
    (router.IsClosing id →
      (∃ before last rest, ∃ first : Option Message, operations = before ++ last :: rest ∧
        ClosesWith identity options metrics id before last ∧
        router.endings id = first.toList ++ rest.flatMap (objections id)) ∧
      (∀ operation, inbox id (router.ownAttempts operation) = objections id operation) ∧
      ∀ now draw raw,
        let answer := router.handle now draw id raw
        answer.1 = .close ∧ answer.2.dealer = router.dealer ∧
          Effect.messages answer.2.effects =
            Effect.messages router.effects ++ (objection raw).map (id, ·)) := by
  intro router
  have settled : router.Settled := settled_run identity options metrics operations
  have ends := endings_run identity options metrics operations stays
  constructor
  · intro isOpen
    rcases ends with ⟨-, none⟩ | ⟨before, last, rest, -, rfl, closes, -⟩
    · exact none
    · obtain ⟨session, known, state⟩ := closes.closed
      have closed := closing_run identity options metrics known state rest
      rw [List.append_assoc, List.singleton_append] at closed
      exact absurd closed isOpen
  · intro closing
    obtain ⟨session, known, closed⟩ := closing
    refine ⟨?_, own_of_closing settled known closed, handle_closing settled known closed⟩
    rcases ends with ⟨isOpen, -⟩ | split
    · exact absurd ⟨session, known, closed⟩ isOpen
    · exact split

theorem closing_sessions_hear_objections_of_stranger :
    let hello : List Json :=
      [.ofNat 1, .text "realm1", .dict [("roles", .dict [("caller", .dict [])])]]
    let operations : List Operation :=
      [.connect 1, .handle 0 0 1 [.ofNat 48, .ofNat 7, .dict [], .text "sum"],
        .handle 0 0 1 hello, .handle 0 0 1 [.ofNat 48, .ofNat 7]]
    let router := run {} {} none operations
    .farewell 1 ∉ operations ∧ router.IsClosing 1 ∧
      (router.endings 1).map Message.kind = [.abort, .abort] ∧
      (∃ before last rest, ∃ first : Option Message, operations = before ++ last :: rest ∧
        ClosesWith {} {} none 1 before last ∧
        router.endings 1 = first.toList ++ rest.flatMap (objections 1)) ∧
      inbox 1 (router.ownAttempts (.handle 0 0 1 hello)) = [] ∧
      (router.handle 0 0 1 hello).1 = .close ∧
      Effect.messages (router.handle 0 0 1 hello).2.effects = Effect.messages router.effects := by
  intro hello operations router
  have stays : .farewell 1 ∉ operations := by simp [operations]
  have closing : router.IsClosing 1 := by
    refine ⟨{ state := .closing, messages := 3 }, ?_, rfl⟩
    decide +kernel
  obtain ⟨-, closed⟩ := closing_sessions_hear_objections {} {} none operations 1 stays
  obtain ⟨split, own, handled⟩ := closed closing
  obtain ⟨close, -, sent⟩ := handled 0 0 hello
  refine ⟨stays, closing, by decide +kernel, split, ?_, close, ?_⟩
  · exact (own (.handle 0 0 1 hello)).trans (by decide +kernel)
  · exact sent.trans (by
      have none : objection hello = [] := by decide +kernel
      rw [none, List.map_nil, List.append_nil])

/-- A caller says GOODBYE and is answered. Its malformed message after that is answered too. -/
theorem closed_session_is_aborted :
    let hello : List Json :=
      [.ofNat 1, .text "realm1", .dict [("roles", .dict [("caller", .dict [])])]]
    let router := run {} {} none
      [.connect 1, .handle 0 0 1 hello,
        .handle 0 0 1 [.ofNat 6, .dict [], .text "wamp.close.close_realm"]]
    let later := router.step (.handle 0 0 1 [.ofNat 48, .ofNat 7])
    (router.sessions.find? 1).map Session.state = some .closing ∧
      (router.endings 1).map Message.kind = [.goodbye] ∧
      (later.endings 1).map Message.kind = [.goodbye, .abort] := by
  decide +kernel

end Router

end CallRouter
