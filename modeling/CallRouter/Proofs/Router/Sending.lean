import CallRouter.Proofs.Router.Reactions

namespace CallRouter

open Message.Registry (standard)

namespace Dealer

variable {peers : Peers} {dealer : Dealer}

theorem linked_clear (linked : dealer.Linked) : { dealer with effects := [] }.Linked where
  tracked := by
    intro key number index located
    obtain ⟨call, target, found, ⟨tracked, there, left⟩, same⟩ := linked.tracked located
    exact ⟨call, target, found, ⟨tracked, there, left⟩, same⟩
  cancelable := linked.cancelable
  effects := by simp

end Dealer

namespace Router

def routed? (session : Session) (raw : List Json) : Option Message :=
  match standard.parse raw with
  | .error _ => none
  | .ok message =>
    if session.state = .established ∧ message.kind ∉ [.abort, .hello, .goodbye] ∧
        allows session message.kind then some message
    else none

def replies (router : Router) (id : Nat) (session : Session) (raw : List Json) : List Message :=
  match standard.parse raw with
  | .error error =>
    match session.state, Message.recover? raw with
    | .established, some (kind, request) => [correction kind request error]
    | _, _ => [abortion .protocolViolation error.message]
  | .ok message =>
    match session.state, message.kind with
    | .closing, _ | _, .abort => []
    | .establishing, .hello =>
      let realm := (message.text? 0).getD ""
      if realm ≠ router.identity.realm then [abortion .noSuchRealm ("no such realm: " ++ realm)]
      else if (Announcement.ofDetails ((message.dict? 1).getD [])).isEmpty then
        [abortion .protocolViolation "HELLO announces no client role"]
      else [router.welcome id]
    | .establishing, kind => [abortion .protocolViolation ("expected HELLO, got " ++ kind.name)]
    | .established, .hello => [abortion .protocolViolation "HELLO on an established session"]
    | .established, .goodbye =>
      if message.text? 1 = some ErrorUri.goodbyeAndOut.uri then [] else [leave]
    | .established, kind =>
      if allows session kind then []
      else [abortion .protocolViolation
        (kind.name ++ " not allowed for roles [" ++ roleTitles session ++ "]")]

variable {router later : Router} {id : Nat} {session : Session} {raw : List Json}

theorem replies_of_aborts {reason : ErrorUri} {text : String}
    (why : router.Aborts session raw reason text) :
    router.replies id session raw = [abortion reason text] ∧ routed? session raw = none := by
  cases why with
  | malformed fails unrecovered =>
    refine ⟨?_, by simp [routed?, fails]⟩
    simp only [replies, fails]
    split
    · rename_i state recovered
      simp [unrecovered state] at recovered
    · rfl
  | realm state reads kind other => simp [replies, routed?, reads, state, kind, other]
  | roles state reads kind realm none => simp [replies, routed?, reads, state, kind, realm, none]
  | @early message state reads kind stays =>
    refine ⟨?_, by simp [routed?, reads, state]⟩
    simp only [replies, reads, state]
  | again state reads kind => simp [replies, routed?, reads, state, kind]
  | @forbidden message state reads kind disallowed =>
    refine ⟨?_, by simp [routed?, reads, disallowed]⟩
    simp only [replies, reads, state]
    cases found : message.kind <;> simp_all

theorem replies_of_reacts {reaction : Reaction} (reacts : Reacts router id session raw reaction) :
    router.replies id session raw = reaction.sent ∧ routed? session raw = reaction.routed := by
  cases reacts with
  | abort why => exact replies_of_aborts why
  | correct state fails recovered => simp [replies, routed?, fails, state, recovered]
  | late state reads => simp [replies, routed?, reads, state]
  | @aborted message state reads kind =>
    refine ⟨?_, by simp [routed?, reads, kind]⟩
    simp only [replies, reads, kind]
  | join state reads some =>
    simp [replies, routed?, reads, state, Message.text?, Message.dict?, Message.field?, Json.text?,
      Json.dict?, some]
  | part state reads kind => simp [replies, routed?, reads, state, kind]
  | @route message state reads kind allowed =>
    refine ⟨?_, by simp [routed?, reads, state, kind, allowed]⟩
    simp only [replies, reads, state]
    cases found : message.kind <;> simp_all

def work (router : Router) : Operation → List Dealer.Operation
  | .handle now draw id raw =>
    ((router.sessions.find? id).bind (routed? · raw)).toList.map (.handle now draw id)
  | .sweep now => router.dealer.awaited.map (.checkTimeout now)
  | .closeSession id => [.closeSession id]
  | .connect _ | .rejectBytes .. | .farewell _ => []

def ownAttempts (router : Router) : Operation → List (Nat × Message)
  | .handle _ _ id raw =>
    (router.sessions.find? id).toList.flatMap fun session =>
      (router.replies id session raw).map (id, ·)
  | .rejectBytes id error =>
    (router.sessions.find? id).toList.map fun _ =>
      (id, abortion .protocolViolation error.message)
  | .farewell id =>
    if (router.sessions.find? id).any fun session => session.state == .established then
      [(id, ⟨.goodbye, farewell⟩)]
    else []
  | .connect _ | .sweep _ | .closeSession _ => []

def attempts (router : Router) (operation : Operation) : List (Nat × Message) :=
  (Dealer.workAttempts router.peers router.dealer (router.work operation)).map
      (fun attempt => (attempt.1, attempt.2.message)) ++
    router.ownAttempts operation

section Acting

variable {operation : Operation} {sessions : Nat → Option Session} {work : List Dealer.Operation}
  {sent : List (Nat × Message)}

theorem work_of_acts (acts : router.Acts operation sessions work sent) :
    router.work operation = work ∧ router.ownAttempts operation = sent := by
  cases acts with
  | @idle operation idle =>
    cases operation with
    | handle | rejectBytes => simp [Router.work, ownAttempts, show _ = none from idle]
    | farewell id =>
      have unready : (router.sessions.find? id).any
          (fun session => session.state == .established) = false := by
        simpa [Idle, Option.any_eq_false] using idle
      simp [Router.work, ownAttempts, unready]
    | connect id => exact ⟨rfl, rfl⟩
    | sweep | closeSession => exact idle.elim
  | connect | sweep | closeSession => exact ⟨rfl, rfl⟩
  | handle known reacts =>
    obtain ⟨replied, routed⟩ := replies_of_reacts reacts
    simp [Router.work, ownAttempts, known, replied, routed]
  | rejectBytes known => simp [Router.work, ownAttempts, known]
  | farewell known state => simp [Router.work, ownAttempts, known, state]

theorem isValid_of_acts (acts : router.Acts operation sessions work sent) :
    ∀ asked ∈ work, asked.IsValid := by
  intro asked member
  cases asked with
  | handle now draw id message =>
    obtain ⟨session, raw, known, state, reads, allowed⟩ := acts.handled member
    exact Message.isValid_of_parse reads
  | checkTimeout | closeSession => trivial

theorem isOutbound_of_acts (settled : router.Settled)
    (acts : router.Acts operation sessions work sent) :
    ∀ message ∈ sent, message.2.IsOutbound := by
  cases acts with
  | idle | connect | sweep | closeSession => simp
  | rejectBytes known => simpa using isOutbound_abortion _ _
  | farewell known state => simpa using isOutbound_farewell
  | @handle now draw id raw session reaction known reacts =>
    cases reacts with
    | correct state fails recovered =>
      obtain ⟨-, valid, -⟩ := Message.recover?_eq_some_iff.mp recovered
      simpa using isOutbound_correction valid _ _
    | abort why => simpa using isOutbound_abortion _ _
    | join state reads some => simpa using isOutbound_welcome router (settled.ids id session known)
    | part state reads kind =>
      split
      · simp
      · simpa using isOutbound_leave
    | late | aborted | route => simp

end Acting

theorem isValidId_draws (router : Router) (session count : Nat) :
    isValidId (router.peers.requestId session count) = true := isValidId_requestIdAfter count

theorem messages_map_send (sent : List (Nat × Message)) :
    Effect.messages (sent.map fun message => .send message.1 message.2 none) = sent := by
  induction sent with
  | nil => rfl
  | cons message sent ih => exact congrArg (message :: ·) ih

theorem Becomes.messages {sessions : Nat → Option Session} {work : List Dealer.Operation}
    {sent : List (Nat × Message)} (becomes : router.Becomes sessions work sent later) :
    Effect.messages later.effects = Effect.messages router.effects ++
      Effect.messages (work.foldl (Dealer.step router.peers) router.dealer).effects ++ sent := by
  simp [becomes.effects, messages_map_send]

theorem Becomes.quiet {sessions : Nat → Option Session} {sent : List (Nat × Message)}
    (becomes : router.Becomes sessions [] sent later) (settled : router.Settled) :
    later.dealer = router.dealer ∧
      Effect.messages later.effects = Effect.messages router.effects ++ sent := by
  constructor
  · rw [becomes.dealer, List.foldl_nil, Dealer.clear_of_settled settled.effects]
  · rw [becomes.messages, List.foldl_nil, settled.effects, Effect.messages_nil, List.append_nil]

structure Sends (router : Router) (attempts : List (Nat × Message)) (later : Router) : Prop where
  ids : later.dealer.ValidIds
  outbound : ∀ attempt ∈ attempts, attempt.2.IsOutbound
  sent : Effect.messages later.effects = Effect.messages router.effects ++ attempts

theorem sends_step (settled : router.Settled) (ids : router.dealer.ValidIds)
    (operation : Operation) :
    router.Sends (router.attempts operation) (router.step operation) := by
  obtain ⟨sessions, work, sent, acts, becomes⟩ := step_acts settled operation
  obtain ⟨worked, own⟩ := work_of_acts acts
  have delivers := Dealer.delivers_work ids router.isValidId_draws work (isValid_of_acts acts)
  refine ⟨?_, ?_, ?_⟩
  · rw [becomes.dealer]
    exact ⟨Dealer.linked_clear delivers.ids.toLinked, delivers.ids.numbered, delivers.ids.calls⟩
  · intro attempt member
    rw [attempts, worked, own] at member
    rcases List.mem_append.mp member with dealt | answered
    · obtain ⟨tried, among, rfl⟩ := List.mem_map.mp dealt
      exact delivers.outbound tried among
    · exact isOutbound_of_acts settled acts attempt answered
  · rw [becomes.messages, attempts, worked, own, delivers.sent, settled.effects,
      Effect.messages_nil, List.nil_append, List.append_assoc]

theorem validIds_run (identity : Identity) (options : Dealer.Options) (metrics : Option Metrics)
    (operations : List Operation) : (run identity options metrics operations).dealer.ValidIds := by
  induction operations using List.reverseRecOn with
  | nil => exact Dealer.validIds_initial options
  | append_singleton operations operation ih =>
    rw [run_concat]
    exact (sends_step (settled_run identity options metrics operations) ih operation).ids

theorem outbound_run (identity : Identity) (options : Dealer.Options) (metrics : Option Metrics)
    (operations : List Operation) :
    ∀ message ∈ Effect.messages (run identity options metrics operations).effects,
      message.2.IsOutbound := by
  induction operations using List.reverseRecOn with
  | nil => simp [run]
  | append_singleton operations operation ih =>
    have sends := sends_step (settled_run identity options metrics operations)
      (validIds_run identity options metrics operations) operation
    rw [run_concat, sends.sent]
    intro message member
    rcases List.mem_append.mp member with before | new
    · exact ih message before
    · exact sends.outbound message new

/--
The router only sends messages that a router may send and that can be read back. After every run,
whatever comes next, each message that is to be sent has the shape of its kind, so that all of them
are sent. The same is true of a dealer by itself, if it gets valid messages and draws valid ids.
-/
theorem all_attempts_are_sent (identity : Identity) (options : Dealer.Options)
    (metrics : Option Metrics) (operations : List Operation) :
    let router := run identity options metrics operations
    (∀ id message, (id, message) ∈ Effect.messages router.effects →
      (Message.Shape.standard message.kind).routerMaySend = true ∧
        standard.parse message.raw = .ok message) ∧
    (∀ operation,
      (∀ id message, (id, message) ∈ router.attempts operation →
        standard.build message.kind message.fields = .ok message) ∧
      Effect.messages (router.step operation).effects =
        Effect.messages router.effects ++ router.attempts operation) ∧
    ∀ (peers : Peers) (work : List Dealer.Operation) (next : Dealer.Operation),
      (∀ session count, isValidId (peers.requestId session count) = true) →
      (∀ operation ∈ work, operation.IsValid) → next.IsValid →
        let dealer := Dealer.run peers options work
        (∀ session rpc, (session, rpc) ∈ dealer.attempts peers next →
          rpc.toMessage standard = .ok rpc.message ∧
            (Message.Shape.standard rpc.kind).routerMaySend = true) ∧
        Effect.messages (dealer.step peers next).effects = Effect.messages dealer.effects ++
          (dealer.attempts peers next).map fun attempt => (attempt.1, attempt.2.message) := by
  intro router
  refine ⟨?_, fun operation => ?_, fun peers work next draws asked valid => ?_⟩
  · intro id message member
    have outbound := outbound_run identity options metrics operations (id, message) member
    exact ⟨outbound.flow, outbound.valid⟩
  · have sends := sends_step (settled_run identity options metrics operations)
      (validIds_run identity options metrics operations) operation
    exact ⟨fun id message member => (sends.outbound (id, message) member).valid.build, sends.sent⟩
  · have delivers := Dealer.delivers_step (Dealer.validIds_run draws options work asked) draws valid
    refine ⟨fun session rpc member => ?_, delivers.sent⟩
    have outbound := delivers.outbound (session, rpc) member
    exact ⟨outbound.valid.build, outbound.flow⟩

theorem all_attempts_are_sent_over_cancellation :
    let hello (role : String) : List Json :=
      [.ofNat 1, .text "realm1", .dict [("roles", .dict [(role,
        .dict [("features", .dict [("call_canceling", .bool true)])])])]]
    let operations : List Operation :=
      [.connect 1, .connect 2, .handle 0 0 1 (hello "callee"), .handle 0 0 2 (hello "caller"),
        .handle 0 0 1 [.ofNat 64, .ofNat 1, .dict [], .text "sum"],
        .handle 0 0 2 [.ofNat 48, .ofNat 1, .dict [], .text "sum"]]
    let next : Operation := .handle 0 0 2 [.ofNat 49, .ofNat 1, .dict []]
    let router := run {} {} none operations
    (router.attempts next).map (fun attempt => (attempt.1, attempt.2.kind)) =
        [(2, .error), (1, .interrupt)] ∧
      Effect.messages (router.step next).effects =
        Effect.messages router.effects ++ router.attempts next ∧
      ∀ id message, (id, message) ∈ router.attempts next →
        standard.build message.kind message.fields = .ok message := by
  intro hello operations next router
  obtain ⟨-, steps, -⟩ := all_attempts_are_sent {} {} none operations
  exact ⟨by decide +kernel, (steps next).2, (steps next).1⟩

end Router

end CallRouter
