import CallRouter.Proofs.Dealer.Peopled
import CallRouter.Proofs.Router.LifeCycle

namespace CallRouter

open Message.Registry (standard)

theorem Announcement.isRouter_of_mem {details : Dict} {role : Role} {features : List String}
    (member : (role, features) ∈ ofDetails details) : role.isRouter = false := by
  unfold ofDetails at member
  split at member
  · obtain ⟨⟨name, described⟩, _, known⟩ := List.mem_filterMap.mp member
    simp only at known
    split at known
    · split at known
      · cases known
      · rename_i client
        obtain ⟨rfl, -⟩ := Prod.mk.inj (Option.some.inj known)
        simpa using client
    · cases known
  · cases member

namespace Router

variable {router later : Router} {id : Nat} {session : Session} {operation : Operation}
  {sessions : Nat → Option Session} {work : List Dealer.Operation} {sent : List (Nat × Message)}
  {raw : List Json} {message : Message}

def interdiction (session : Session) (kind : Message.Kind) : Message :=
  abortion .protocolViolation (kind.name ++ " not allowed for roles [" ++ roleTitles session ++ "]")

theorem Reacts.of_established {reaction : Reaction} (reacts : Reacts router id session raw reaction)
    (state : session.state = .established) (reads : standard.parse raw = .ok message)
    (kind : message.kind ∉ [.abort, .hello, .goodbye]) :
    reaction = if allows session message.kind then
        { disposition := .keepOpen, session := heard session, routed := message }
      else
        { disposition := .close, session := closing (heard session),
          sent := [interdiction session message.kind] } := by
  cases reacts with
  | correct _ fails => simp [reads] at fails
  | late closed => simp [state] at closed
  | join establishing => simp [state] at establishing
  | @aborted other _ also abort =>
    obtain rfl := Except.ok.inj (reads.symm.trans also)
    simp [abort] at kind
  | @part other _ also goodbye =>
    obtain rfl := Except.ok.inj (reads.symm.trans also)
    simp [goodbye] at kind
  | @route other _ also _ allowed =>
    obtain rfl := Except.ok.inj (reads.symm.trans also)
    rw [if_pos allowed]
  | abort why =>
    cases why with
    | malformed fails => simp [reads] at fails
    | realm establishing | roles establishing | early establishing => simp [state] at establishing
    | @again other _ also hello =>
      obtain rfl := Except.ok.inj (reads.symm.trans also)
      simp [hello] at kind
    | @forbidden other _ also _ disallowed =>
      obtain rfl := Except.ok.inj (reads.symm.trans also)
      simp [disallowed, interdiction]

section Runs

variable (identity : Identity) (options : Dealer.Options) (metrics : Option Metrics)

def Announced (operations : List Operation) (id : Nat) (role : Role) : Prop :=
  ∃ details features, Joined identity options metrics operations id details ∧
    (role, features) ∈ Announcement.ofDetails details

variable {identity options metrics} {operations : List Operation}

theorem Announced.concat {role : Role}
    (announced : Announced identity options metrics operations id role) (operation : Operation) :
    Announced identity options metrics (operations ++ [operation]) id role := by
  obtain ⟨details, features, joined, member⟩ := announced
  exact ⟨details, features, (joined_concat_iff ..).mpr (.inl joined), member⟩

theorem hasRole_iff_announced
    (known : (run identity options metrics operations).sessions.find? id = some session)
    (role : Role) :
    session.hasRole role = true ↔ Announced identity options metrics operations id role := by
  cases standing_run identity options metrics operations id with
  | stranger never apart =>
    have none : session.hasRole role = false := by simp [Session.hasRole, (apart session known).1]
    rw [none]
    refine ⟨nofun, ?_⟩
    rintro ⟨details, features, joined, -⟩
    exact absurd joined (never details)
  | @member found details first rest there entered only roles =>
    obtain rfl := Option.some.inj (known.symm.trans there)
    have some : session.hasRole role = true ↔
        ∃ features, (role, features) ∈ Announcement.ofDetails details := by
      simp [Session.hasRole, roles]
    rw [some]
    constructor
    · rintro ⟨features, member⟩
      exact ⟨details, features, entered, member⟩
    · rintro ⟨other, features, joined, member⟩
      exact ⟨features, only other joined ▸ member⟩

theorem allows_iff_announced
    (known : (run identity options metrics operations).sessions.find? id = some session)
    (kind : Message.Kind) :
    allows session kind = true ↔ ∃ flow ∈ (Message.Shape.standard kind).flows,
      Announced identity options metrics operations id flow.source := by
  rw [allows_eq_true_iff]
  refine exists_congr fun flow => and_congr_right fun _ => ?_
  rw [hasRole_iff_announced known]
  refine and_iff_right_of_imp ?_
  rintro ⟨details, features, -, member⟩
  exact Announcement.isRouter_of_mem member

theorem isAllowed_of_acts
    (acts : (run identity options metrics operations).Acts operation sessions work sent) :
    ∀ asked ∈ work, asked.IsAllowed (Announced identity options metrics operations · .caller)
      (Announced identity options metrics operations · .callee) := by
  intro asked member
  cases asked with
  | handle now draw id message =>
    obtain ⟨session, raw, known, -, -, allowed⟩ := acts.handled member
    obtain ⟨flow, among, announced⟩ := (allows_iff_announced known _).mp allowed
    constructor
    · intro register
      obtain rfl : flow = ⟨.callee, .dealer⟩ := by
        simpa [register, Message.Shape.standard, Message.Shape.fromCallee] using among
      exact announced
    · intro call
      obtain rfl : flow = ⟨.caller, .dealer⟩ := by
        simpa [call, Message.Shape.standard, Message.Shape.fromCaller] using among
      exact announced
  | checkTimeout | closeSession => trivial

theorem peopled_run (identity : Identity) (options : Dealer.Options) (metrics : Option Metrics)
    (operations : List Operation) :
    (run identity options metrics operations).dealer.Peopled
      (Announced identity options metrics operations · .caller)
      (Announced identity options metrics operations · .callee) := by
  induction operations using List.reverseRecOn with
  | nil => exact Dealer.peopled_initial _ _ options
  | append_singleton operations operation ih =>
    obtain ⟨sessions, work, sent, acts, becomes⟩ :=
      step_acts (settled_run identity options metrics operations) operation
    have linked := (validIds_run identity options metrics operations).toLinked
    have worked := Dealer.peopled_work (run identity options metrics operations).peers linked ih
      work (isAllowed_of_acts acts)
    -- What was announced before the step is announced after it.
    have kept := worked.imp (fun announced => announced.concat operation)
      (fun announced => announced.concat operation)
    rw [run_concat, becomes.dealer]
    exact ⟨kept.registered, kept.made, kept.served⟩

end Runs

/--
Roles are enforced for good. The owner of a registration joined as a callee, and so did all that
serve a call, while the one that made it joined as a caller. A message that is not for the roles
that its session joined in ends that session, and the dealer never hears of it. A message that
passes is never one that the dealer ends the session for.
-/
theorem roles_are_enforced (identity : Identity) (options : Dealer.Options)
    (metrics : Option Metrics) (operations : List Operation) :
    let router := run identity options metrics operations
    let announced := Announced identity options metrics operations
    (∀ id registration, router.dealer.directory.registration? id = some registration →
      announced registration.session .callee) ∧
    (∀ (number : Nat) (call : Call), router.dealer.calls[number]? = some call →
      announced call.caller .caller ∧ ∀ target ∈ call.targets, announced target.callee .callee) ∧
    ∀ id session, router.sessions.find? id = some session → session.state = .established →
      ∀ now draw raw message, standard.parse raw = .ok message →
        message.kind ∉ [.abort, .hello, .goodbye] →
        let answer := router.handle now draw id raw
        ∃ after, answer.2.sessions.find? id = some after ∧
          ((∀ flow ∈ (Message.Shape.standard message.kind).flows, ¬ announced id flow.source) →
            answer.1 = .close ∧ after.state = .closing ∧ answer.2.dealer = router.dealer ∧
            Effect.messages answer.2.effects =
              Effect.messages router.effects ++ [(id, interdiction session message.kind)]) ∧
          ((∃ flow ∈ (Message.Shape.standard message.kind).flows, announced id flow.source) →
            answer.1 = .keepOpen ∧ after.state = .established ∧
            ∀ refusal, router.dealer.handle router.peers now draw id message = .error refusal →
              refusal.isFatal = false) := by
  intro router announced
  have settled : router.Settled := settled_run identity options metrics operations
  have peopled := peopled_run identity options metrics operations
  refine ⟨fun id registration => peopled.registered,
    fun number call found => ⟨peopled.made found, peopled.served found⟩, ?_⟩
  intro id session known state now draw raw message reads kind answer
  obtain ⟨reaction, reacts, disposition, found, becomes⟩ :=
    reacts_handle settled known now draw raw
  have reacted := reacts.of_established state reads kind
  have allowed := allows_iff_announced known message.kind
  refine ⟨reaction.session, found, fun none => ?_, fun some => ?_⟩
  · have disallowed : allows session message.kind = false := by
      rw [← Bool.not_eq_true, allowed]
      rintro ⟨flow, among, said⟩
      exact none flow among said
    rw [if_neg (by simp [disallowed])] at reacted
    subst reacted
    obtain ⟨same, sent⟩ := becomes.quiet settled
    exact ⟨disposition, rfl, same, sent⟩
  · have allows := allowed.mpr some
    rw [if_pos allows] at reacted
    subst reacted
    exact ⟨disposition, state, fun refusal refused =>
      Dealer.isFatal_of_handle (clientMaySend_of_allows allows) refused⟩

theorem roles_are_enforced_of_caller :
    let hello (role : String) : List Json :=
      [.ofNat 1, .text "realm1", .dict [("roles", .dict [(role, .dict [])])]]
    let operations : List Operation :=
      [.connect 1, .connect 2, .handle 0 0 1 (hello "callee"), .handle 0 0 2 (hello "caller"),
        .handle 0 0 1 [.ofNat 64, .ofNat 1, .dict [], .text "sum"],
        .handle 0 0 2 [.ofNat 48, .ofNat 1, .dict [], .text "sum"]]
    let router := run {} {} none operations
    let announced := Announced {} {} none operations
    let later := (router.handle 0 0 2 [.ofNat 70, .ofNat 1, .dict []]).2
    router.dealer.calls.length = 1 ∧
      (∀ call : Call, router.dealer.calls[0]? = some call → announced call.caller .caller) ∧
      ¬ announced 2 .callee ∧ later.dealer = router.dealer ∧
      Effect.messages later.effects = Effect.messages router.effects ++
        [(2, abortion .protocolViolation "YIELD not allowed for roles [Caller]")] := by
  intro hello operations
  dsimp only
  let caller : Session :=
    { state := .established, realm := some "realm1", roles := [(.caller, [])], messages := 2 }
  have known : (run {} {} none operations).sessions.find? 2 = some caller := by decide +kernel
  have foreign : ¬ Announced {} {} none operations 2 .callee := by
    intro callee
    have role := (hasRole_iff_announced known .callee).mpr callee
    cases role
  have text : interdiction caller .yield =
      abortion .protocolViolation "YIELD not allowed for roles [Caller]" := by decide +kernel
  have reads : standard.parse [.ofNat 70, .ofNat 1, .dict []] =
      .ok ⟨.yield, [.ofNat 1, .dict []]⟩ := by decide +kernel
  have flows : ∀ flow ∈ (Message.Shape.standard .yield).flows,
      ¬ Announced {} {} none operations 2 flow.source := by
    simpa [Message.Shape.standard, Message.Shape.fromCallee] using foreign
  obtain ⟨-, calls, sessions⟩ := roles_are_enforced {} {} none operations
  obtain ⟨after, -, refused, -⟩ := sessions 2 caller known rfl 0 0 _ _ reads (by simp)
  obtain ⟨-, -, same, sent⟩ := refused flows
  rw [text] at sent
  exact ⟨by decide +kernel, fun call found => (calls 0 call found).1, foreign, same, sent⟩

end Router

end CallRouter
