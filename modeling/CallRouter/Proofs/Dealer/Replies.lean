import CallRouter.Proofs.Call.Replies
import CallRouter.Proofs.Dealer.Reach
import CallRouter.Proofs.Message.Valid

namespace CallRouter

def Message.isFinal (message : Message) : Bool :=
  message.kind == .error || message.kind == .result &&
    !((message.dict? 1).getD []).flag Dict.Key.progress

def Effect.reply? (number : Nat) : Effect → Option (Nat × Message)
  | .send session message (some call) =>
    if call = number && message.kind.isReply then some (session, message) else none
  | _ => none

namespace Dealer

open Relation

variable {peers : Peers} {operation : Operation} {dealer later : Dealer} {call : Call}

def posted (sent : List (Nat × Rpc)) : List (Nat × Message) :=
  (sent.filter fun message => message.2.isSendable).map fun message => (message.1, message.2.message)

def replies (dealer : Dealer) (number : Nat) : List (Nat × Message) :=
  dealer.effects.filterMap (Effect.reply? number)

theorem replies_mailing (number other : Nat) (sent : List (Nat × Rpc)) :
    (mailing number sent).filterMap (Effect.reply? other) =
      if number = other then posted (sent.filter fun message => message.2.kind.isReply) else [] := by
  induction sent with
  | nil => simp [posted]
  | cons message sent ih =>
    obtain ⟨session, rpc⟩ := message
    rw [mailing_cons, List.filterMap_append, ih, outgoing_eq]
    by_cases here : number = other
    · cases sendable : rpc.isSendable <;> cases about : rpc.kind.isReply <;>
        simp [posted, here, sendable, about, Effect.reply?, Rpc.message]
    · cases sendable : rpc.isSendable <;> simp [here, Effect.reply?]

theorem replies_turn (dealer : Dealer) (number : Nat) (call : Call) (event : Call.Event)
    (other : Nat) :
    (dealer.turn number call event).replies other =
      dealer.replies other ++ if number = other then posted (call.turn event).replies else [] := by
  simp only [replies, turn, List.filterMap_append, replies_mailing]
  rfl

theorem replies_aside (aside : dealer.Aside later) (number : Nat) :
    later.replies number = dealer.replies number := by
  obtain ⟨new, grown, silent⟩ := aside.effects
  have nothing : new.filterMap (Effect.reply? number) = [] := by
    rw [List.filterMap_eq_nil_iff]
    intro effect member
    cases effect with
    | publish event => rfl
    | send session message about =>
      cases about with
      | none => rfl
      | some call => exact absurd (silent session message (some call) member).1 (by simp)
  rw [replies, grown, List.filterMap_append, nothing, List.append_nil]
  rfl

theorem replies_dispatch (dispatches : Dispatches peers dealer operation call later)
    (number : Nat) : later.replies number = dealer.replies number := by
  obtain ⟨payload, grown⟩ := dispatches.effects
  have nothing : (invocations peers dealer.options call payload).filter
      (fun message => message.2.kind.isReply) = [] := by
    rw [List.filter_eq_nil_iff]
    intro message member
    obtain ⟨target, _, rfl⟩ := List.mem_map.mp member
    simp [Rpc.kind, Message.Kind.isReply]
  rw [replies, grown, List.filterMap_append, replies_mailing, nothing]
  simp [posted, replies]

theorem replies_of_linked (linked : dealer.Linked) {number : Nat}
    (unknown : dealer.calls.length ≤ number) : dealer.replies number = [] := by
  rw [replies, List.filterMap_eq_nil_iff]
  intro effect member
  cases effect with
  | publish event => rfl
  | send session message about =>
    cases about with
    | none => rfl
    | some call =>
      have other : call ≠ number := by
        have bound := linked.effects member
        omega
      simp [Effect.reply?, other]

structure Heard (call : Call) (progress : List Payload) (last : Option Rpc) : Prop where
  agreed : progress ≠ [] → call.options.receiveProgress = true
  final : ∀ rpc ∈ last, call.Final rpc
  ended : last ≠ none → call.isCompleted = true

def transcript (call : Call) (progress : List Payload) (last : Option Rpc) :
    List (Nat × Message) :=
  (progress.map call.progressReply ++ last.toList).map fun rpc => (call.caller, rpc.message)

theorem isFinal_of_final {rpc : Rpc} (final : call.Final rpc) : rpc.message.isFinal = true := by
  cases final with
  | result payload => rfl
  | error details error payload => rfl

theorem isFinal_progressReply (call : Call) (payload : Payload) :
    (call.progressReply payload).message.isFinal = false := by
  have flag : Dict.flag Dict.Key.progress [(Dict.Key.progress, .bool true)] = true := by decide
  simp [Call.progressReply, Rpc.message, Rpc.kind, Rpc.fields, Message.isFinal, Message.dict?,
    Message.field?, Json.dict?, flag]

theorem finals_transcript {last : Rpc} (final : call.Final last) (progress : List Payload) :
    (transcript call progress (some last)).filter (fun reply => reply.2.isFinal) =
      [(call.caller, last.message)] := by
  have none : (progress.map call.progressReply).filter (fun rpc => rpc.message.isFinal) = [] := by
    rw [List.filter_eq_nil_iff]
    intro rpc member
    obtain ⟨payload, _, rfl⟩ := List.mem_map.mp member
    simp [isFinal_progressReply]
  have shape : (fun reply : Nat × Message => reply.2.isFinal) ∘
      (fun rpc : Rpc => (call.caller, rpc.message)) = fun rpc => rpc.message.isFinal := rfl
  rw [transcript, List.filter_map, shape, List.filter_append, none]
  simp [isFinal_of_final final]

structure Orderly (dealer : Dealer) : Prop extends Linked dealer where
  fresh : ∀ call ∈ dealer.calls, Fresh call.origin
  sound : ∀ call ∈ dealer.calls, call.Sound
  heard : ∀ {number : Nat} {call : Call}, dealer.calls[number]? = some call →
    ∃ progress last, Heard call progress last ∧
      dealer.replies number = transcript call progress last

theorem orderly_initial (options : Options) : ({ options } : Dealer).Orderly where
  toLinked := linked_initial options
  fresh := by simp
  sound := by simp
  heard := by simp

theorem orderly_aside (orderly : dealer.Orderly) (aside : dealer.Aside later) :
    later.Orderly where
  toLinked := linked_aside orderly.toLinked aside
  fresh := aside.calls ▸ orderly.fresh
  sound := aside.calls ▸ orderly.sound
  heard := by
    intro number call found
    rw [replies_aside aside]
    exact orderly.heard (aside.calls ▸ found)

theorem posted_cons (session : Nat) (rpc : Rpc) :
    posted [(session, rpc)] = [(session, rpc.message)] ∨ posted [(session, rpc)] = [] := by
  cases sendable : rpc.isSendable <;> simp [posted, sendable]

theorem unfinished_le (call : Call) : call.unfinished ≤ call.targets.length :=
  List.countP_le_length

theorem receiveProgress_of_cause {number : Nat} {event : Call.Event} (orderly : dealer.Orderly)
    (found : dealer.calls[number]? = some call)
    (cause : Cause peers dealer number call operation event)
    (agreed : (∃ payload, event = .progress payload) ∨ 2 ≤ call.remaining) :
    call.options.receiveProgress = true := by
  have member := List.mem_of_getElem? found
  have fresh := orderly.fresh call member
  rcases agreed with ⟨payload, rfl⟩ | several
  · cases cause with
    | @progress index target _ _ _ _ _ tracks reads flag agreed opened =>
      have inside : target.origin ∈ call.origin.targets :=
        List.mem_map_of_mem (List.mem_of_getElem? tracks.located)
      exact fresh.agreed target.origin inside agreed
  · cases wanted : call.options.receiveProgress with
    | true => rfl
    | false =>
      have few := fresh.single wanted
      have balanced := (orderly.sound call member).balanced
      have count := unfinished_le call
      simp only [Call.origin, List.length_map] at few
      omega

theorem transcript_turn (call : Call) (event : Call.Event) (progress : List Payload)
    (last : Option Rpc) :
    transcript (call.turn event).call progress last = transcript call progress last := by
  have same := congrArg (fun call => transcript call progress last) (Call.origin_turn call event)
  exact same

theorem final_turn {event : Call.Event} {rpc : Rpc} (final : call.Final rpc) :
    (call.turn event).call.Final rpc := by
  have same : (call.turn event).call.request = call.request := Call.request_turn call event
  cases final with
  | result payload => exact same ▸ .result payload
  | error details error payload => exact same ▸ .error details error payload

theorem heard_of_turn {event : Call.Event} {progress : List Payload} {last : Option Rpc}
    (admits : call.Admits event) (heard : Heard call progress last) :
    Heard (call.turn event).call progress last where
  agreed := by
    intro some
    rw [Call.options_turn]
    exact heard.agreed some
  final := fun rpc last => final_turn (heard.final rpc last)
  ended := fun closed => Call.turn_isCompleted admits (heard.ended closed)

theorem heard_turn {number : Nat} {event : Call.Event} (orderly : dealer.Orderly)
    (found : dealer.calls[number]? = some call)
    (cause : Cause peers dealer number call operation event) :
    ∃ progress last, Heard (call.turn event).call progress last ∧
      dealer.replies number ++ posted (call.turn event).replies =
        transcript (call.turn event).call progress last := by
  obtain ⟨progress, last, heard, same⟩ := orderly.heard found
  have kept := heard_of_turn cause.admits heard
  -- A call that is still open has not been answered.
  have unanswered (opened : call.isCompleted = false) : last = none := by
    by_contra closed
    simp [heard.ended closed] at opened
  have hears := Call.turn_hears cause.admits
  generalize (call.turn event).replies = new at hears
  simp only [transcript_turn, same]
  cases hears with
  | silence unchanged => exact ⟨progress, last, kept, by simp [posted]⟩
  | abandonment gone => exact ⟨progress, last, kept, by simp [posted]⟩
  | progress payload opened agreed =>
    obtain rfl := unanswered (Call.opened_of_turn cause.admits opened)
    rcases posted_cons call.caller (call.progressReply payload) with sent | dropped
    · refine ⟨progress ++ [payload], none, ⟨fun _ => ?_, by simp, by simp⟩, ?_⟩
      · have wanted := receiveProgress_of_cause orderly found cause
          (agreed.imp (fun same => ⟨payload, same⟩) id)
        rw [Call.options_turn]
        exact wanted
      · rw [sent]
        simp [transcript]
    · exact ⟨progress, none, kept, by simp [dropped]⟩
  | closing rpc closing opened ended =>
    obtain rfl := unanswered opened
    rcases posted_cons call.caller rpc with sent | dropped
    · refine ⟨progress, some rpc, ⟨kept.agreed, ?_, fun _ => ended⟩, ?_⟩
      · rintro _ ⟨⟩
        exact final_turn closing.final
      · rw [sent]
        simp [transcript]
    · exact ⟨progress, none, kept, by simp [dropped]⟩

theorem orderly_turn {number : Nat} {event : Call.Event} (orderly : dealer.Orderly)
    (found : dealer.calls[number]? = some call)
    (cause : Cause peers dealer number call operation event) :
    (dealer.turn number call event).Orderly where
  toLinked := linked_turn orderly.toLinked found event
  fresh := by
    intro other member
    rcases List.mem_or_eq_of_mem_set member with before | rfl
    · exact orderly.fresh other before
    · rw [Call.origin_turn]
      exact orderly.fresh call (List.mem_of_getElem? found)
  sound := by
    intro other member
    rcases List.mem_or_eq_of_mem_set member with before | rfl
    · exact orderly.sound other before
    · exact Call.turn_sound cause.admits (orderly.sound call (List.mem_of_getElem? found))
  heard := by
    intro other holder held
    rw [replies_turn]
    rw [getElem?_turn found] at held
    by_cases here : number = other
    · subst here
      obtain rfl : (call.turn event).call = holder := by simpa using held
      rw [if_pos rfl]
      exact heard_turn orderly found cause
    · rw [if_neg here] at held
      rw [if_neg here, List.append_nil]
      exact orderly.heard held

theorem orderly_move (orderly : dealer.Orderly) (move : Move peers operation dealer later) :
    later.Orderly := by
  cases move with
  | aside aside => exact orderly_aside orderly aside
  | turn found cause => exact orderly_turn orderly found cause
  | retire closing =>
    exact
      { toLinked := linked_retire orderly.toLinked _
        fresh := orderly.fresh
        sound := orderly.sound
        heard := orderly.heard }

theorem orderly_moves (orderly : dealer.Orderly) (moves : Moves peers operation dealer later) :
    later.Orderly := by
  induction moves with
  | refl => exact orderly
  | tail _ move ih => exact orderly_move ih move

theorem orderly_dispatch (orderly : dealer.Orderly)
    (dispatches : Dispatches peers dealer operation call later) : later.Orderly where
  toLinked := dispatches.linked orderly.toLinked
  fresh := by
    intro other member
    rw [dispatches.calls, List.mem_append, List.mem_singleton] at member
    rcases member with before | rfl
    · exact orderly.fresh other before
    · exact dispatches.fresh.origin.symm ▸ dispatches.fresh
  sound := by
    intro other member
    rw [dispatches.calls, List.mem_append, List.mem_singleton] at member
    rcases member with before | rfl
    · exact orderly.sound other before
    · exact dispatches.fresh.sound
  heard := by
    intro number other found
    rw [replies_dispatch dispatches]
    rw [dispatches.calls] at found
    by_cases before : number < dealer.calls.length
    · rw [List.getElem?_append_left before] at found
      exact orderly.heard found
    · have unknown := Nat.le_of_not_lt before
      exact ⟨[], none, ⟨by simp, by simp, by simp⟩, replies_of_linked orderly.toLinked unknown⟩

theorem orderly_step (orderly : dealer.Orderly) (peers : Peers) (operation : Operation) :
    (dealer.step peers operation).Orderly := by
  rcases step_cases orderly.toLinked peers operation with moves | ⟨call, dispatches⟩
  · exact orderly_moves orderly moves
  · exact orderly_dispatch orderly dispatches

theorem orderly_run (peers : Peers) (options : Options) (operations : List Operation) :
    (run peers options operations).Orderly := by
  induction operations using List.reverseRecOn with
  | nil => exact orderly_initial options
  | append_singleton operations operation ih =>
    rw [run_concat]
    exact orderly_step ih peers operation

theorem callOptions_receiveProgress {caller : Nat} {options : Dict} {terms : Call.Options}
    (agreed : callOptions peers caller options = .ok terms) :
    terms.receiveProgress = (options.flag Dict.Key.receiveProgress &&
      peers.supports caller .caller Feature.progressiveCallResults) := by
  cases timed : timeoutOf options with
  | error refusal => simp [callOptions, timed, bind, Except.bind] at agreed
  | ok timeout =>
    simp only [callOptions, timed, bind, Except.bind, pure, Except.pure] at agreed
    rw [← Except.ok.inj agreed]

/--
For a CALL that is dispatched at some point of a run, its caller hears any number of results that
are progress, then at most one last message, and then nothing. Progress comes only if the CALL asked
for it and its caller announced that it can deal with it.
-/
theorem replies_to_dispatched_call (peers : Peers) (options : Options)
    (before after : List Operation) {now : Time} {draw caller request : Nat} {message : Message}
    {requested : Dict} {uri : String} {payload : Payload}
    (reads : Rpc.ofMessage message = .ok (.call request requested uri payload))
    (dispatched : (run peers options (before ++ [.handle now draw caller message])).calls.length ≠
      (run peers options before).calls.length) :
    ∃ (progress : List Payload) (last : Option Rpc),
      (run peers options (before ++ .handle now draw caller message :: after)).replies
          (run peers options before).calls.length =
        (progress.map (Rpc.result request [(Dict.Key.progress, .bool true)]) ++ last.toList).map
          (fun rpc => (caller, rpc.message)) ∧
      (∀ rpc ∈ last, (∃ payload, rpc = .result request [] payload) ∨
        ∃ details error payload, rpc = .error .call request details error payload) ∧
      (progress ≠ [] → requested.flag Dict.Key.receiveProgress = true ∧
        peers.supports caller .caller Feature.progressiveCallResults = true) := by
  have linked := linked_run peers options before
  rw [run_concat] at dispatched
  obtain ⟨call, dispatches⟩ := dispatches_of_length linked dispatched
  obtain ⟨now', draw', message', requested', payload', same, reads', agreed⟩ := dispatches.request
  obtain ⟨rfl, rfl, rfl, rfl⟩ := Operation.handle.inj same
  rw [reads] at reads'
  obtain ⟨rfl, rfl, rfl, rfl⟩ := Rpc.call.inj (Except.ok.inj reads')
  have placed : (run peers options (before ++ [.handle now draw call.caller message])).calls[
      (run peers options before).calls.length]? = some call := by
    rw [run_concat, dispatches.calls]
    simp
  obtain ⟨ended, found, origin, -⟩ :=
    persists_run peers options (before ++ [.handle now draw call.caller message]) after placed
  rw [List.append_assoc, List.singleton_append] at found
  obtain ⟨progress, last, heard, replies⟩ := (orderly_run peers options _).heard found
  have caller : ended.caller = call.caller := by simpa using congrArg Call.caller origin
  have request : ended.request = call.request := by simpa using congrArg Call.request origin
  have terms : ended.options = call.options := by simpa using congrArg Call.options origin
  refine ⟨progress, last, ?_, ?_, ?_⟩
  · have same : ended.progressReply =
        Rpc.result call.request [(Dict.Key.progress, .bool true)] := by
      funext payload
      rw [Call.progressReply, request]
    rw [replies, transcript, caller, same]
  · intro rpc member
    have final := heard.final rpc member
    cases final with
    | result payload => exact .inl ⟨payload, by rw [request]⟩
    | error details error payload => exact .inr ⟨details, error, payload, by rw [request]⟩
  · intro some
    have wanted := heard.agreed some
    rw [terms, callOptions_receiveProgress agreed] at wanted
    exact Bool.and_eq_true_iff.mp wanted

theorem replies_to_progressive_call :
    let before : List Operation := [.handle 0 0 1 ⟨.register, [.ofNat 1, .dict [], .text "sum"]⟩]
    let requested : Dict := [(Dict.Key.receiveProgress, .bool true)]
    let message : Message := ⟨.call, [.ofNat 7, .dict requested, .text "sum"]⟩
    let after : List Operation :=
      [.handle 0 0 1 ⟨.yield, [.ofNat 1, .dict [(Dict.Key.progress, .bool true)]]⟩,
        .handle 0 0 1 ⟨.yield, [.ofNat 1, .dict []]⟩]
    let replies := (run obliging {} (before ++ .handle 0 0 2 message :: after)).replies
      (run obliging {} before).calls.length
    replies = [(2, ⟨.result, [.ofNat 7, .dict [(Dict.Key.progress, .bool true)]]⟩),
      (2, ⟨.result, [.ofNat 7, .dict []]⟩)] ∧
    ∃ (progress : List Payload) (last : Option Rpc),
      replies = (progress.map (Rpc.result 7 [(Dict.Key.progress, .bool true)]) ++ last.toList).map
        (fun rpc => (2, rpc.message)) ∧
      (∀ rpc ∈ last, (∃ payload, rpc = .result 7 [] payload) ∨
        ∃ details error payload, rpc = .error .call 7 details error payload) ∧
      (progress ≠ [] → requested.flag Dict.Key.receiveProgress = true ∧
        obliging.supports 2 .caller Feature.progressiveCallResults = true) := by
  intro before requested message after replies
  have reads : Rpc.ofMessage message = .ok (.call 7 requested "sum" .empty) := rfl
  have dispatched : (run obliging {} (before ++ [.handle 0 0 2 message])).calls.length ≠
      (run obliging {} before).calls.length := by decide +kernel
  exact ⟨by decide +kernel, replies_to_dispatched_call obliging {} before after reads dispatched⟩

end Dealer

end CallRouter
