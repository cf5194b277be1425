import CallRouter.Proofs.Dealer.Isolation
import CallRouter.Proofs.Dealer.Undisturbed

namespace CallRouter.Dealer

open Relation

variable {peers : Peers} {options : Options} {operation : Operation} {dealer later : Dealer}
  {operations more : List Operation} {call : Call} {number : Nat}

theorem posted_of_sendable {sent : List (Nat × Rpc)}
    (sendable : ∀ entry ∈ sent, entry.2.isSendable = true) :
    posted sent = sent.map fun entry => (entry.1, entry.2.message) := by
  rw [posted, List.filter_eq_self.mpr sendable]

theorem replies_of_turn {event : Call.Event} {rpc : Rpc}
    (replies : (call.turn event).replies = [(call.caller, rpc)]) (sendable : rpc.isSendable = true) :
    (dealer.turn number call event).replies number =
      dealer.replies number ++ [(call.caller, rpc.message)] := by
  rw [replies_turn, if_pos rfl, replies, posted_of_sendable (by simpa using sendable)]
  rfl

section Completed

theorem replies_of_done (linked : dealer.Linked) (found : dealer.calls[number]? = some call)
    (done : call.isCompleted = true) :
    (dealer.step peers operation).replies number = dealer.replies number := by
  rcases step_cases linked peers operation with moves | ⟨other, dispatches⟩
  · generalize dealer.step peers operation = later at moves
    induction moves with
    | refl => rfl
    | @tail middle later before move ih =>
      rw [← ih]
      cases move with
      | aside aside => exact replies_aside aside number
      | retire closing => rfl
      | @turn other holder event held cause =>
        rw [replies_turn]
        by_cases here : other = number
        · subst here
          obtain ⟨after, also, -, ended, -⟩ := persists_moves before found
          obtain rfl : holder = after := Option.some.inj (held.symm.trans also)
          rw [Call.replies_of_completed cause.admits (ended done)]
          simp [posted]
        · rw [if_neg here, List.append_nil]
  · exact replies_dispatch dispatches number

theorem replies_run_of_done (found : (run peers options operations).calls[number]? = some call)
    (done : call.isCompleted = true) (more : List Operation) :
    (run peers options (operations ++ more)).replies number =
      (run peers options operations).replies number := by
  induction more using List.reverseRecOn with
  | nil => rw [List.append_nil]
  | append_singleton more operation ih =>
    obtain ⟨after, also, -, ended, -⟩ := persists_run peers options operations more found
    rw [← List.append_assoc, run_concat,
      replies_of_done (linked_run peers options _) also (ended done), ih]

end Completed

section Apart

theorem keys_of_moves (moves : Moves peers operation dealer later)
    (apart : ∀ call ∈ dealer.calls, (call.targets.map Call.Target.key).Nodup) :
    ∀ call ∈ later.calls, (call.targets.map Call.Target.key).Nodup := by
  intro call member
  obtain ⟨number, found⟩ := List.mem_iff_getElem?.mp member
  obtain ⟨before, there, same, -⟩ := before_moves moves found
  rw [Call.keys_of_origin same]
  exact apart before (List.mem_of_getElem? there)

theorem keys_apart_run (fresh : RunsFresh peers options operations) :
    ∀ call ∈ (run peers options operations).calls, (call.targets.map Call.Target.key).Nodup := by
  induction operations using List.reverseRecOn with
  | nil => simp [run]
  | append_singleton operations operation ih =>
    obtain ⟨earlier, drawn⟩ := runsFresh_concat fresh
    rw [run_concat]
    rcases step_cases (linked_run peers options operations) peers operation with
      moves | ⟨call, dispatches⟩
    · exact keys_of_moves moves (ih earlier)
    · intro other member
      rw [dispatches.calls, List.mem_append, List.mem_singleton] at member
      rcases member with before | rfl
      · exact ih earlier other before
      · exact (drawn other (by simp [dispatches.calls])).1

theorem runsFresh_append (fresh : RunsFresh peers options (operations ++ more)) :
    RunsFresh peers options operations := by
  induction more using List.reverseRecOn with
  | nil => rwa [List.append_nil] at fresh
  | append_singleton more operation ih =>
    rw [← List.append_assoc] at fresh
    exact ih (runsFresh_concat fresh).1

end Apart

structure Relays (number : Nat) (call after : Call) (heard : List ((Nat × Nat) × Call.Answer))
    (told : List Rpc) (dealer later : Dealer) : Prop where
  found : later.calls[number]? = some after
  origin : after.origin = call.origin
  replies : later.replies number =
    dealer.replies number ++ told.map fun rpc => (call.caller, rpc.message)
  relay : ∀ answers, call.relay call.waiting (heard ++ answers) =
    told ++ if after.isCompleted then [] else after.relay after.waiting answers
  ended : after.isCompleted = true ↔ ∃ rpc ∈ told, call.Final rpc

section Step

variable {heard rest : List ((Nat × Nat) × Call.Answer)} {told last : List Rpc} {after : Call}
  {final : Dealer} {index : Nat} {target : Call.Target}

theorem relays_spared (found : dealer.calls[number]? = some call)
    (opened : call.isCompleted = false) (spares : Spares number dealer later)
    (late : ∀ entry ∈ heard, entry.1 ∉ call.waiting) :
    Relays number call call heard [] dealer later where
  found := spares.same.trans found
  origin := rfl
  replies := by rw [spares.silent, List.map_nil, List.append_nil]
  relay := by
    intro answers
    rw [opened]
    induction heard with
    | nil => rfl
    | cons entry heard ih =>
      obtain ⟨key, answer⟩ := entry
      rw [List.cons_append, Call.relay_of_late (late _ List.mem_cons_self)]
      exact ih fun other member => late other (List.mem_cons_of_mem _ member)
  ended := by simp [opened]

theorem Relays.of_done (relays : Relays number call after heard told dealer later)
    (done : after.isCompleted = true) (rest : List ((Nat × Nat) × Call.Answer))
    (persists : later.Persists final)
    (silent : final.replies number = later.replies number) :
    ∃ last, Relays number call last (heard ++ rest) told dealer final := by
  obtain ⟨last, found, origin, ended, -⟩ := persists relays.found
  refine ⟨last, found, origin.trans relays.origin, silent.trans relays.replies,
    fun answers => ?_, ?_⟩
  · rw [List.append_assoc, relays.relay, done, ended done]
    rfl
  · exact iff_of_true (ended done) (relays.ended.mp done)

theorem final_of_origin (same : after.origin = call.origin) (rpc : Rpc) :
    after.Final rpc ↔ call.Final rpc := by
  have request : after.request = call.request := by simpa using congrArg Call.request same
  constructor <;>
  · intro final
    cases final with
    | result payload => exact request ▸ .result payload
    | error details error payload => exact request ▸ .error details error payload

theorem Relays.trans {final : Dealer} {ended : Call}
    (first : Relays number call after heard told dealer later)
    (opened : after.isCompleted = false)
    (second : Relays number after ended rest last later final) :
    Relays number call ended (heard ++ rest) (told ++ last) dealer final where
  found := second.found
  origin := second.origin.trans first.origin
  replies := by
    have caller : after.caller = call.caller := by simpa using congrArg Call.caller first.origin
    rw [second.replies, first.replies, caller, List.map_append, List.append_assoc]
  relay := by
    intro answers
    rw [List.append_assoc, first.relay, opened, List.append_assoc, ← second.relay]
    rfl
  ended := by
    have before : ¬ ∃ rpc ∈ told, call.Final rpc := by
      rw [← first.ended, opened]
      exact Bool.false_ne_true
    simp only [second.ended, List.mem_append, or_and_right, exists_or, before, false_or,
      final_of_origin first.origin]

theorem relays_ignored (found : dealer.calls[number]? = some call)
    (opened : call.isCompleted = false) {key : Nat × Nat} (unheard : call.agrees key = false)
    (payload : Payload) :
    Relays number call call [(key, .progress payload)] [] dealer dealer where
  found := found
  origin := rfl
  replies := by simp
  relay := by
    intro answers
    rw [List.singleton_append, Call.relay, opened]
    split <;> simp [unheard]
  ended := by simp [opened]

theorem relays_turn (event : Call.Event) {key : Nat × Nat} {answer : Call.Answer} {rpc : Rpc}
    (found : dealer.calls[number]? = some call)
    (replies : (call.turn event).replies = [(call.caller, rpc)]) (sendable : rpc.isSendable = true)
    (relay : ∀ answers, call.relay call.waiting ((key, answer) :: answers) =
      rpc :: if (call.turn event).call.isCompleted then []
        else call.relay (call.turn event).call.waiting answers)
    (ended : (call.turn event).call.isCompleted = true ↔ call.Final rpc) :
    Relays number call (call.turn event).call [(key, answer)] [rpc] dealer
      (dealer.turn number call event) where
  found := by rw [getElem?_turn found, if_pos rfl]
  origin := Call.origin_turn call event
  replies := replies_of_turn replies sendable
  relay := by
    intro answers
    simp only [Call.relay_of_origin (Call.origin_turn call event)]
    exact relay answers
  ended := by simpa using ended

variable (ids : call.ValidIds) (sound : call.Sound)
  (apart : (call.targets.map Call.Target.key).Nodup)
  (found : dealer.calls[number]? = some call) (opened : call.isCompleted = false)
  (located : call.targets[index]? = some target) (left : target.state.isFinished = false)

include ids found opened located left

theorem relays_progress (apart : (call.targets.map Call.Target.key).Nodup)
    (agreed : target.progressive = true) (payload : Payload) :
    Relays number call call [(target.key, .progress payload)] [call.progressReply payload] dealer
      (dealer.turn number call (.progress payload)) := by
  refine relays_turn (.progress payload) found (Call.replies_of_sent rfl rfl)
    (Rpc.isSendable_result ids.request _ payload) (fun answers => ?_) ?_
  · have waits : target.key ∈ call.waiting :=
      Call.mem_waiting.mpr ⟨index, target, located, left, rfl⟩
    rw [Call.relay, if_pos waits, Call.agrees_iff apart located, agreed]
    simp [Call.turn, opened]
  · exact iff_of_false (by simp [Call.turn, opened]) Call.not_final_progressReply

theorem relays_failure {error : String} (named : Uri.isValid error = true) (details : Dict)
    (payload : Payload) :
    Relays number call (call.turn (.failure index details error payload)).call
      [(target.key, .failure details error payload)]
      [.error .call call.request details error payload] dealer
      (dealer.turn number call (.failure index details error payload)) := by
  have done := Call.completed_failure opened index details error payload
  refine relays_turn _ found (Call.replies_failure opened index details error payload)
    (Rpc.isSendable_error ids.request named .call _ _) (fun answers => ?_) ?_
  · have waits : target.key ∈ call.waiting :=
      Call.mem_waiting.mpr ⟨index, target, located, left, rfl⟩
    rw [Call.relay, if_pos waits, done]
    rfl
  · exact iff_of_true done (.error details error payload)

include sound apart

theorem relays_result (payload : Payload) (elapsed : Nat) :
    ∃ told, Relays number call (call.turn (.result index payload elapsed)).call
      [(target.key, .result payload)] told dealer
      (dealer.turn number call (.result index payload elapsed)) := by
  have waits : target.key ∈ call.waiting :=
    Call.mem_waiting.mpr ⟨index, target, located, left, rfl⟩
  have replies := Call.replies_result opened index payload elapsed
  have completed := Call.completed_result opened index payload elapsed
  have waiting := Call.waiting_result apart located left payload elapsed
  have last := Call.last_iff sound located left
  by_cases more : 0 < call.remaining - 1
  · rw [if_pos more] at replies
    have going : (call.turn (.result index payload elapsed)).call.isCompleted = false := by
      simpa [more] using completed
    refine ⟨_, relays_turn _ found replies (Rpc.isSendable_result ids.request _ payload)
      (fun answers => ?_) ?_⟩
    · rw [Call.relay, if_pos waits, going, waiting]
      simp [last, more]
    · exact iff_of_false (by simp [going]) Call.not_final_progressReply
  · rw [if_neg more] at replies
    have done := completed.mpr more
    refine ⟨_, relays_turn _ found replies (Rpc.isSendable_result ids.request _ payload)
      (fun answers => ?_) ?_⟩
    · rw [Call.relay, if_pos waits, done]
      simp [last, more]
    · exact iff_of_true done (.result payload)

end Step

section Run

def Undisturbed (peers : Peers) (options : Options) (operations more : List Operation)
    (number : Nat) : Prop :=
  ∀ count operation, more[count]? = some operation →
    let dealer := run peers options (operations ++ more.take count)
    ∀ call, dealer.calls[number]? = some call → call.isCompleted = false →
      ¬ dealer.Quits number call operation ∧ ¬ Lapses peers dealer number call operation

theorem Speaks.named {key : Nat × Nat} {details : Dict} {error : String} {payload : Payload}
    (speaks : Speaks key operation (.failure details error payload)) (valid : operation.IsValid) :
    Uri.isValid error = true := by
  cases speaks with
  | failure reads => exact Rpc.isValid_of_error valid reads

theorem relays_step (awaiting : dealer.Awaiting) (ids : dealer.ValidIds)
    (apart : ∀ call ∈ dealer.calls, (call.targets.map Call.Target.key).Nodup)
    (valid : operation.IsValid) (found : dealer.calls[number]? = some call)
    (opened : call.isCompleted = false) (stays : ¬ dealer.Quits number call operation)
    (timely : ¬ Lapses peers dealer number call operation) :
    ∃ after told, Relays number call after operation.answer?.toList told dealer
      (dealer.step peers operation) := by
  have member := List.mem_of_getElem? found
  cases spoken : operation.answer? with
  | none =>
    have spares := spares_step awaiting.toLinked found stays timely fun key answer speaks => by
      rw [answer?_eq_some_iff.mpr speaks] at spoken
      cases spoken
    exact ⟨call, [], relays_spared found opened spares (by simp)⟩
  | some said =>
    obtain ⟨key, answer⟩ := said
    have speaks := answer?_eq_some_iff.mp spoken
    by_cases waits : key ∈ call.waiting
    · obtain ⟨index, target, located, left, rfl⟩ := Call.mem_waiting.mp waits
      have tracks : dealer.Tracks number call index target :=
        ⟨awaiting.awaited found opened located left, located, left⟩
      have keys := apart call member
      have answered := speaks.answered found tracks peers
      generalize dealer.step peers operation = later at answered
      cases answered with
      | ignored unheard =>
        have unagreed : call.agrees target.key = false := by
          rw [Call.agrees_iff keys located]
          exact unheard.resolve_right (by simp [opened])
        exact ⟨call, [], relays_ignored found opened unagreed _⟩
      | progress agreed =>
        exact ⟨call, _, relays_progress (ids.calls call member) found opened located left keys
          agreed _⟩
      | result elapsed =>
        exact ⟨_, relays_result (ids.calls call member) (awaiting.sound call member) keys found
          opened located left _ elapsed⟩
      | failure =>
        exact ⟨_, _, relays_failure (ids.calls call member) found opened located left
          (speaks.named valid) _ _⟩
    · have spares : Spares number dealer (dealer.step peers operation) := by
        refine spares_answer awaiting.toLinked speaks fun index tracked => waits ?_
        obtain ⟨holder, target, held, tracks, same⟩ := awaiting.tracked tracked
        obtain rfl : call = holder := Option.some.inj (found.symm.trans held)
        exact Call.mem_waiting.mpr ⟨index, target, tracks.located, tracks.left, same⟩
      exact ⟨call, [], relays_spared found opened spares (by simpa using waits)⟩

theorem relays_run
    (draws : ∀ session count, isValidId (peers.requestId session count) = true)
    (valid : ∀ operation ∈ operations ++ more, operation.IsValid)
    (fresh : RunsFresh peers options (operations ++ more))
    (found : (run peers options operations).calls[number]? = some call)
    (opened : call.isCompleted = false)
    (undisturbed : Undisturbed peers options operations more number) :
    ∃ after told, Relays number call after (more.filterMap Operation.answer?) told
      (run peers options operations) (run peers options (operations ++ more)) := by
  induction more generalizing operations call with
  | nil =>
    rw [List.append_nil]
    exact ⟨call, [], relays_spared found opened (spares_refl _ _) (by simp)⟩
  | cons operation more ih =>
    have split : operations ++ operation :: more = (operations ++ [operation]) ++ more := by simp
    have heard : (operation :: more).filterMap Operation.answer? =
        operation.answer?.toList ++ more.filterMap Operation.answer? := by
      cases spoken : operation.answer? <;> simp [spoken]
    have early := runsFresh_append fresh
    obtain ⟨stays, timely⟩ := undisturbed 0 operation rfl call (by simpa using found) opened
    rw [List.take_zero, List.append_nil] at stays timely
    have ids := validIds_run draws options operations fun other member =>
      valid other (List.mem_append_left _ member)
    obtain ⟨middle, told, first⟩ := relays_step (awaiting_run peers options operations early) ids
      (keys_apart_run early) (valid operation (by simp)) found opened stays timely
    rw [← run_concat] at first
    rw [split, heard]
    cases done : middle.isCompleted with
    | true =>
      obtain ⟨last, relays⟩ := first.of_done done (more.filterMap Operation.answer?)
        (persists_run peers options (operations ++ [operation]) more)
        (replies_run_of_done first.found done more)
      exact ⟨last, told, relays⟩
    | false =>
      rw [split] at valid fresh
      obtain ⟨after, last, second⟩ := ih valid fresh first.found done fun count next there => by
        have later := undisturbed (count + 1) next there
        rwa [List.take_succ_cons, ← List.singleton_append, ← List.append_assoc] at later
      exact ⟨after, told ++ last, first.trans done second⟩

theorem Dispatches.progressive (dispatches : Dispatches peers dealer operation call later)
    {target : Call.Target} (member : target ∈ call.targets) :
    target.progressive = (call.options.receiveProgress &&
      peers.supports target.callee .callee Feature.progressiveCallResults) := by
  cases dispatches with
  | @dispatch _ _ _ _ _ _ _ _ terms _ registrations chosen reads valid agreed resolved choice any =>
    have serve := drawTargets_serve peers terms.receiveProgress chosen registrations
    obtain ⟨registration, -, serves⟩ := serves_of_mem serve member
    rw [Serves] at serves
    rw [serves]
    rfl

/-- What cannot disturb a call, however far that is: no CANCEL, and nobody who takes part in it. -/
def Operation.IsHarmless (call : Call) : Operation → Prop
  | .handle _ _ _ message => message.kind ≠ .cancel
  | .checkTimeout now _ => call.isOverdue now = false
  | .closeSession session => ¬ call.HasParty session

theorem undisturbed_of_harmless (found : (run peers options operations).calls[number]? = some call)
    (harmless : ∀ operation ∈ more, operation.IsHarmless call) :
    Undisturbed peers options operations more number := by
  intro count operation there dealer holder held opened
  obtain ⟨after, also, origin, -⟩ :=
    persists_run peers options operations (more.take count) found
  obtain rfl : holder = after := Option.some.inj (held.symm.trans also)
  have calm := harmless operation (List.mem_of_getElem? there)
  constructor
  · intro quits
    cases quits with
    | cancellation reads => exact calm (Rpc.kind_of_ofMessage reads).symm
    | loss tracks =>
      exact calm ((Call.hasParty_of_origin origin).mp
        (.inr ⟨_, List.mem_of_getElem? tracks.located, rfl⟩))
    | abandonment => exact calm ((Call.hasParty_of_origin origin).mp (.inl rfl))
  · intro lapses
    cases lapses with
    | @timeout now index target tracks due =>
      have same := congrArg (fun call => call.isOverdue now) origin
      have late : call.isOverdue now = true := same.symm.trans (Call.isDue_iff.mp due).2.1
      rw [show call.isOverdue now = false from calm] at late
      cases late

theorem dispatches_of_call {now : Time} {draw caller request : Nat} {message : Message}
    {requested : Dict} {uri : String} {payload : Payload} (linked : dealer.Linked)
    (reads : Rpc.ofMessage message = .ok (.call request requested uri payload))
    (dispatched : (dealer.step peers (.handle now draw caller message)).calls.length ≠
      dealer.calls.length) :
    ∃ call, Dispatches peers dealer (.handle now draw caller message) call
        (dealer.step peers (.handle now draw caller message)) ∧
      call.caller = caller ∧ call.request = request ∧
      callOptions peers caller requested = .ok call.options := by
  obtain ⟨call, dispatches⟩ := dispatches_of_length linked dispatched
  obtain ⟨now', draw', message', requested', payload', same, reads', agreed⟩ := dispatches.request
  obtain ⟨rfl, rfl, rfl, rfl⟩ := Operation.handle.inj same
  obtain ⟨request, rfl, -, -⟩ := Rpc.call.inj (Except.ok.inj (reads.symm.trans reads'))
  exact ⟨call, dispatches, rfl, request.symm, agreed⟩

/--
While the caller of a call does not cancel it, its time is not over and no session that takes part in
it closes, the caller hears of each result when it is there, and of each piece of progress that was
agreed upon, in the order in which they come and with what they carry. All are progress but the last
result, which ends the call when no target is left.
-/
theorem results_are_relayed (peers : Peers) (options : Options) (before after : List Operation)
    {now : Time} {draw caller request : Nat} {message : Message} {requested : Dict} {uri : String}
    {payload : Payload}
    (draws : ∀ session count, isValidId (peers.requestId session count) = true)
    (valid : ∀ operation ∈ before ++ .handle now draw caller message :: after, operation.IsValid)
    (fresh : RunsFresh peers options (before ++ .handle now draw caller message :: after))
    (reads : Rpc.ofMessage message = .ok (.call request requested uri payload))
    (dispatched : (run peers options (before ++ [.handle now draw caller message])).calls.length ≠
      (run peers options before).calls.length)
    (undisturbed : Undisturbed peers options (before ++ [.handle now draw caller message]) after
      (run peers options before).calls.length) :
    let number := (run peers options before).calls.length
    let dealer := run peers options (before ++ .handle now draw caller message :: after)
    let answers := after.filterMap Operation.answer?
    ∃ call ended,
      (run peers options (before ++ [.handle now draw caller message])).calls[number]? = some call ∧
      call.caller = caller ∧ call.request = request ∧ call.targets ≠ [] ∧
      (∀ target ∈ call.targets, target.progressive = (requested.flag Dict.Key.receiveProgress &&
        peers.supports caller .caller Feature.progressiveCallResults &&
        peers.supports target.callee .callee Feature.progressiveCallResults)) ∧
      dealer.calls[number]? = some ended ∧
      let keys := call.targets.map Call.Target.key
      let told := call.relay keys answers
      dealer.replies number = told.map (fun rpc => (caller, rpc.message)) ∧
      (ended.isCompleted = true ↔ ∃ rpc ∈ told, call.Final rpc) ∧
      ((∀ key ∈ keys, ∀ details error payload,
          (key, Call.Answer.failure details error payload) ∉ answers) →
        (ended.isCompleted = true ↔
          ∀ key ∈ keys, ∃ payload, (key, Call.Answer.result payload) ∈ answers)) := by
  intro number dealer answers
  have linked := linked_run peers options before
  rw [run_concat] at dispatched
  obtain ⟨call, dispatches, rfl, rfl, agreed⟩ := dispatches_of_call linked reads dispatched
  have split : before ++ .handle now draw call.caller message :: after =
      (before ++ [.handle now draw call.caller message]) ++ after := by simp
  have placed : (run peers options (before ++ [.handle now draw call.caller message])).calls[
      number]? = some call := by
    rw [run_concat, dispatches.calls]
    simp [number]
  have unheard : (run peers options (before ++ [.handle now draw call.caller message])).replies
      number = [] := by
    rw [run_concat, replies_dispatch dispatches]
    exact replies_of_linked linked (Nat.le_refl _)
  have created := dispatches.fresh
  have waiting := Call.waiting_of_active created.active
  rw [split] at valid fresh
  obtain ⟨ended, told, relays⟩ := relays_run draws valid fresh placed created.opened undisturbed
  have all : call.relay (call.targets.map Call.Target.key) answers = told := by
    have law := relays.relay []
    rw [waiting, List.append_nil] at law
    rw [law]
    split <;> simp [Call.relay]
  have apart := keys_apart_run (runsFresh_append fresh) call (List.mem_of_getElem? placed)
  refine ⟨call, ended, placed, rfl, rfl, created.targeted, ?_, ?_, ?_, ?_, ?_⟩
  · intro target member
    rw [dispatches.progressive member, callOptions_receiveProgress agreed]
  · simp only [dealer, split]
    exact relays.found
  · simp only [dealer, split, all]
    rw [relays.replies, unheard, List.nil_append]
  · rw [all]
    exact relays.ended
  · intro unfailing
    rw [relays.ended, ← all]
    exact Call.final_relay_iff (by simpa using created.targeted) apart unfailing

theorem results_are_relayed_of_shared_call :
    let shared : Dict := [("invoke", .text "random")]
    let piece : Dict := [(Dict.Key.progress, .bool true)]
    let before : List Operation :=
      [.handle 0 0 1 ⟨.register, [.ofNat 1, .dict shared, .text "sum"]⟩,
        .handle 0 0 3 ⟨.register, [.ofNat 1, .dict shared, .text "sum"]⟩,
        .handle 0 0 3 ⟨.register, [.ofNat 2, .dict [], .text "mul"]⟩]
    let message : Message :=
      ⟨.call, [.ofNat 7, .dict [(Dict.Key.receiveProgress, .bool true)], .text "sum"]⟩
    let after : List Operation :=
      [.handle 0 0 3 ⟨.yield, [.ofNat 1, .dict [], .list [.ofNat 5]]⟩,
        .handle 0 0 9 ⟨.call, [.ofNat 1, .dict [], .text "mul"]⟩,
        .handle 0 0 3 ⟨.yield, [.ofNat 1, .dict []]⟩,
        .handle 0 0 1 ⟨.yield, [.ofNat 1, .dict piece, .list [.ofNat 6]]⟩,
        .closeSession 9,
        .handle 0 0 1 ⟨.yield, [.ofNat 1, .dict []]⟩]
    let number := (run obliging {} before).calls.length
    let dealer := run obliging {} (before ++ .handle 0 0 2 message :: after)
    (∀ operation ∈ before ++ .handle 0 0 2 message :: after, operation.IsValid) ∧
    RunsFresh obliging {} (before ++ .handle 0 0 2 message :: after) ∧
    Undisturbed obliging {} (before ++ [.handle 0 0 2 message]) after number ∧
    dealer.replies number =
      [(2, ⟨.result, [.ofNat 7, .dict piece, .list [.ofNat 5]]⟩),
        (2, ⟨.result, [.ofNat 7, .dict piece, .list [.ofNat 6]]⟩),
        (2, ⟨.result, [.ofNat 7, .dict []]⟩)] ∧
    ∃ call ended : Call, call.targets.length = 2 ∧ dealer.calls[number]? = some ended ∧
      dealer.replies number =
        (call.relay (call.targets.map Call.Target.key) (after.filterMap Operation.answer?)).map
          (fun rpc => (2, rpc.message)) ∧
      ended.isCompleted = true := by
  intro shared piece before message after number dealer
  have valid : ∀ operation ∈ before ++ .handle 0 0 2 message :: after, operation.IsValid := by
    simp only [before, after, List.cons_append, List.nil_append, List.forall_mem_cons,
      List.not_mem_nil, false_imp_iff, implies_true, and_true]
    exact ⟨rfl, rfl, rfl, rfl, rfl, rfl, rfl, rfl, trivial, rfl⟩
  have fresh : RunsFresh obliging {} (before ++ .handle 0 0 2 message :: after) := by
    decide +kernel
  have dispatched : (run obliging {} (before ++ [.handle 0 0 2 message])).calls.length ≠
      (run obliging {} before).calls.length := by decide +kernel
  have parties : (run obliging {} (before ++ [.handle 0 0 2 message])).calls[number]?.any
      (fun call => call.caller = 2 && call.targets.map Call.Target.key = [(1, 1), (3, 1)]) =
        true := by
    decide +kernel
  obtain ⟨first, placed, both⟩ := (Option.any_eq_true _ _).mp parties
  simp only [Bool.and_eq_true, decide_eq_true_eq] at both
  have undisturbed :
      Undisturbed obliging {} (before ++ [.handle 0 0 2 message]) after number := by
    have apart : ¬ first.HasParty 9 := by
      rw [Call.HasParty, both.1]
      rintro (same | ⟨target, member, same⟩)
      · cases same
      · have key := List.mem_map_of_mem (f := Call.Target.key) member
        simp [both.2, Call.Target.key, same] at key
    refine undisturbed_of_harmless placed ?_
    simp [after, Operation.IsHarmless, apart]
  have replies : dealer.replies number =
      [(2, ⟨.result, [.ofNat 7, .dict piece, .list [.ofNat 5]]⟩),
        (2, ⟨.result, [.ofNat 7, .dict piece, .list [.ofNat 6]]⟩),
        (2, ⟨.result, [.ofNat 7, .dict []]⟩)] := by decide +kernel
  have reads : Rpc.ofMessage message =
      .ok (.call 7 [(Dict.Key.receiveProgress, .bool true)] "sum" .empty) := rfl
  obtain ⟨call, ended, created, -, -, -, -, found, relayed, -, completed⟩ :=
    results_are_relayed obliging {} before after (fun _ count => isValidId_requestIdAfter count)
      valid fresh reads dispatched undisturbed
  obtain rfl : call = first := Option.some.inj (created.symm.trans placed)
  have answered : after.filterMap Operation.answer? =
      [((3, 1), .result ⟨some [.ofNat 5], none⟩), ((3, 1), .result .empty),
        ((1, 1), .progress ⟨some [.ofNat 6], none⟩), ((1, 1), .result .empty)] := rfl
  have length : call.targets.length = 2 := by
    simpa using congrArg List.length both.2
  refine ⟨valid, fresh, undisturbed, replies, call, ended, length, found, relayed, ?_⟩
  rw [completed, both.2, answered]
  · simp
  · simp [both.2, answered]

end Run

end CallRouter.Dealer
