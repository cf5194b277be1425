import CallRouter.Proofs.Dealer.Closing

namespace CallRouter.Dealer

open Relation

variable {peers : Peers} {operation : Operation} {dealer later : Dealer}

theorem aside_register (dealer : Dealer) (now : Time) (session request : Nat) (options : Dict)
    (uri : String) : dealer.Aside (dealer.register now session request options uri) := by
  unfold register
  cases done : dealer.register? now session options uri with
  | error refusal => exact aside_refuse dealer session _ _ _
  | ok answer =>
    obtain ⟨registration, later⟩ := answer
    obtain ⟨_, _, events, directory, _, _, _, _, _, rfl⟩ := register?_cases done
    have attached := Statistics.extends_attach dealer.statistics [uri]
    exact aside_trans (aside_publish dealer directory attached events) (aside_send _ session rfl)

theorem aside_unregister (dealer : Dealer) (session request id : Nat) :
    dealer.Aside (dealer.unregister session request id) := by
  unfold unregister
  cases done : dealer.unregister? session id with
  | error refusal => exact aside_refuse dealer session _ _ _
  | ok later =>
    obtain ⟨_, _, events, directory, _, rfl⟩ := unregister?_cases done
    have same := Statistics.extends_refl dealer.statistics
    exact aside_trans (aside_publish dealer directory same events) (aside_send _ session rfl)

inductive Served (peers : Peers) (dealer : Dealer) (now : Time) (draw caller request : Nat)
    (options : Dict) (uri : String) (payload : Payload) : Dealer → Prop
  | answer {procedure : Registration.MetaProcedure} {answer : Json}
      (resolved : dealer.directory.resolve uri dealer.options.metaApi = some (.meta_ procedure))
      (given : procedure.answer dealer.directory (payload.args.getD []) = .ok answer) :
      Served peers dealer now draw caller request options uri payload
        (dealer.send caller (.result request [] (.ofArgs [answer])) none)
  | dispatch {terms : Call.Options} {entry : Registration.Entry}
      {registrations : List Registration} {chosen : Dealer}
      (valid : Uri.isProcedure .exact uri = true)
      (agreed : callOptions peers caller options = .ok terms)
      (resolved : dealer.directory.resolve uri dealer.options.metaApi = some (.entry entry))
      (choice : dealer.chooseRegistrations entry terms.receiveProgress draw =
        (registrations, chosen))
      (any : registrations ≠ []) :
      Served peers dealer now draw caller request options uri payload
        (chosen.dispatch peers now caller request uri terms registrations payload)

theorem served_of_call? {now : Time} {draw caller request : Nat} {options : Dict} {uri : String}
    {payload : Payload}
    (answered : dealer.call? peers now draw caller request options uri payload = .ok later) :
    Served peers dealer now draw caller request options uri payload later := by
  simp only [call?, bind, Except.bind] at answered
  cases valid : Uri.isProcedure .exact uri with
  | false => simp [valid, throw, throwThe, MonadExceptOf.throw] at answered
  | true =>
    cases agreed : callOptions peers caller options with
    | error refusal => simp [valid, agreed] at answered
    | ok terms =>
      simp only [valid, agreed, pure, Except.pure] at answered
      cases resolved : dealer.directory.resolve uri dealer.options.metaApi with
      | none => simp [resolved, throw, throwThe, MonadExceptOf.throw] at answered
      | some destination =>
        cases destination with
        | meta_ procedure =>
          simp only [resolved] at answered
          cases given : procedure.answer dealer.directory (payload.args.getD []) with
          | error refusal => simp [given] at answered
          | ok answer =>
            simp only [given] at answered
            obtain rfl := Except.ok.inj answered
            exact .answer resolved given
        | entry entry =>
          simp only [resolved] at answered
          cases choice : dealer.chooseRegistrations entry terms.receiveProgress draw with
          | mk registrations chosen =>
            cases registrations with
            | nil => simp [choice, throw, throwThe, MonadExceptOf.throw] at answered
            | cons registration rest =>
              simp only [choice] at answered
              obtain rfl := Except.ok.inj answered
              exact .dispatch valid agreed resolved choice (by simp)

theorem call?_cases {now : Time} {draw caller request : Nat} {options : Dict} {uri : String}
    {payload : Payload} {message : Message}
    (reads : Rpc.ofMessage message = .ok (.call request options uri payload))
    (answered : dealer.call? peers now draw caller request options uri payload = .ok later) :
    (∃ (procedure : Registration.MetaProcedure) (answer : Json),
        procedure.answer dealer.directory (payload.args.getD []) = .ok answer ∧
        later = dealer.send caller (.result request [] (.ofArgs [answer])) none) ∨
      ∃ call, Dispatches peers dealer (.handle now draw caller message) call later := by
  cases served_of_call? answered with
  | answer resolved given => exact .inl ⟨_, _, given, rfl⟩
  | dispatch valid agreed resolved choice any =>
    exact .inr ⟨_, .dispatch reads valid agreed resolved choice any⟩

theorem call_cases (dealer : Dealer) (peers : Peers) (now : Time) (draw caller request : Nat)
    (options : Dict) (uri : String) (payload : Payload) {message : Message}
    (reads : Rpc.ofMessage message = .ok (.call request options uri payload)) :
    (∃ statistics rpc, rpc.kind.isReply = true ∧ dealer.statistics.Extends statistics ∧
      dealer.call peers now draw caller request options uri payload =
        ({ dealer with statistics }).send caller rpc none) ∨
      ∃ call, Dispatches peers dealer (.handle now draw caller message) call
        (dealer.call peers now draw caller request options uri payload) := by
  unfold call
  cases answered : dealer.call? peers now draw caller request options uri payload with
  | error refusal =>
    left
    cases refusal with
    | noSuchProcedure name =>
      exact ⟨_, _, rfl, Statistics.extends_recordMissed dealer.statistics uri, rfl⟩
    | _ => exact ⟨_, _, rfl, Statistics.extends_refl dealer.statistics, rfl⟩
  | ok later =>
    rcases call?_cases reads answered with ⟨_, answer, -, rfl⟩ | dispatched
    · exact .inl ⟨_, _, rfl, Statistics.extends_refl dealer.statistics, rfl⟩
    · exact .inr dispatched

abbrev Moves (peers : Peers) (operation : Operation) : Dealer → Dealer → Prop :=
  ReflTransGen (Move peers operation)

inductive Turns (peers : Peers) (operation : Operation) (dealer : Dealer) : Dealer → Prop
  | turn {number : Nat} {call : Call} {event : Call.Event}
      (found : dealer.calls[number]? = some call)
      (cause : Cause peers dealer number call operation event) :
      Turns peers operation dealer (dealer.turn number call event)

theorem moves_of_turns (turns : ReflTransGen (Turns peers operation) dealer later) :
    Moves peers operation dealer later := by
  refine ReflTransGen.mono ?_ _ _ turns
  rintro dealer later ⟨found, cause⟩
  exact .turn found cause

theorem directory_turns (turns : ReflTransGen (Turns peers operation) dealer later) :
    later.directory = dealer.directory := by
  induction turns with
  | refl => rfl
  | tail _ turn ih =>
    obtain ⟨found, cause⟩ := turn
    exact ih

theorem target?_of_linked (linked : dealer.Linked) (callee invocation : Nat) :
    dealer.target? callee invocation = none ∨
      ∃ number call index target, target.callee = callee ∧ target.invocation = invocation ∧
        dealer.calls[number]? = some call ∧ dealer.Tracks number call index target ∧
        dealer.target? callee invocation = some (number, call, index, target) := by
  cases located : dealer.tracked.find? (callee, invocation) with
  | none =>
    left
    simp [target?, located]
  | some place =>
    right
    obtain ⟨number, index⟩ := place
    obtain ⟨call, target, found, tracks, same⟩ := linked.tracked located
    obtain ⟨rfl, rfl⟩ := Prod.mk.inj same
    exact ⟨number, call, index, target, rfl, rfl, found, tracks,
      target?_eq_some_iff.mpr ⟨located, found, tracks.located⟩⟩

theorem yieldProgress_turns (linked : dealer.Linked) {now : Time} {draw callee invocation : Nat}
    {message : Message} {options : Dict} {payload : Payload}
    (reads : Rpc.ofMessage message = .ok (.yield invocation options payload))
    (flag : options.flag Dict.Key.progress = true) :
    ReflTransGen (Turns peers (.handle now draw callee message)) dealer
      (dealer.yieldProgress callee invocation payload) := by
  rcases target?_of_linked linked callee invocation with
    nobody | ⟨number, call, index, target, rfl, rfl, found, tracks, awaited⟩
  · rw [yieldProgress, nobody]
  · simp only [yieldProgress, awaited, tracks.left]
    cases agreed : target.progressive with
    | false => exact .refl
    | true =>
      cases done : call.isCompleted with
      | true =>
        simp only [sendProgress, done]
        exact .refl
      | false =>
        have relayed := sendProgress_eq found done payload
        simp only [Bool.not_false, Bool.and_self, if_true, relayed]
        exact .single (.turn found (.progress tracks reads flag agreed done))

theorem yieldResult_turns (linked : dealer.Linked) {now : Time} {draw callee invocation : Nat}
    {message : Message} {options : Dict} {payload : Payload}
    (reads : Rpc.ofMessage message = .ok (.yield invocation options payload))
    (flag : options.flag Dict.Key.progress = false) :
    ReflTransGen (Turns peers (.handle now draw callee message)) dealer
      (dealer.yieldResult now callee invocation payload) := by
  rcases target?_of_linked linked callee invocation with
    nobody | ⟨number, call, index, target, rfl, rfl, found, tracks, awaited⟩
  · rw [yieldResult, nobody]
  · rw [yieldResult_eq tracks.tracked found tracks.located tracks.left]
    exact .single (.turn found (.result tracks reads flag))

theorem fail_turns (linked : dealer.Linked) {now : Time} {draw callee invocation : Nat}
    {message : Message} {details : Dict} {error : String} {payload : Payload}
    (reads : Rpc.ofMessage message = .ok (.error .invocation invocation details error payload)) :
    ReflTransGen (Turns peers (.handle now draw callee message)) dealer
      (dealer.fail callee invocation details error payload) := by
  rcases target?_of_linked linked callee invocation with
    nobody | ⟨number, call, index, target, rfl, rfl, found, tracks, awaited⟩
  · rw [fail, nobody]
  · rw [fail_eq tracks.tracked found tracks.located tracks.left]
    exact .single (.turn found (.failure tracks reads))

theorem cancel_of_located (linked : dealer.Linked) {caller request number : Nat} {options : Dict}
    {choice : Option CancelMode}
    (chosen : options.choice CancelMode.ofName Dict.Key.mode = .ok choice)
    (located : dealer.cancelable.find? (caller, request) = some number) :
    ∃ call, dealer.calls[number]? = some call ∧ call.caller = caller ∧ call.request = request ∧
      call.isCompleted = false ∧
      let mode := choice.getD dealer.options.defaultCancelMode
      ((mode = .kill → call.state = .pending) →
        dealer.cancel caller request options = dealer.turn number call (.cancellation mode)) ∧
      (mode = .kill → call.state ≠ .pending → dealer.cancel caller request options = dealer) := by
  obtain ⟨call, found, same, opened⟩ := linked.cancelable located
  obtain ⟨rfl, rfl⟩ := Prod.mk.inj same
  have cancelable : dealer.cancelable? call.caller call.request = some (number, call) := by
    simp [cancelable?, located, found, opened]
  refine ⟨call, found, rfl, rfl, opened, fun pending => ?_, fun kill canceling => ?_⟩
  · simp only [cancel, chosen, cancelable]
    exact cancelCall_eq found opened _ pending
  · simp only [cancel, chosen, cancelable, kill, cancelCall, Call.beginCancel?, canceling, if_false]

theorem cancel_turns (linked : dealer.Linked) {now : Time} {draw caller request number : Nat}
    {message : Message} {options : Dict} {choice : Option CancelMode}
    (reads : Rpc.ofMessage message = .ok (.cancel request options))
    (chosen : options.choice CancelMode.ofName Dict.Key.mode = .ok choice)
    (located : dealer.cancelable.find? (caller, request) = some number) :
    ReflTransGen (Turns peers (.handle now draw caller message)) dealer
      (dealer.cancel caller request options) := by
  obtain ⟨call, found, rfl, rfl, opened, turned, same⟩ := cancel_of_located linked chosen located
  by_cases pending : choice.getD dealer.options.defaultCancelMode = .kill → call.state = .pending
  · rw [turned pending]
    exact .single (.turn found (.cancellation reads chosen opened pending))
  · -- A call that waits for its targets already is not killed again.
    obtain ⟨kill, canceling⟩ := Classical.not_imp.mp pending
    rw [same kill canceling]

theorem cancel_of_absent {caller request : Nat} {options : Dict} {choice : Option CancelMode}
    (chosen : options.choice CancelMode.ofName Dict.Key.mode = .ok choice)
    (absent : dealer.cancelable.find? (caller, request) = none) :
    dealer.cancel caller request options =
      dealer.refuse caller .cancel request (.noSuchCall request) := by
  simp only [cancel, chosen, cancelable?, absent, bind, Option.bind]

inductive Uncancelable (request : Nat) (options : Dict) : Refusal → Prop
  | absent : Uncancelable request options (.noSuchCall request)
  | unknown {unknown : UnknownOption}
      (refused : options.choice CancelMode.ofName Dict.Key.mode = .error unknown) :
      Uncancelable request options (.ofUnknownOption unknown)

theorem cancel_cases (linked : dealer.Linked) {now : Time} {draw caller request : Nat}
    {message : Message} {options : Dict}
    (reads : Rpc.ofMessage message = .ok (.cancel request options)) :
    (∃ refusal, Uncancelable request options refusal ∧
        dealer.cancel caller request options =
          dealer.refuse caller .cancel request refusal) ∨
      ReflTransGen (Turns peers (.handle now draw caller message)) dealer
        (dealer.cancel caller request options) := by
  cases chosen : options.choice CancelMode.ofName Dict.Key.mode with
  | error unknown =>
    left
    simp only [cancel, chosen]
    exact ⟨_, .unknown chosen, rfl⟩
  | ok choice =>
    cases located : dealer.cancelable.find? (caller, request) with
    | none => exact .inl ⟨_, .absent, cancel_of_absent chosen located⟩
    | some number => exact .inr (cancel_turns linked reads chosen located)

theorem cancel_moves (linked : dealer.Linked) {now : Time} {draw caller request : Nat}
    {message : Message} {options : Dict}
    (reads : Rpc.ofMessage message = .ok (.cancel request options)) :
    Moves peers (.handle now draw caller message) dealer
      (dealer.cancel caller request options) := by
  rcases cancel_cases linked reads with ⟨refusal, -, refused⟩ | turns
  · rw [refused]
    exact .single (.aside (aside_refuse dealer caller _ _ _))
  · exact moves_of_turns turns

inductive Handled (peers : Peers) (dealer : Dealer) (now : Time) (draw session : Nat)
    (message : Message) : Dealer → Prop
  | register {request : Nat} {options : Dict} {uri : String}
      (reads : Rpc.ofMessage message = .ok (.register request options uri)) :
      Handled peers dealer now draw session message
        (dealer.register now session request options uri)
  | unregister {request id : Nat}
      (reads : Rpc.ofMessage message = .ok (.unregister request id)) :
      Handled peers dealer now draw session message (dealer.unregister session request id)
  | call {request : Nat} {options : Dict} {uri : String} {payload : Payload}
      (reads : Rpc.ofMessage message = .ok (.call request options uri payload)) :
      Handled peers dealer now draw session message
        (dealer.call peers now draw session request options uri payload)
  | refuse {request : Nat} {options : Dict} {refusal : Refusal}
      (reads : Rpc.ofMessage message = .ok (.cancel request options))
      (why : Uncancelable request options refusal) :
      Handled peers dealer now draw session message
        (dealer.refuse session .cancel request refusal)
  | turns {later : Dealer}
      (turns : ReflTransGen (Turns peers (.handle now draw session message)) dealer later) :
      Handled peers dealer now draw session message later

theorem handled_step (linked : dealer.Linked) (peers : Peers) (now : Time) (draw session : Nat)
    (message : Message) :
    Handled peers dealer now draw session message
      (dealer.step peers (.handle now draw session message)) := by
  simp only [step, handle]
  cases reads : Rpc.ofMessage message with
  | error error => exact .turns .refl
  | ok rpc =>
    cases rpc with
    | register request options uri => exact .register reads
    | unregister request id => exact .unregister reads
    | call request options uri payload => exact .call reads
    | cancel request options =>
      rcases cancel_cases linked reads with ⟨refusal, why, refused⟩ | turns
      · show Handled peers dealer now draw session message (dealer.cancel session request options)
        rw [refused]
        exact .refuse reads why
      · exact .turns turns
    | yield invocation options payload =>
      cases flag : options.flag Dict.Key.progress with
      | true =>
        simp only [flag, if_true]
        exact .turns (yieldProgress_turns linked reads flag)
      | false =>
        simp only [flag]
        exact .turns (yieldResult_turns linked reads flag)
    | error type invocation details error payload =>
      cases type with
      | invocation => exact .turns (fail_turns linked reads)
      | _ => exact .turns .refl
    | _ => exact .turns .refl

theorem handle_cases (linked : dealer.Linked) (now : Time) (draw session : Nat)
    (message : Message) :
    Moves peers (.handle now draw session message) dealer
        (dealer.step peers (.handle now draw session message)) ∨
      ∃ call, Dispatches peers dealer (.handle now draw session message) call
        (dealer.step peers (.handle now draw session message)) := by
  have handled := handled_step linked peers now draw session message
  generalize dealer.step peers (.handle now draw session message) = later at handled ⊢
  cases handled with
  | register reads => exact .inl (.single (.aside (aside_register dealer now session _ _ _)))
  | unregister reads => exact .inl (.single (.aside (aside_unregister dealer session _ _)))
  | refuse reads => exact .inl (.single (.aside (aside_refuse dealer session _ _ _)))
  | turns turns => exact .inl (moves_of_turns turns)
  | @call request options uri payload reads =>
    rcases call_cases dealer peers now draw session request options uri payload reads with
      ⟨statistics, rpc, reply, more, answered⟩ | dispatched
    · rw [answered]
      exact .inl (.single (.aside (aside_trans (aside_count more) (aside_send _ session reply))))
    · exact .inr dispatched

theorem isOverdue_turn (call : Call) (event : Call.Event) (now : Time) :
    (call.turn event).call.isOverdue now = call.isOverdue now := by
  have same := congrArg (fun call => call.isOverdue now) (Call.origin_turn call event)
  exact same

theorem expire?_cases (peers : Peers) {number : Nat} {call : Call}
    (found : dealer.calls[number]? = some call) :
    dealer.expire? peers number = none ∨ call.isCompleted = false ∧
      (∃ target ∈ call.activeTargets,
        peers.supports target.callee .callee Feature.callTimeout = false) ∧
      dealer.expire? peers number = some (dealer.turn number call .timeout) := by
  cases watched : call.activeTargets.all fun target =>
      peers.supports target.callee .callee Feature.callTimeout with
  | true =>
    left
    simp only [expire?, found, watched, bind, Option.bind, if_true]
  | false =>
    cases done : call.isCompleted with
    | true =>
      left
      simp [expire?, found, conclude?_of_completed done]
    | false =>
      right
      obtain ⟨target, active, idle⟩ := List.all_eq_false.mp watched
      have idle : peers.supports target.callee .callee Feature.callTimeout = false := by
        simpa using idle
      exact ⟨rfl, ⟨target, active, idle⟩, expire?_eq found done peers active idle⟩

theorem expireAll_turns {now : Time} {session : Nat} (numbers : List Nat)
    (overdue : ∀ number ∈ numbers, ∃ call, dealer.calls[number]? = some call ∧
      call.isOverdue now = true) :
    ReflTransGen (Turns peers (.checkTimeout now session)) dealer
      (dealer.expireAll peers numbers).2 := by
  unfold expireAll
  generalize 0 = count
  induction numbers generalizing dealer count with
  | nil => exact .refl
  | cons number numbers ih =>
    obtain ⟨call, found, late⟩ := overdue number (by simp)
    rw [List.foldl_cons]
    rcases expire?_cases peers found with
      kept | ⟨opened, ⟨target, active, idle⟩, expired⟩
    · simp only [kept]
      exact ih (fun other member => overdue other (by simp [member])) count
    · simp only [expired]
      refine .head (.turn found (.timeout opened late active idle)) (ih ?_ (count + 1))
      intro other member
      obtain ⟨holder, held, behind⟩ := overdue other (by simp [member])
      rw [getElem?_turn found]
      by_cases here : number = other
      · exact ⟨(call.turn .timeout).call, by simp [here], by rw [isOverdue_turn, late]⟩
      · exact ⟨holder, by simp [here, held], behind⟩

theorem checkTimeout_turns (dealer : Dealer) (now : Time) (session : Nat) :
    ReflTransGen (Turns peers (.checkTimeout now session)) dealer
      (dealer.checkTimeout peers now session).2 := by
  apply expireAll_turns
  intro number member
  obtain ⟨⟨holder, index⟩, _, chosen⟩ := List.mem_filterMap.mp member
  cases found : dealer.calls[holder]? with
  | none => simp [found] at chosen
  | some call =>
    simp only [found, Option.ite_none_right_eq_some, Bool.and_eq_true, Option.some.injEq] at chosen
    obtain ⟨⟨_, late⟩, rfl⟩ := chosen
    exact ⟨call, found, late⟩

theorem turns_losses {session : Nat} (losses : ReflTransGen (Loss session) dealer later) :
    ReflTransGen (Turns peers (.closeSession session)) dealer later := by
  refine ReflTransGen.mono ?_ _ _ losses
  rintro dealer later ⟨found, tracks, rfl⟩
  exact .turn found (.loss tracks)

theorem turns_abandonments {session : Nat}
    (abandonments : ReflTransGen (Abandonment session) dealer later) :
    ReflTransGen (Turns peers (.closeSession session)) dealer later := by
  refine ReflTransGen.mono ?_ _ _ abandonments
  rintro dealer later ⟨found, opened, rfl⟩
  exact .turn found (.abandonment opened)

theorem Order.directory {session : Nat} (order : Order dealer session) (linked : dealer.Linked)
    {made : List Nat} (all : made.Perm (order.severed.madeBy session)) :
    (made.foldl loseCall order.severed).directory =
      (Registration.Directory.unregisterAll order.owned dealer.directory).2 := by
  have losses : ReflTransGen (Turns obliging (.closeSession session)) order.left order.deserted :=
    turns_losses (order.losses linked)
  have abandonments : ReflTransGen (Turns obliging (.closeSession session)) order.severed _ :=
    turns_abandonments (order.abandonments all)
  exact (directory_turns abandonments).trans (directory_turns losses)

theorem Order.moves {session : Nat} (order : Order dealer session) (linked : dealer.Linked) :
    Moves peers (.closeSession session) dealer order.severed := by
  have losses : Moves peers (.closeSession session) order.left order.deserted :=
    moves_of_turns (turns_losses (order.losses linked))
  have severing : Move peers (.closeSession session) order.deserted order.severed := .retire rfl
  exact .head (.aside order.aside) (losses.tail severing)

theorem moves_abandonments {session : Nat}
    (abandonments : ReflTransGen (Abandonment session) dealer later) :
    Moves peers (.closeSession session) dealer later :=
  moves_of_turns (turns_abandonments abandonments)

theorem Closes.moves {session : Nat} (linked : dealer.Linked)
    (closes : dealer.Closes session later) :
    Moves peers (.closeSession session) dealer later := by
  cases closes with
  | @close order made all =>
    exact (order.moves linked).trans (moves_abandonments (order.abandonments all))

theorem closeSession_moves (linked : dealer.Linked) (session : Nat) :
    Moves peers (.closeSession session) dealer (dealer.closeSession session) :=
  (closes_closeSession dealer session).moves linked

theorem step_cases (linked : dealer.Linked) (peers : Peers) (operation : Operation) :
    Moves peers operation dealer (dealer.step peers operation) ∨
      ∃ call, Dispatches peers dealer operation call (dealer.step peers operation) := by
  cases operation with
  | handle now draw session message => exact handle_cases linked now draw session message
  | checkTimeout now session => exact .inl (moves_of_turns (checkTimeout_turns dealer now session))
  | closeSession session => exact .inl (closeSession_moves linked session)

end CallRouter.Dealer
