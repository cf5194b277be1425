import CallRouter.Proofs.Dealer.Counting

/-!
How often a call is counted as canceled: at most once, unless its caller first kills it and then
cancels it in another mode while it waits for its targets.
-/

namespace CallRouter.Dealer

variable {peers : Peers} {operation : Operation} {dealer later : Dealer} {call : Call}
  {number : Nat} {path : List String} {default mode : CancelMode}

def Operation.isCancellation : Operation → Bool
  | .handle _ _ _ message =>
    match Rpc.ofMessage message with
    | .ok (.cancel ..) => true
    | _ => false
  | .checkTimeout .. => true
  | .closeSession _ => false

theorem Operation.Cancels.isCancellation (cancels : operation.Cancels default mode) :
    operation.isCancellation = true := by
  obtain ⟨now, draw, session, message, request, options, choice, rfl, reads, chosen, same⟩ := cancels
  simp [Operation.isCancellation, reads]

theorem Cause.isCancellation {event : Call.Event}
    (cause : Cause peers dealer number call operation event) :
    event.isCancellation = operation.isCancellation := by
  cases cause <;> simp_all [Call.Event.isCancellation, Operation.isCancellation]

theorem Cause.opened_of_cancellation {event : Call.Event}
    (cause : Cause peers dealer number call operation event)
    (cancels : event.isCancellation = true) : call.state ≠ .completed := by
  have opened : call.isCompleted = false := by
    cases cause <;> simp_all [Call.Event.isCancellation]
  simpa [Call.isCompleted] using opened

theorem Cause.pending_of_kill {event : Call.Event}
    (cause : Cause peers dealer number call operation event)
    (kills : operation.Cancels dealer.options.defaultCancelMode .kill) : call.state = .pending := by
  obtain rfl := cause.of_cancels kills
  exact cause.admits.2 rfl

inductive Shift (default : CancelMode) (operation : Operation) : Call.State → Call.State → Prop
  | stay (state : Call.State) : Shift default operation state state
  | kill (kills : operation.Cancels default .kill) : Shift default operation .pending .canceling
  | finish {state : Call.State} (opened : state ≠ .completed)
      (late : state = .canceling → operation.isCancellation = true →
        ∃ mode, mode ≠ .kill ∧ operation.Cancels default mode) :
      Shift default operation state .completed

section Turn

variable {event : Call.Event}

theorem shift_turn (sound : call.Sound) (cause : Cause peers dealer number call operation event) :
    Shift dealer.options.defaultCancelMode operation call.state (call.turn event).call.state := by
  have agree := cause.isCancellation
  cases cancels : event.isCancellation with
  | false =>
    rcases Call.state_turn_other call cancels with same | ended
    · rw [same]
      exact .stay _
    · rw [ended]
      by_cases done : call.state = .completed
      · rw [done]
        exact .stay _
      · refine .finish done fun _ really => ?_
        simp [← agree, cancels] at really
  | true =>
    rcases Call.state_turn_canceled call cancels with ⟨rfl, moved⟩ | ⟨other, ended⟩
    · rw [moved, cause.admits.2 rfl]
      exact .kill cause.cancels
    · rw [ended]
      refine .finish (cause.opened_of_cancellation cancels) fun canceling _ => ?_
      cases event with
      | cancellation mode => exact ⟨mode, fun same => other (same ▸ rfl), cause.cancels⟩
      | timeout =>
        -- A call that waits for its targets has none left that could run out of time.
        cases cause with
        | timeout opened overdue active idle =>
          obtain ⟨member, state⟩ := List.mem_filter.mp active
          exact absurd (by simpa using state) ((sound.canceling canceling).2 _ member)
      | _ => simp [Call.Event.isCancellation] at cancels

variable {first : Call.State}

theorem Shift.unmoved (shift : Shift dealer.options.defaultCancelMode operation first call.state)
    (cause : Cause peers dealer number call operation event)
    (cancels : event.isCancellation = true) : first = call.state := by
  have opened := cause.opened_of_cancellation cancels
  generalize held : call.state = state at shift opened
  cases shift with
  | stay => rfl
  | kill kills =>
    have pending := cause.pending_of_kill kills
    simp [held] at pending
  | finish => exact absurd rfl opened

theorem Shift.turn (shift : Shift dealer.options.defaultCancelMode operation first call.state)
    (sound : call.Sound) (cause : Cause peers dealer number call operation event) :
    Shift dealer.options.defaultCancelMode operation first (call.turn event).call.state := by
  have next := shift_turn sound cause
  generalize held : call.state = state at shift next
  cases shift with
  | stay => exact next
  | kill kills =>
    have pending := cause.pending_of_kill kills
    simp [held] at pending
  | finish opened late =>
    have done := Call.turn_isCompleted cause.admits (by simp [Call.isCompleted, held])
    have ended : (call.turn event).call.state = .completed := by
      simpa [Call.isCompleted] using done
    rw [ended]
    exact .finish opened late

end Turn

theorem shift_moves (orderly : dealer.Orderly) (moves : Moves peers operation dealer later)
    (found : later.calls[number]? = some call) :
    ∃ before, dealer.calls[number]? = some before ∧
      Shift dealer.options.defaultCancelMode operation before.state call.state := by
  induction moves generalizing call with
  | refl => exact ⟨call, found, .stay _⟩
  | @tail middle later moves move ih =>
    have sound := (orderly_moves orderly moves).sound
    cases move with
    | aside aside => exact ih (aside.calls ▸ found)
    | retire closing => exact ih found
    | @turn turned holder event held cause =>
      rw [getElem?_turn held] at found
      by_cases here : turned = number
      · subst here
        obtain rfl : (holder.turn event).call = call := by simpa using found
        obtain ⟨before, there, shift⟩ := ih held
        rw [← options_moves moves] at shift ⊢
        exact ⟨before, there, shift.turn (sound holder (List.mem_of_getElem? held)) cause⟩
      · rw [if_neg here] at found
        exact ih found

def state? (dealer : Dealer) (number : Nat) : Option Call.State :=
  dealer.calls[number]?.map Call.state

def canceled (operation : Operation) (dealer later : Dealer) (number : Nat) : Nat :=
  if operation.isCancellation && dealer.state? number != later.state? number then 1 else 0

theorem canceled_of_same (same : dealer.state? number = later.state? number) :
    canceled operation dealer later number = 0 := by
  simp [canceled, same]

theorem canceled_of_other (other : operation.isCancellation = false) :
    canceled operation dealer later number = 0 := by
  simp [canceled, other]

theorem canceled_after_turn {middle : Dealer} {event : Call.Event} (orderly : dealer.Orderly)
    (moves : Moves peers operation dealer middle) (found : middle.calls[number]? = some call)
    (cause : Cause peers middle number call operation event) (other : Nat) :
    canceled operation dealer (middle.turn number call event) other =
      canceled operation dealer middle other +
        if other = number ∧ event.isCancellation then 1 else 0 := by
  cases cancels : event.isCancellation with
  | false =>
    have other := cause.isCancellation.symm.trans cancels
    simp [canceled_of_other other]
  | true =>
    by_cases here : other = number
    · subst here
      obtain ⟨before, there, shift⟩ := shift_moves orderly moves found
      rw [← options_moves moves] at shift
      have unmoved := shift.unmoved cause cancels
      have still : dealer.state? other = middle.state? other := by
        simp [state?, there, found, unmoved]
      have moved : (middle.turn other call event).state? other ≠ some call.state := by
        rw [state?, getElem?_turn found, if_pos rfl, Option.map_some]
        have opened := cause.opened_of_cancellation cancels
        rcases Call.state_turn_canceled call cancels with ⟨rfl, next⟩ | ⟨_, next⟩
        · simp [next, cause.admits.2 rfl]
        · simpa [next] using opened.symm
      have before : dealer.state? other = some call.state := by simp [state?, there, unmoved]
      rw [canceled_of_same still, canceled, ← cause.isCancellation, cancels, before]
      simp [moved.symm]
    · have same : (middle.turn number call event).state? other = middle.state? other := by
        rw [state?, getElem?_turn found, if_neg fun same => here same.symm, state?]
      simp [canceled, same, here]

theorem counted_moves {cancellations : Nat → Nat} (counted : dealer.Counted cancellations)
    (orderly : dealer.Orderly) (moves : Moves peers operation dealer later) :
    later.Counted fun number => cancellations number + canceled operation dealer later number := by
  induction moves with
  | refl => simpa [canceled_of_same] using counted
  | @tail middle later moves move ih =>
    cases move with
    | aside aside =>
      have same (number : Nat) : canceled operation dealer later number =
          canceled operation dealer middle number := by
        have still : later.state? number = middle.state? number := by
          rw [state?, aside.calls, state?]
        rw [canceled, still, canceled]
      simpa only [same] using counted_aside ih aside
    | retire closing => exact ⟨ih.root, ih.attempted, ih.canceled, ih.ahead⟩
    | @turn number call event found cause =>
      have next := counted_turn ih found event
      simpa only [canceled_after_turn orderly moves found cause, Nat.add_assoc] using next

theorem Dispatches.isCancellation (dispatches : Dispatches peers dealer operation call later) :
    operation.isCancellation = false := by
  obtain ⟨now, draw, message, options, payload, rfl, reads, _⟩ := dispatches.request
  simp [Operation.isCancellation, reads]

theorem counted_step {cancellations : Nat → Nat} (counted : dealer.Counted cancellations)
    (orderly : dealer.Orderly) (peers : Peers) (operation : Operation) :
    (dealer.step peers operation).Counted fun number =>
      cancellations number + canceled operation dealer (dealer.step peers operation) number := by
  rcases step_cases orderly.toLinked peers operation with moves | ⟨call, dispatches⟩
  · exact counted_moves counted orderly moves
  · simpa [canceled_of_other dispatches.isCancellation] using counted_dispatch counted dispatches

def cancellations (peers : Peers) (options : Options) (operations : List Operation)
    (number : Nat) : Nat :=
  (operations.foldl (fun (count, dealer) operation =>
    (count + canceled operation dealer (dealer.step peers operation) number,
      dealer.step peers operation)) (0, ({ options } : Dealer))).1

theorem cancellations_concat (peers : Peers) (options : Options) (operations : List Operation)
    (operation : Operation) (number : Nat) :
    cancellations peers options (operations ++ [operation]) number =
      cancellations peers options operations number +
        canceled operation (run peers options operations)
          (run peers options (operations ++ [operation])) number := by
  have same (operations : List Operation) : (operations.foldl (fun (count, dealer) operation =>
      (count + canceled operation dealer (dealer.step peers operation) number,
        dealer.step peers operation)) (0, ({ options } : Dealer))).2 =
          run peers options operations := by
    induction operations using List.reverseRecOn with
    | nil => rfl
    | append_singleton operations operation ih =>
      rw [List.foldl_append, run_concat, ← ih]
      rfl
  rw [run_concat, ← same operations, cancellations, List.foldl_append]
  rfl

theorem counted_run (peers : Peers) (options : Options) (operations : List Operation) :
    (run peers options operations).Counted (cancellations peers options operations) := by
  induction operations using List.reverseRecOn with
  | nil => exact counted_initial options
  | append_singleton operations operation ih =>
    have next := counted_step ih (orderly_run peers options operations) peers operation
    have same : cancellations peers options (operations ++ [operation]) = fun number =>
        cancellations peers options operations number + canceled operation
          (run peers options operations) ((run peers options operations).step peers operation)
            number := by
      funext number
      rw [cancellations_concat, run_concat]
    rw [same, run_concat]
    exact next

/-- A call was killed, and while it waited for its targets it was canceled in another mode. -/
def Escalated (peers : Peers) (options : Options) (operations : List Operation)
    (number : Nat) : Prop :=
  EndedBy peers options operations number fun call operation =>
    call.state = .canceling ∧
      ∃ mode, mode ≠ .kill ∧ operation.Cancels options.defaultCancelMode mode

inductive Charge (escalated : Prop) : Call.State → Nat → Prop
  | pending : Charge escalated .pending 0
  | canceling : Charge escalated .canceling 1
  | once {count : Nat} (never : ¬ escalated) (few : count ≤ 1) : Charge escalated .completed count
  | twice (again : escalated) : Charge escalated .completed 2

theorem Charge.congr {escalated escalated' : Prop} {state : Call.State} {count : Nat}
    (charge : Charge escalated state count) (same : escalated' ↔ escalated) :
    Charge escalated' state count := by
  rwa [propext same]

theorem Charge.shift {escalated escalated' : Prop} {first last : Call.State} {count : Nat}
    (charge : Charge escalated first count) (earlier : escalated → first = .completed)
    (escalates : escalated' ↔ escalated ∨ first = .canceling ∧
      (∃ mode, mode ≠ .kill ∧ operation.Cancels default mode) ∧ last = .completed)
    (shift : Shift default operation first last) :
    Charge escalated' last
      (count + if operation.isCancellation && first != last then 1 else 0) := by
  cases shift with
  | stay =>
    simp only [bne_self_eq_false, Bool.and_false]
    refine charge.congr (escalates.trans (or_iff_left ?_))
    rintro ⟨rfl, -, ⟨⟩⟩
  | kill kills =>
    cases charge
    simp only [kills.isCancellation]
    exact .canceling
  | finish opened late =>
    cases charge with
    | pending =>
      refine .once (fun escalated => ?_) (by split <;> omega)
      rcases escalates.mp escalated with before | ⟨⟨⟩, -⟩
      cases earlier before
    | canceling =>
      -- The kill was charged already; whether the end is charged too depends on what ended the call.
      cases cancels : operation.isCancellation with
      | true => exact .twice (escalates.mpr (.inr ⟨rfl, late rfl cancels, rfl⟩))
      | false =>
        refine .once (fun escalated => ?_) (by simp)
        rcases escalates.mp escalated with before | ⟨-, ⟨mode, -, again⟩, -⟩
        · cases earlier before
        · simp [again.isCancellation] at cancels
    | once | twice => exact absurd rfl opened

theorem Charge.most {escalated : Prop} {state : Call.State} {count : Nat}
    (charge : Charge escalated state count) (ended : escalated → state = .completed) :
    count ≤ 2 ∧ (count = 2 ↔ escalated) := by
  cases charge with
  | pending | canceling =>
    refine ⟨by omega, by omega, fun again => ?_⟩
    cases ended again
  | once never few => exact ⟨by omega, by omega, fun again => absurd again never⟩
  | twice again => exact ⟨Nat.le_refl 2, fun _ => again, fun _ => rfl⟩

theorem EndedBy.found {options : Options} {operations : List Operation}
    {culprit : Call → Operation → Prop}
    (ended : EndedBy peers options operations number culprit) :
    ∃ call, (run peers options operations).calls[number]? = some call ∧
      call.state = .completed := by
  obtain ⟨before, operation, after, rfl, -, call, found, done⟩ := ended
  rw [List.append_cons]
  obtain ⟨last, there, -, kept, -⟩ := persists_run peers options (before ++ [operation]) after found
  exact ⟨last, there, by simpa [Call.isCompleted] using kept done⟩

theorem endedBy_concat_iff {options : Options} {operations : List Operation}
    {culprit : Call → Operation → Prop} :
    EndedBy peers options (operations ++ [operation]) number culprit ↔
      EndedBy peers options operations number culprit ∨
        (run peers options operations).Suffers number (culprit · operation) ∧
          ∃ call, (run peers options (operations ++ [operation])).calls[number]? = some call ∧
            call.isCompleted = true := by
  constructor
  · rintro ⟨before, step, after, split, suffers, done⟩
    rcases List.eq_nil_or_concat after with rfl | ⟨after, last, rfl⟩
    · obtain ⟨rfl, same⟩ := List.append_inj' split rfl
      obtain rfl := List.cons.inj same |>.1
      exact .inr ⟨suffers, done⟩
    · rw [List.concat_eq_append, ← List.cons_append, ← List.append_assoc] at split
      obtain ⟨rfl, -⟩ := List.append_inj' split rfl
      exact .inl ⟨before, step, after, rfl, suffers, done⟩
  · rintro (earlier | ⟨suffers, done⟩)
    · exact endedBy_concat earlier operation
    · exact ⟨operations, operation, [], rfl, suffers, done⟩

section Charge

variable {options : Options} {operations : List Operation}

theorem charge_dispatch
    (charges : ∀ {number : Nat} {call : Call},
      (run peers options operations).calls[number]? = some call →
        Charge (Escalated peers options operations number) call.state
          (cancellations peers options operations number))
    {dispatched : Call} (dispatches : Dispatches peers (run peers options operations) operation
      dispatched (run peers options (operations ++ [operation])))
    (found : (run peers options (operations ++ [operation])).calls[number]? = some call) :
    Charge (Escalated peers options (operations ++ [operation]) number) call.state
      (cancellations peers options (operations ++ [operation]) number) := by
  have other := dispatches.isCancellation
  have same : Escalated peers options (operations ++ [operation]) number ↔
      Escalated peers options operations number := by
    refine endedBy_concat_iff.trans ⟨fun ended => ended.resolve_right ?_, .inl⟩
    rintro ⟨⟨_, _, _, _, mode, _, cancels⟩, _⟩
    simp [cancels.isCancellation] at other
  rw [cancellations_concat, canceled_of_other other, Nat.add_zero]
  rcases dispatches.cases found with before | ⟨rfl, rfl⟩
  · exact (charges before).congr same
  · rw [dispatches.fresh.pending, (counted_run peers options operations).ahead _ (Nat.le_refl _)]
    exact .pending

theorem charge_moves
    (charges : ∀ {number : Nat} {call : Call},
      (run peers options operations).calls[number]? = some call →
        Charge (Escalated peers options operations number) call.state
          (cancellations peers options operations number))
    (moves : Moves peers operation (run peers options operations)
      (run peers options (operations ++ [operation])))
    (found : (run peers options (operations ++ [operation])).calls[number]? = some call) :
    Charge (Escalated peers options (operations ++ [operation]) number) call.state
      (cancellations peers options (operations ++ [operation]) number) := by
  obtain ⟨before, there, shift⟩ := shift_moves (orderly_run peers options operations) moves found
  have charge := charges there
  have earlier (escalated : Escalated peers options operations number) :
      before.state = .completed := by
    obtain ⟨last, also, ended⟩ := escalated.found
    rwa [Option.some.inj (there.symm.trans also)]
  have escalates : Escalated peers options (operations ++ [operation]) number ↔
      Escalated peers options operations number ∨ before.state = .canceling ∧
        (∃ mode, mode ≠ .kill ∧ operation.Cancels options.defaultCancelMode mode) ∧
          call.state = .completed := by
    refine endedBy_concat_iff.trans (or_congr_right ⟨?_, ?_⟩)
    · rintro ⟨⟨holder, held, _, state, cancels⟩, ended, reached, done⟩
      obtain rfl := Option.some.inj (there.symm.trans held)
      obtain rfl := Option.some.inj (found.symm.trans reached)
      exact ⟨state, cancels, by simpa [Call.isCompleted] using done⟩
    · rintro ⟨state, cancels, done⟩
      exact ⟨⟨before, there, by simp [Call.isCompleted, state], state, cancels⟩, call, found,
        by simp [Call.isCompleted, done]⟩
  have counts : canceled operation (run peers options operations)
      (run peers options (operations ++ [operation])) number =
        if operation.isCancellation && before.state != call.state then 1 else 0 := by
    simp [canceled, state?, there, found]
  rw [options_run] at shift
  rw [cancellations_concat, counts]
  exact charge.shift earlier escalates shift

theorem charge_run {options : Options} {operations : List Operation}
    (found : (run peers options operations).calls[number]? = some call) :
    Charge (Escalated peers options operations number) call.state
      (cancellations peers options operations number) := by
  induction operations using List.reverseRecOn generalizing number call with
  | nil => cases found
  | append_singleton operations operation ih =>
    have cases := step_cases (linked_run peers options operations) peers operation
    rw [← run_concat] at cases
    rcases cases with moves | ⟨dispatched, dispatches⟩
    · exact charge_moves ih moves found
    · exact charge_dispatch ih dispatches found

end Charge

/--
The counters of each node say how many calls there were for it, and how often these were canceled.
A call is canceled at most twice, and twice only if it was killed first, and then canceled in another
mode before its targets answered. Apart from such calls no more are canceled than attempted.
-/
theorem cancellations_are_counted (peers : Peers) (options : Options)
    (operations : List Operation) :
    let dealer := run peers options operations
    let counts := cancellations peers options operations
    (∀ path,
      (dealer.statistics.node path).attempted = UInt64.ofNat (dealer.tally path fun _ => 1) ∧
      (dealer.statistics.node path).canceled = UInt64.ofNat (dealer.tally path counts)) ∧
    (∀ number < dealer.calls.length, counts number ≤ 2 ∧
      (counts number = 2 ↔ Escalated peers options operations number)) ∧
    ∀ path, dealer.calls.length < UInt64.size →
      (∀ (number : Nat) (call : Call), dealer.calls[number]? = some call →
        call.countsFor path = true → ¬ Escalated peers options operations number) →
      (dealer.statistics.node path).canceled ≤ (dealer.statistics.node path).attempted := by
  intro dealer counts
  have counted : dealer.Counted counts := counted_run peers options operations
  have charge {number : Nat} {call : Call} (found : dealer.calls[number]? = some call) :
      counts number ≤ 2 ∧ (counts number = 2 ↔ Escalated peers options operations number) := by
    refine (charge_run found).most fun escalated => ?_
    obtain ⟨last, also, done⟩ := escalated.found
    rwa [Option.some.inj (found.symm.trans also)]
  refine ⟨fun path => ⟨counted.attempted path, counted.canceled path⟩, ?_, ?_⟩
  · intro number bound
    exact charge (List.getElem?_eq_getElem bound)
  · intro path room calm
    have once : dealer.tally path counts ≤ dealer.tally path fun _ => 1 := by
      apply tally_le
      intro number call found counting
      obtain ⟨most, twice⟩ := charge found
      have never := calm number call found counting
      rw [← twice] at never
      omega
    have small : (dealer.tally path fun _ => 1) < UInt64.size :=
      Nat.lt_of_le_of_lt (tally_one_le dealer path) room
    rw [counted.attempted, counted.canceled, UInt64.le_iff_toNat_le,
      UInt64.toNat_ofNat_of_lt' (Nat.lt_of_le_of_lt once small), UInt64.toNat_ofNat_of_lt' small]
    exact once

/-- A call that is killed and then skipped is the only one, and is counted as canceled twice. -/
theorem killed_call_is_canceled_again :
    let operations : List Operation :=
      [.handle 0 0 1 ⟨.register, [.ofNat 1, .dict [], .text "sum"]⟩,
        .handle 0 0 2 ⟨.call, [.ofNat 1, .dict [], .text "sum"]⟩,
        .handle 0 0 2 ⟨.cancel, [.ofNat 1, .dict [(Dict.Key.mode, .text "kill")]]⟩,
        .handle 0 0 2 ⟨.cancel, [.ofNat 1, .dict [(Dict.Key.mode, .text "skip")]]⟩]
    let dealer := run obliging {} operations
    (∀ operation ∈ operations, operation.IsValid) ∧ cancellations obliging {} operations 0 = 2 ∧
      dealer.statistics.total.attempted = 1 ∧ dealer.statistics.total.canceled = 2 ∧
      (dealer.statistics.node ["sum"]).attempted = 1 ∧
      (dealer.statistics.node ["sum"]).canceled = 2 := by
  intro operations dealer
  refine ⟨?_, by decide +kernel⟩
  simp only [operations, List.forall_mem_cons, List.not_mem_nil, false_imp_iff, implies_true,
    and_true]
  exact ⟨rfl, rfl, rfl, rfl⟩

end CallRouter.Dealer
