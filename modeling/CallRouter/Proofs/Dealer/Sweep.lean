import CallRouter.Proofs.Dealer.Accounts
import CallRouter.Proofs.Dealer.Attempts

namespace CallRouter

namespace Call

variable {peers : Peers} {now : Time} {call : Call}

/-- A call that ran out of time, with an active target that does not watch the time itself. -/
def isDue (peers : Peers) (now : Time) (call : Call) : Bool :=
  !call.isCompleted && call.isOverdue now && call.activeTargets.any fun target =>
    !peers.supports target.callee .callee Feature.callTimeout

theorem isDue_iff : call.isDue peers now = true ↔
    call.isCompleted = false ∧ call.isOverdue now = true ∧
      ∃ target ∈ call.activeTargets,
        peers.supports target.callee .callee Feature.callTimeout = false := by
  simp [isDue, and_assoc]

theorem isDue_of_completed (done : call.isCompleted = true) : call.isDue peers now = false := by
  simp [isDue, done]

theorem isDue_timeout : (call.turn .timeout).call.isDue peers now = false :=
  isDue_of_completed rfl

end Call

namespace Dealer

open Statistics

variable {peers : Peers} {operation : Operation} {now : Time} {dealer middle later : Dealer}
  {call : Call} {number session count : Nat} {numbers sessions : List Nat}
  {timed more : List (Nat × Call)}

inductive Expires (peers : Peers) (now : Time) : Dealer → List (Nat × Call) → Dealer → Prop
  | rest (dealer : Dealer) : Expires peers now dealer [] dealer
  | expire {dealer later : Dealer} {number : Nat} {call : Call} {timed : List (Nat × Call)}
      (found : dealer.calls[number]? = some call) (due : call.isDue peers now = true)
      (expires : Expires peers now (dealer.turn number call .timeout) timed later) :
      Expires peers now dealer ((number, call) :: timed) later

namespace Expires

theorem trans (first : Expires peers now dealer timed middle)
    (second : Expires peers now middle more later) :
    Expires peers now dealer (timed ++ more) later := by
  induction first with
  | rest => exact second
  | expire found due _ ih => exact .expire found due (ih second)

theorem due (expires : Expires peers now dealer timed later) :
    ∀ entry ∈ timed, dealer.calls[entry.1]? = some entry.2 ∧ entry.2.isDue peers now = true := by
  induction expires with
  | rest => simp
  | @expire dealer later number call timed found due _ ih =>
    intro entry member
    rcases List.mem_cons.mp member with rfl | rest
    · exact ⟨found, due⟩
    · obtain ⟨there, also⟩ := ih entry rest
      -- The end of the first call makes no other call due, and itself is not due any more.
      rw [getElem?_turn found] at there
      split at there
      · rw [← Option.some.inj there, Call.isDue_timeout] at also
        cases also
      · exact ⟨there, also⟩

theorem notMem (expires : Expires peers now (dealer.turn number call .timeout) timed later)
    (found : dealer.calls[number]? = some call) : number ∉ timed.map (·.1) := by
  intro member
  obtain ⟨⟨_, holder⟩, among, rfl⟩ := List.mem_map.mp member
  obtain ⟨there, due⟩ := expires.due _ among
  rw [getElem?_turn found, if_pos rfl] at there
  rw [← Option.some.inj there, Call.isDue_timeout] at due
  cases due

theorem once (expires : Expires peers now dealer timed later) : (timed.map (·.1)).Nodup := by
  induction expires with
  | rest => exact List.nodup_nil
  | expire found _ expires ih => exact List.nodup_cons.mpr ⟨expires.notMem found, ih⟩

theorem untouched (expires : Expires peers now dealer timed later)
    (other : number ∉ timed.map (·.1)) : later.calls[number]? = dealer.calls[number]? := by
  induction expires with
  | rest => rfl
  | expire found _ _ ih =>
    rw [List.map_cons, List.mem_cons, not_or] at other
    rw [ih other.2, getElem?_turn found, if_neg fun same => other.1 same.symm]

theorem ended (expires : Expires peers now dealer timed later) :
    ∀ entry ∈ timed, later.calls[entry.1]? = some (entry.2.turn .timeout).call := by
  induction expires with
  | rest => simp
  | expire found _ expires ih =>
    intro entry member
    rcases List.mem_cons.mp member with rfl | rest
    · rw [expires.untouched (expires.notMem found), getElem?_turn found, if_pos rfl]
    · exact ih entry rest

theorem before (expires : Expires peers now dealer timed later)
    (found : later.calls[number]? = some call) (due : call.isDue peers now = true) :
    dealer.calls[number]? = some call := by
  rw [← expires.untouched, found]
  intro member
  obtain ⟨entry, among, rfl⟩ := List.mem_map.mp member
  have past := expires.ended entry among
  rw [found] at past
  rw [Option.some.inj past, Call.isDue_timeout] at due
  cases due

theorem spares (expires : Expires peers now dealer timed later)
    (calm : ∀ call, dealer.calls[number]? = some call → call.isDue peers now = false) :
    ∀ call, later.calls[number]? = some call → call.isDue peers now = false := by
  intro call found
  by_contra due
  have due : call.isDue peers now = true := by simpa using due
  rw [calm call (expires.before found due)] at due
  cases due

theorem tracked (expires : Expires peers now dealer timed later) :
    later.tracked = releasing dealer.tracked
      (timed.flatMap fun entry => entry.2.activeTargets.map Call.Target.key) := by
  induction expires with
  | rest => rw [List.flatMap_nil, releasing_nil]
  | expire _ _ _ ih =>
    rw [ih, List.flatMap_cons, ← releasing_releasing]
    rfl

theorem effects (expires : Expires peers now dealer timed later) :
    later.effects = dealer.effects ++
      timed.flatMap fun entry => mailing entry.1 (entry.2.turn .timeout).sent := by
  induction expires with
  | rest => simp
  | expire _ _ _ ih => rw [ih, List.flatMap_cons, turn, List.append_assoc]

theorem statistics (expires : Expires peers now dealer timed later) :
    later.statistics = recording dealer.statistics
      (timed.flatMap fun entry => entry.2.noteAt 0 .cancellation) := by
  induction expires with
  | rest => rfl
  | expire _ _ _ ih =>
    rw [ih, List.flatMap_cons, recording, recording, List.foldl_append]
    rfl

theorem awaiting (expires : Expires peers now dealer timed later) (awaiting : dealer.Awaiting) :
    later.Awaiting := by
  induction expires with
  | rest => exact awaiting
  | @expire dealer later number call timed found due _ ih =>
    obtain ⟨opened, overdue, target, active, idle⟩ := Call.isDue_iff.mp due
    have cause : Cause peers dealer number call (.checkTimeout now 0) .timeout :=
      .timeout opened overdue active idle
    exact ih (awaiting_move awaiting (.turn found cause))

end Expires

section Look

theorem mem_overdue : number ∈ dealer.overdue now session ↔
    ∃ key index call, dealer.tracked.find? key = some (number, index) ∧ key.1 = session ∧
      dealer.calls[number]? = some call ∧ call.isCompleted = false ∧
        call.isOverdue now = true := by
  simp only [overdue, List.mem_filterMap, Keyed.mem_values_filter, decide_eq_true_eq]
  constructor
  · rintro ⟨⟨holder, index⟩, ⟨key, tracked, served⟩, chosen⟩
    cases found : dealer.calls[holder]? with
    | none => simp [found] at chosen
    | some call =>
      simp only [found, Option.ite_none_right_eq_some, Bool.and_eq_true, Bool.not_eq_true',
        Option.some.injEq] at chosen
      obtain ⟨⟨opened, late⟩, rfl⟩ := chosen
      exact ⟨key, index, call, tracked, served, found, opened, late⟩
  · rintro ⟨key, index, call, tracked, served, found, opened, late⟩
    exact ⟨(number, index), ⟨key, tracked, served⟩, by simp [found, opened, late]⟩

theorem expire?_eq_of_due (found : dealer.calls[number]? = some call)
    (due : call.isDue peers now = true) :
    dealer.expire? peers number = some (dealer.turn number call .timeout) := by
  obtain ⟨opened, -, target, active, idle⟩ := Call.isDue_iff.mp due
  exact expire?_eq found opened peers active idle

theorem expire?_eq_none (found : dealer.calls[number]? = some call)
    (overdue : call.isOverdue now = true) (spared : call.isDue peers now = false) :
    dealer.expire? peers number = none := by
  rcases expire?_cases peers found with kept | ⟨opened, idle, -⟩
  · exact kept
  · rw [Call.isDue_iff.mpr ⟨opened, overdue, idle⟩] at spared
    cases spared

theorem foldl_counting {α β : Type} {next : Nat × α → β → Nat × α}
    (counts : ∀ count more state item, next (count + more, state) item =
      ((next (count, state) item).1 + more, (next (count, state) item).2))
    (items : List β) (count more : Nat) (state : α) :
    items.foldl next (count + more, state) =
      ((items.foldl next (count, state)).1 + more, (items.foldl next (count, state)).2) := by
  induction items generalizing count state with
  | nil => rfl
  | cons item items ih => rw [List.foldl_cons, List.foldl_cons, counts, ih]

theorem expireAll_of_none (kept : dealer.expire? peers number = none) (numbers : List Nat) :
    dealer.expireAll peers (number :: numbers) = dealer.expireAll peers numbers := by
  simp only [expireAll, List.foldl_cons, kept]

theorem expireAll_of_some (ended : dealer.expire? peers number = some middle)
    (numbers : List Nat) : dealer.expireAll peers (number :: numbers) =
      ((middle.expireAll peers numbers).1 + 1, (middle.expireAll peers numbers).2) := by
  simp only [expireAll, List.foldl_cons, ended]
  apply foldl_counting
  intro count more state other
  cases state.expire? peers other <;> simp [Nat.add_right_comm]

theorem expires_expireAll (peers : Peers) (overdue : ∀ number ∈ numbers, ∃ call,
      dealer.calls[number]? = some call ∧ call.isOverdue now = true) :
    ∃ timed, Expires peers now dealer timed (dealer.expireAll peers numbers).2 ∧
      (dealer.expireAll peers numbers).1 = timed.length ∧
      ∀ number ∈ numbers, ∀ call,
        (dealer.expireAll peers numbers).2.calls[number]? = some call →
          call.isDue peers now = false := by
  induction numbers generalizing dealer with
  | nil => exact ⟨[], .rest dealer, rfl, by simp⟩
  | cons number numbers ih =>
    obtain ⟨call, found, late⟩ := overdue number List.mem_cons_self
    cases due : call.isDue peers now with
    | false =>
      rw [expireAll_of_none (expire?_eq_none found late due)]
      obtain ⟨timed, expires, length, spared⟩ :=
        ih fun other member => overdue other (List.mem_cons_of_mem _ member)
      refine ⟨timed, expires, length, fun other member => ?_⟩
      rcases List.mem_cons.mp member with rfl | rest
      · exact expires.spares fun holder held => Option.some.inj (found.symm.trans held) ▸ due
      · exact spared other rest
    | true =>
      rw [expireAll_of_some (expire?_eq_of_due found due)]
      have turned : ∀ other ∈ numbers, ∃ holder,
          (dealer.turn number call .timeout).calls[other]? = some holder ∧
            holder.isOverdue now = true := by
        intro other member
        obtain ⟨holder, held, behind⟩ := overdue other (List.mem_cons_of_mem _ member)
        rw [getElem?_turn found]
        split
        · exact ⟨_, rfl, by rw [isOverdue_turn, late]⟩
        · exact ⟨holder, held, behind⟩
      obtain ⟨timed, expires, length, spared⟩ := ih turned
      refine ⟨(number, call) :: timed, .expire found due expires, by rw [length]; rfl, ?_⟩
      intro other member
      rcases List.mem_cons.mp member with rfl | rest
      · refine expires.spares fun holder held => ?_
        rw [getElem?_turn found, if_pos rfl] at held
        exact Option.some.inj held ▸ Call.isDue_timeout
      · exact spared other rest

end Look

/--
Looks at the clock for one session after the other, each time at the invocations in some order, and
how many calls ended in them.
-/
inductive Sweeps (peers : Peers) (now : Time) : Dealer → List Nat → Nat → Dealer → Prop
  | rest (dealer : Dealer) : Sweeps peers now dealer [] 0 dealer
  | look {dealer later : Dealer} {session count : Nat} {sessions numbers : List Nat}
      (all : numbers.Perm (dealer.overdue now session))
      (sweeps : Sweeps peers now (dealer.expireAll peers numbers).2 sessions count later) :
      Sweeps peers now dealer (session :: sessions)
        (count + (dealer.expireAll peers numbers).1) later

def sweep (dealer : Dealer) (peers : Peers) (now : Time) (sessions : List Nat) : Nat × Dealer :=
  sessions.foldl (fun (count, dealer) session =>
    let (expired, dealer) := dealer.checkTimeout peers now session
    (count + expired, dealer)) (0, dealer)

theorem sweep_awaited (dealer : Dealer) (peers : Peers) (now : Time) :
    dealer.sweep peers now dealer.awaited = dealer.checkTimeouts peers now := rfl

theorem sweeps_sweep (dealer : Dealer) (peers : Peers) (now : Time) (sessions : List Nat) :
    Sweeps peers now dealer sessions (dealer.sweep peers now sessions).1
      (dealer.sweep peers now sessions).2 := by
  induction sessions generalizing dealer with
  | nil => exact .rest dealer
  | cons session sessions ih =>
    have shift : dealer.sweep peers now (session :: sessions) =
        (((dealer.checkTimeout peers now session).2.sweep peers now sessions).1 +
            (dealer.checkTimeout peers now session).1,
          ((dealer.checkTimeout peers now session).2.sweep peers now sessions).2) := by
      rw [sweep, List.foldl_cons, foldl_counting]
      · rfl
      · intro count more state other
        simp only [Nat.add_right_comm]
    rw [shift]
    exact .look (List.Perm.refl _) (ih _)

theorem Awaiting.active (awaiting : dealer.Awaiting) (found : dealer.calls[number]? = some call)
    (opened : call.isCompleted = false) {target : Call.Target}
    (active : target ∈ call.activeTargets) :
    ∃ index, call.targets[index]? = some target ∧
      dealer.tracked.find? target.key = some (number, index) := by
  obtain ⟨among, state⟩ := List.mem_filter.mp active
  obtain ⟨index, located⟩ := List.mem_iff_getElem?.mp among
  have left : target.state.isFinished = false := by
    simp [eq_of_beq state, Call.Target.State.isFinished]
  exact ⟨index, located, awaiting.awaited found opened located left⟩

theorem Sweeps.expires (sweeps : Sweeps peers now dealer sessions count later)
    (awaiting : dealer.Awaiting) :
    ∃ timed, Expires peers now dealer timed later ∧ count = timed.length ∧
      ∀ (number : Nat) (call : Call), later.calls[number]? = some call →
        call.isDue peers now = true → ∀ target ∈ call.activeTargets, target.callee ∉ sessions := by
  induction sweeps with
  | rest dealer => exact ⟨[], .rest dealer, rfl, by simp⟩
  | @look dealer later session count sessions numbers all _ ih =>
    have overdue : ∀ number ∈ numbers, ∃ call,
        dealer.calls[number]? = some call ∧ call.isOverdue now = true := by
      intro number member
      obtain ⟨_, _, call, -, -, found, -, late⟩ := mem_overdue.mp (all.mem_iff.mp member)
      exact ⟨call, found, late⟩
    obtain ⟨timed, first, length, spared⟩ := expires_expireAll peers overdue
    obtain ⟨more, second, length', left⟩ := ih (first.awaiting awaiting)
    refine ⟨timed ++ more, first.trans second, by rw [List.length_append]; omega, ?_⟩
    intro number call found due target active member
    rcases List.mem_cons.mp member with rfl | rest
    · -- The target awaits an answer from the start, so the call was looked at.
      have between := second.before found due
      have before := first.before between due
      obtain ⟨opened, late, -⟩ := Call.isDue_iff.mp due
      obtain ⟨index, -, tracked⟩ := awaiting.active before opened active
      have looked : number ∈ numbers :=
        all.mem_iff.mpr (mem_overdue.mpr ⟨_, index, call, tracked, rfl, before, opened, late⟩)
      rw [spared number looked call between] at due
      cases due
    · exact left number call found due target active rest

theorem Sweeps.spares (sweeps : Sweeps peers now dealer sessions count later)
    (awaiting : dealer.Awaiting) (all : dealer.awaited ⊆ sessions) :
    ∃ timed, Expires peers now dealer timed later ∧ count = timed.length ∧
      ∀ (number : Nat) (call : Call), later.calls[number]? = some call →
        call.isDue peers now = false := by
  obtain ⟨timed, expires, length, left⟩ := sweeps.expires awaiting
  refine ⟨timed, expires, length, fun number call found => ?_⟩
  by_contra due
  have due : call.isDue peers now = true := by simpa using due
  obtain ⟨opened, -, target, active, -⟩ := Call.isDue_iff.mp due
  obtain ⟨index, -, tracked⟩ := awaiting.active (expires.before found due) opened active
  have listed : target.callee ∈ dealer.awaited := by
    rw [awaited, List.mem_eraseDups]
    exact List.mem_map_of_mem ((Keyed.mem_keys_iff _ _).mpr ⟨_, tracked⟩)
  exact left number call found due target active (all listed)

theorem Sweeps.idle (sweeps : Sweeps peers now dealer sessions count later)
    (awaiting : dealer.Awaiting) (calm : ∀ (number : Nat) (call : Call),
      dealer.calls[number]? = some call → call.isDue peers now = false) :
    count = 0 ∧ later = dealer := by
  obtain ⟨timed, expires, length, -⟩ := sweeps.expires awaiting
  cases expires with
  | rest => exact ⟨length, rfl⟩
  | @expire _ _ number call _ found due _ =>
    rw [calm number call found] at due
    cases due

def parting (number : Nat) (call : Call) : List Effect :=
  .send call.caller (Rpc.error .call call.request [(Dict.Key.reason, .text "call.timeout")]
    "wamp.error.timeout" .empty).message (some number) ::
  call.activeTargets.map fun target =>
    .send target.callee (Rpc.interrupt target.invocation
      [(Dict.Key.mode, .text "killnowait"), (Dict.Key.reason, .text "call.timeout")]).message
      (some number)

theorem mailing_of_sendable {sent : List (Nat × Rpc)}
    (sendable : ∀ entry ∈ sent, entry.2.isSendable = true) (number : Nat) :
    mailing number sent =
      sent.map fun entry => .send entry.1 entry.2.message (some number) := by
  induction sent with
  | nil => rfl
  | cons entry sent ih =>
    rw [List.map_cons, ← ih fun other member => sendable other (List.mem_cons_of_mem _ member),
      mailing_cons, outgoing_eq, if_pos (sendable entry List.mem_cons_self)]
    rfl

theorem mailing_timeout (ids : call.ValidIds) (opened : call.isCompleted = false) (number : Nat) :
    mailing number (call.turn .timeout).sent = parting number call := by
  have admits : call.Admits .timeout := opened
  have outbound := outbound_turn ids admits trivial
  rw [mailing_of_sendable fun entry member => (outbound entry member).isSendable]
  simp only [Call.turn, Call.stop, Option.toList_some, List.map_cons, List.map_nil,
    List.singleton_append, Call.interrupts, List.map_map]
  rfl

theorem subtotal_timed (timed : List (Nat × Call)) (counter : Counter) (path : List String) :
    counter.subtotal path
        (records (timed.flatMap fun entry => entry.2.noteAt 0 .cancellation)) =
      if counter = .canceled then timed.countP fun entry => entry.2.countsFor path else 0 := by
  induction timed with
  | nil => simp [records]
  | cons entry timed ih =>
    have first : counter.subtotal path (records (entry.2.noteAt 0 .cancellation)) =
        if entry.2.countsFor path then counter.amount .cancellation else 0 :=
      subtotal_note entry.2 counter 0 .cancellation path
    have both : records ((entry :: timed).flatMap fun entry => entry.2.noteAt 0 .cancellation) =
        records (entry.2.noteAt 0 .cancellation) ++
          records (timed.flatMap fun entry => entry.2.noteAt 0 .cancellation) := by
      simp [records]
    rw [both, Counter.subtotal_append, first, ih, List.countP_cons]
    cases counter <;> simp [Counter.amount, Nat.add_comm]

/--
However often and in whatever order the sessions whose answers are awaited are looked at, just the
calls that are due end, each once. Each sends an error to its caller and an interrupt to each of its
active targets, which are released, and counts as canceled. Nothing else changes, and a second sweep
at the same time finds nothing to do.
-/
theorem sweep_exact (peers : Peers) (options : Options) (operations : List Operation)
    (valid : ∀ operation ∈ operations, operation.IsValid)
    (draws : ∀ session count, isValidId (peers.requestId session count) = true)
    (fresh : RunsFresh peers options operations) (now : Time) :
    let dealer := run peers options operations
    dealer.sweep peers now dealer.awaited = dealer.checkTimeouts peers now ∧
    (∀ sessions, Sweeps peers now dealer sessions (dealer.sweep peers now sessions).1
      (dealer.sweep peers now sessions).2) ∧
    ∀ sessions count later, dealer.awaited ⊆ sessions →
      Sweeps peers now dealer sessions count later →
      ∃ timed : List (Nat × Call),
        (timed.map (·.1)).Nodup ∧
        (∀ number call, (number, call) ∈ timed ↔
          dealer.calls[number]? = some call ∧ call.isDue peers now = true) ∧
        count = timed.length ∧
        later.effects = dealer.effects ++ timed.flatMap (fun entry => parting entry.1 entry.2) ∧
        (∀ (number : Nat) (call : Call), dealer.calls[number]? = some call → later.calls[number]? =
          some (if call.isDue peers now then call.completed.interrupted else call)) ∧
        (∀ number call, (number, call) ∈ timed → ∀ target ∈ call.activeTargets,
          ∃ index, call.targets[index]? = some target ∧
            dealer.tracked.find? target.key = some (number, index)) ∧
        (∀ key place, later.tracked.find? key = some place ↔
          dealer.tracked.find? key = some place ∧
            ∀ entry ∈ timed, ∀ target ∈ entry.2.activeTargets, target.key ≠ key) ∧
        (∀ (counter : Counter) path, counter.read (later.statistics.node path) =
          counter.read (dealer.statistics.node path) + UInt64.ofNat
            (if counter = .canceled then timed.countP fun entry => entry.2.countsFor path else 0)) ∧
        ∀ others times again, Sweeps peers now later others times again →
          times = 0 ∧ again = later := by
  intro dealer
  have awaiting : dealer.Awaiting := awaiting_run peers options operations fresh
  have ids : dealer.ValidIds := validIds_run draws options operations valid
  obtain ⟨books, accounted⟩ := accounted_run peers options operations
  refine ⟨sweep_awaited dealer peers now, sweeps_sweep dealer peers now, ?_⟩
  intro sessions count later all sweeps
  obtain ⟨timed, expires, length, spared⟩ := sweeps.spares awaiting all
  have exactly (number : Nat) (call : Call) : (number, call) ∈ timed ↔
      dealer.calls[number]? = some call ∧ call.isDue peers now = true := by
    refine ⟨expires.due (number, call), fun ⟨found, due⟩ => ?_⟩
    by_cases member : number ∈ timed.map (·.1)
    · obtain ⟨⟨_, holder⟩, among, rfl⟩ := List.mem_map.mp member
      obtain rfl : holder = call := Option.some.inj ((expires.due _ among).1.symm.trans found)
      exact among
    · rw [spared number call ((expires.untouched member).trans found)] at due
      cases due
  have sent : timed.flatMap (fun entry => mailing entry.1 (entry.2.turn .timeout).sent) =
      timed.flatMap fun entry => parting entry.1 entry.2 := by
    refine List.flatMap_congr fun entry member => ?_
    obtain ⟨found, due⟩ := expires.due entry member
    exact mailing_timeout (ids.calls _ (List.mem_of_getElem? found)) (Call.isDue_iff.mp due).1 _
  refine ⟨timed, expires.once, exactly, length, sent ▸ expires.effects, ?_, ?_, ?_, ?_, ?_⟩
  · intro number call found
    split
    · rename_i due
      exact expires.ended _ ((exactly number call).mpr ⟨found, due⟩)
    · rename_i spared
      rw [expires.untouched, found]
      intro member
      obtain ⟨⟨_, holder⟩, among, rfl⟩ := List.mem_map.mp member
      obtain ⟨there, due⟩ := expires.due _ among
      exact spared (Option.some.inj (found.symm.trans there) ▸ due)
  · intro number call member target active
    obtain ⟨found, due⟩ := expires.due _ member
    exact awaiting.active found (Call.isDue_iff.mp due).1 active
  · intro key place
    rw [expires.tracked, find?_releasing]
    simp only [List.mem_flatMap, List.mem_map, not_exists, not_and]
  · intro counter path
    rw [expires.statistics, counter_recording accounted.root, subtotal_timed]
  · exact fun others times again repeated => repeated.idle (expires.awaiting awaiting) spared

theorem sweep_exact_of_mixed_callees :
    let peers : Peers :=
      { obliging with
        supports := fun session _ feature => !(session == 1 && feature == Feature.callTimeout) }
    let operations : List Operation :=
      [.handle 0 0 1 ⟨.register, [.ofNat 1, .dict [("invoke", .text "random")], .text "sum"]⟩,
        .handle 0 0 3 ⟨.register, [.ofNat 1, .dict [("invoke", .text "random")], .text "sum"]⟩,
        .handle 0 0 3 ⟨.register, [.ofNat 2, .dict [], .text "mul"]⟩,
        .handle 0 0 2 ⟨.call, [.ofNat 1, .dict [("receive_progress", .bool true),
          ("timeout", .ofNat 5)], .text "sum"]⟩,
        .handle 0 0 2 ⟨.call, [.ofNat 2, .dict [("timeout", .ofNat 5)], .text "mul"]⟩]
    let now := Time.milliseconds 10
    (∀ operation ∈ operations, operation.IsValid) ∧
    (∀ session count, isValidId (peers.requestId session count) = true) ∧
    RunsFresh peers {} operations ∧
    ∃ dealer call later, dealer = run peers {} operations ∧ dealer.awaited ⊆ [3, 1, 3] ∧
      Sweeps peers now dealer [3, 1, 3] 1 later ∧
      dealer.calls[0]? = some call ∧ call.activeTargets.map (·.callee) = [1, 3] ∧
      later.effects = dealer.effects ++ parting 0 call ∧
      later.calls[1]? = dealer.calls[1]? ∧
      ∃ count again, Sweeps peers now later [1, 3] count again ∧ count = 0 ∧ again = later := by
  intro peers operations now
  have valid : ∀ operation ∈ operations, operation.IsValid := by
    simp only [operations, List.forall_mem_cons, List.not_mem_nil, false_imp_iff, implies_true,
      and_true]
    exact ⟨rfl, rfl, rfl, rfl, rfl⟩
  have draws (session count : Nat) : isValidId (peers.requestId session count) = true :=
    isValidId_requestIdAfter count
  have fresh : RunsFresh peers {} operations := by decide +kernel
  obtain ⟨-, sweeps, exactly⟩ := sweep_exact peers {} operations valid draws fresh now
  obtain ⟨dealer, same⟩ : ∃ dealer, dealer = run peers {} operations := ⟨_, rfl⟩
  have all : dealer.awaited ⊆ [3, 1, 3] := by
    rw [same]
    decide +kernel
  have one : (dealer.sweep peers now [3, 1, 3]).1 = 1 := by
    rw [same]
    decide +kernel
  have late : dealer.calls[0]?.any (fun call => call.isDue peers now &&
      call.activeTargets.map (·.callee) = [1, 3]) = true := by
    rw [same]
    decide +kernel
  have watched : dealer.calls[1]?.any (fun call => !call.isDue peers now) = true := by
    rw [same]
    decide +kernel
  rw [← same] at sweeps exactly
  have looked := sweeps [3, 1, 3]
  rw [one] at looked
  obtain ⟨timed, -, due, length, sent, calls, -, -, -, idle⟩ := exactly _ _ _ all looked
  obtain ⟨entry, rfl⟩ := List.length_eq_one_iff.mp length.symm
  obtain ⟨call, found, both⟩ := (Option.any_eq_true _ _).mp late
  obtain ⟨other, held, spared⟩ := (Option.any_eq_true _ _).mp watched
  simp only [Bool.and_eq_true, decide_eq_true_eq] at both
  obtain rfl := List.mem_singleton.mp ((due 0 call).mpr ⟨found, both.1⟩)
  rw [List.flatMap_singleton] at sent
  rw [Bool.not_eq_true'] at spared
  have kept := calls 1 other held
  rw [spared] at kept
  have again := sweeps_sweep (dealer.sweep peers now [3, 1, 3]).2 peers now [1, 3]
  exact ⟨valid, draws, fresh, dealer, call, _, same, all, looked, found, both.2, sent,
    kept.trans held.symm, _, _, again, idle _ _ _ again⟩

end Dealer

end CallRouter
