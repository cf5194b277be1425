import CallRouter.Proofs.Dealer.Accounts
import CallRouter.Proofs.Dealer.Attempts

namespace CallRouter

def Effect.invocation? : Effect → Option (Nat × Option Nat × Option Nat)
  | .send session message _ =>
    if message.kind = .invocation then some (session, message.nat? 0, message.nat? 1) else none
  | .publish _ => none

namespace Dealer

open Statistics

variable {peers : Peers} {operation : Operation} {dealer later : Dealer} {call : Call}
  {number : Nat}

def invoked (dealer : Dealer) : List (Nat × Option Nat × Option Nat) :=
  dealer.effects.filterMap Effect.invocation?

def summons (target : Call.Target) : Nat × Option Nat × Option Nat :=
  (target.callee, some target.invocation, some target.registration)

theorem invoked_aside (aside : dealer.Aside later) : later.invoked = dealer.invoked := by
  obtain ⟨new, grown, silent⟩ := aside.effects
  have nothing : new.filterMap Effect.invocation? = [] := by
    rw [List.filterMap_eq_nil_iff]
    intro effect member
    cases effect with
    | publish event => rfl
    | send session message about =>
      refine if_neg fun invokes => ?_
      have reply := (silent session message about member).2
      simp [invokes, Message.Kind.isReply] at reply
  rw [invoked, grown, List.filterMap_append, nothing, List.append_nil]
  rfl

theorem invoked_turn {event : Call.Event} (dealer : Dealer) (number : Nat)
    (admits : call.Admits event) : (dealer.turn number call event).invoked = dealer.invoked := by
  have nothing : (mailing number (call.turn event).sent).filterMap Effect.invocation? = [] := by
    rw [List.filterMap_eq_nil_iff]
    intro effect member
    obtain ⟨⟨session, rpc⟩, among, inside⟩ := List.mem_flatMap.mp member
    obtain ⟨message, rfl⟩ := send_of_outgoing inside
    refine if_neg ?_
    rw [kind_of_outgoing inside]
    exact Call.sent_not_invocation admits among
  simp only [invoked, turn, List.filterMap_append, nothing, List.append_nil]

theorem invoked_moves (moves : Moves peers operation dealer later) :
    later.invoked = dealer.invoked := by
  induction moves with
  | refl => rfl
  | tail _ move ih =>
    rw [← ih]
    cases move with
    | aside aside => exact invoked_aside aside
    | turn found cause => exact invoked_turn _ _ cause.admits
    | retire closing => rfl

theorem summons_of_origins (same : later.calls.map Call.origin = dealer.calls.map Call.origin) :
    later.targets.map summons = dealer.targets.map summons := by
  have shown (targets : List Call.Target) :
      targets.map summons = (targets.map Call.Target.origin).map summons := by
    rw [List.map_map]
    rfl
  rw [shown later.targets, targets_of_origins same, ← shown]

theorem origins_moves (moves : Moves peers operation dealer later) :
    later.calls.map Call.origin = dealer.calls.map Call.origin := by
  induction moves with
  | refl => rfl
  | tail _ move ih =>
    rw [← ih]
    cases move with
    | aside aside => rw [aside.calls]
    | turn found cause => exact origins_turn found _
    | retire closing => rfl

theorem invoked_dispatch (numbered : dealer.directory.Numbered)
    (draws : ∀ session count, isValidId (peers.requestId session count) = true)
    (dispatches : Dispatches peers dealer operation call later) :
    later.invoked = dealer.invoked ++ call.targets.map summons := by
  obtain ⟨payload, grown⟩ := dispatches.effects
  have sent (targets : List Call.Target) (among : ∀ target ∈ targets, target ∈ call.targets) :
      (mailing dealer.calls.length (targets.map fun target =>
        (target.callee, Rpc.invocation target.invocation target.registration
          (invocationDetails peers dealer.options call target) payload))).filterMap
            Effect.invocation? = targets.map summons := by
    induction targets with
    | nil => rfl
    | cons target rest ih =>
      have member := among target List.mem_cons_self
      have sendable := Rpc.isSendable_invocation (dispatches.invocations draws target member)
        (dispatches.registered numbered member)
          (invocationDetails peers dealer.options call target) payload
      rw [List.map_cons, mailing_cons, List.filterMap_append, outgoing_eq, if_pos sendable,
        ih fun other inside => among other (List.mem_cons_of_mem _ inside)]
      rfl
  rw [invoked, grown, List.filterMap_append, invocations, sent _ fun _ member => member]
  rfl

theorem invoked_run (peers : Peers) (options : Options) (operations : List Operation)
    (draws : ∀ session count, isValidId (peers.requestId session count) = true) :
    (run peers options operations).invoked =
      (run peers options operations).targets.map summons := by
  induction operations using List.reverseRecOn with
  | nil => rfl
  | append_singleton operations operation ih =>
    have linked := linked_run peers options operations
    rw [run_concat]
    rcases step_cases linked peers operation with moves | ⟨call, dispatches⟩
    · rw [invoked_moves moves, summons_of_origins (origins_moves moves), ih]
    · have grown : ((run peers options operations).step peers operation).targets =
          (run peers options operations).targets ++ call.targets := by
        simp [targets, dispatches.calls]
      rw [invoked_dispatch (numbered_run peers options operations) draws dispatches, grown,
        List.map_append, ih]

theorem countP_calls_le (calls : List Call) (name : String) :
    (calls.countP fun call => call.countsFor [name]) ≤
      (calls.flatMap (·.targets)).countP fun target => target.pattern.uri == name := by
  induction calls with
  | nil => exact Nat.le_refl _
  | cons call calls ih =>
    have one : (if call.countsFor [name] then 1 else 0) ≤
        call.targets.countP fun target => target.pattern.uri == name := by
      split
      · rename_i counts
        obtain ⟨target, first, named⟩ := (Option.any_eq_true _ _).mp counts
        rw [isPrefixOf_single] at named
        exact List.countP_pos_iff.mpr ⟨target, List.mem_of_getElem? first, named⟩
      · exact Nat.zero_le _
    rw [List.flatMap_cons, List.countP_append, List.countP_cons]
    omega

/--
A counter of a node is the sum, up to multiples of its size, of what was recorded on the node and on
those below it. In a dealer that makes the counters of the root the sums of those of all procedures.
For each procedure, attempts are the calls that were dispatched to it, and invocations are those
that were sent for its registrations. Unless there are too many of them for a counter, there are at
least as many invocations as attempts, and as answers and tracked invocations together.
-/
theorem statistics_conserved :
    (∀ (statistics : Statistics) (records : Records), Grown statistics records →
      ∀ (counter : Counter) (path : List String),
        counter.read (statistics.node path) = UInt64.ofNat (counter.subtotal path records)) ∧
    ∀ (peers : Peers) (options : Options) (operations : List Operation),
      let dealer := run peers options operations
      (∀ counter : Counter, counter.read dealer.statistics.total = UInt64.ofNat
        (dealer.statistics.procedures.values.map fun counters =>
          (counter.read counters).toNat).sum) ∧
      ((∀ session count, isValidId (peers.requestId session count) = true) →
        dealer.invoked = dealer.targets.map summons) ∧
      ∀ name : String,
        let counters := dealer.statistics.node [name]
        let attempts := dealer.calls.countP fun call => call.countsFor [name]
        let invocations := dealer.targets.countP fun target => target.pattern.uri == name
        counters.attempted = UInt64.ofNat attempts ∧
        counters.invoked = UInt64.ofNat invocations ∧
        (invocations < 2 ^ 64 → counters.attempted ≤ counters.invoked ∧
          counters.completed.toNat + counters.errored.toNat + dealer.awaitedOf name ≤
            counters.invoked.toNat) := by
  refine ⟨fun statistics records grown => agrees_of_grown grown, fun peers options operations => ?_⟩
  intro dealer
  obtain ⟨books, accounted⟩ := accounted_run peers options operations
  refine ⟨total_eq_sum accounted.agrees accounted.ofProcedures,
    invoked_run peers options operations, fun name => ?_⟩
  intro counters attempts invocations
  have attempted : counters.attempted = UInt64.ofNat attempts :=
    (accounted.agrees .attempted [name]).trans (congrArg UInt64.ofNat (accounted.attempts name))
  have invoked : counters.invoked = UInt64.ofNat invocations :=
    (accounted.agrees .invoked [name]).trans (congrArg UInt64.ofNat (accounted.invocations name))
  refine ⟨attempted, invoked, fun few => ?_⟩
  have fewer : attempts ≤ invocations := countP_calls_le dealer.calls name
  have exactly : counters.invoked.toNat = invocations := by
    rw [invoked]
    exact UInt64.toNat_ofNat_of_lt few
  have completed : counters.completed.toNat ≤ Counter.completed.subtotal [name] books := by
    rw [show counters.completed = UInt64.ofNat _ from accounted.agrees .completed [name]]
    exact Nat.mod_le _ _
  have errored : counters.errored.toNat ≤ Counter.errored.subtotal [name] books := by
    rw [show counters.errored = UInt64.ofNat _ from accounted.agrees .errored [name]]
    exact Nat.mod_le _ _
  have answers : _ + _ + dealer.awaitedOf name ≤ invocations := accounted.answers name
  refine ⟨?_, by omega⟩
  rw [UInt64.le_iff_toNat_le, exactly, attempted]
  exact Nat.le_trans (Nat.mod_le _ _) fewer

theorem statistics_conserved_of_fan_out :
    let tree := (Statistics.empty 0).attach ["sum"]
    let operations : List Operation :=
      [.handle 0 0 1 ⟨.register, [.ofNat 1, .dict [("invoke", .text "random")], .text "sum"]⟩,
        .handle 0 0 3 ⟨.register, [.ofNat 1, .dict [("invoke", .text "random")], .text "sum"]⟩,
        .handle 0 0 2 ⟨.call, [.ofNat 1, .dict [("receive_progress", .bool true)], .text "sum"]⟩,
        .handle 5000 0 1 ⟨.yield, [.ofNat 1, .dict []]⟩]
    let dealer := run obliging {} operations
    let counters := dealer.statistics.node ["sum"]
    Grown (tree.record ["sum"] (.completion 5000)) [(["sum"], .completion 5000)] ∧
    ((tree.record ["sum"] (.completion 5000)).node []).durationMicros = 5 ∧
    (∀ session count, isValidId (obliging.requestId session count) = true) ∧
    dealer.invoked = [(1, some 1, some 2), (3, some 1, some 3)] ∧
    (dealer.targets.countP fun target => target.pattern.uri == "sum") = 2 ∧
    counters.completed = 1 ∧ dealer.awaitedOf "sum" = 1 ∧ counters.attempted ≤ counters.invoked ∧
    counters.completed.toNat + counters.errored.toNat + dealer.awaitedOf "sum" ≤
      counters.invoked.toNat := by
  intro tree operations dealer counters
  obtain ⟨sums, ofRun⟩ := statistics_conserved
  obtain ⟨-, sent, ofProcedure⟩ := ofRun obliging {} operations
  have root : ((Statistics.empty 0).counters? []).isSome = true := rfl
  have planted : Grown tree [] := .child (.root 0) root "sum"
  have grown : Grown (tree.record ["sum"] (.completion 5000)) [(["sum"], .completion 5000)] :=
    planted.record (by decide +kernel) _
  have draws (session count : Nat) : isValidId (obliging.requestId session count) = true :=
    isValidId_requestIdAfter count
  have two : (dealer.targets.countP fun target => target.pattern.uri == "sum") = 2 := by
    decide +kernel
  obtain ⟨-, -, ordered⟩ := ofProcedure "sum"
  have few := ordered (two ▸ by decide)
  exact ⟨grown, sums _ _ grown .durationMicros [], draws, (sent draws).trans (by decide +kernel),
    two, by decide +kernel, by decide +kernel, few⟩

end Dealer

end CallRouter
