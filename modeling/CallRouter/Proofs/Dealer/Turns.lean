import CallRouter.Dealer.Handling
import CallRouter.Proofs.Call.Turn

namespace CallRouter.Dealer

def outgoing (call : Option Nat) (session : Nat) (rpc : Rpc) : List Effect :=
  match rpc.toMessage .standard with
  | .ok message => [.send session message call]
  | .error _ => []

def mailing (number : Nat) (sent : List (Nat × Rpc)) : List Effect :=
  sent.flatMap fun (session, rpc) => outgoing (some number) session rpc

@[simp] theorem mailing_nil (number : Nat) : mailing number [] = [] := rfl

@[simp] theorem mailing_cons (number session : Nat) (rpc : Rpc) (sent : List (Nat × Rpc)) :
    mailing number ((session, rpc) :: sent) =
      outgoing (some number) session rpc ++ mailing number sent := rfl

theorem send_eq (dealer : Dealer) (session : Nat) (rpc : Rpc) (call : Option Nat) :
    dealer.send session rpc call =
      { dealer with effects := dealer.effects ++ outgoing call session rpc } := by
  unfold send outgoing perform
  cases rpc.toMessage .standard <;> simp

def recording (statistics : Statistics) (recorded : List (Pattern × Occurrence)) : Statistics :=
  recorded.foldl (fun statistics (pattern, occurrence) =>
    statistics.record [pattern.uri] occurrence) statistics

def releasing (tracked : Keyed (Nat × Nat) (Nat × Nat)) (keys : List (Nat × Nat)) :
    Keyed (Nat × Nat) (Nat × Nat) :=
  tracked.filter fun key _ => !keys.contains key

def forgetting (cancelable : Keyed (Nat × Nat) Nat) (number : Nat) (call : Call) :
    Keyed (Nat × Nat) Nat :=
  cancelable.filter fun key other => !(key == (call.caller, call.request) && other == number)

def turn (dealer : Dealer) (number : Nat) (call : Call) (event : Call.Event) : Dealer :=
  let turn := call.turn event
  { dealer with
    calls := dealer.calls.set number turn.call
    tracked := releasing dealer.tracked turn.released
    cancelable := if !call.isCompleted && turn.call.isCompleted
      then forgetting dealer.cancelable number call else dealer.cancelable
    statistics := recording dealer.statistics turn.recorded
    effects := dealer.effects ++ mailing number turn.sent }

@[simp] theorem recording_nil (statistics : Statistics) : recording statistics [] = statistics :=
  rfl

@[simp] theorem recording_singleton (statistics : Statistics) (pattern : Pattern)
    (occurrence : Occurrence) :
    recording statistics [(pattern, occurrence)] = statistics.record [pattern.uri] occurrence :=
  rfl

@[simp] theorem releasing_nil (tracked : Keyed (Nat × Nat) (Nat × Nat)) :
    releasing tracked [] = tracked := by
  simp [releasing, Keyed.filter_true]

theorem releasing_releasing (tracked : Keyed (Nat × Nat) (Nat × Nat))
    (keys more : List (Nat × Nat)) :
    releasing (releasing tracked keys) more = releasing tracked (keys ++ more) := by
  simp only [releasing, Keyed.filter_filter]
  congr 1
  funext key value
  simp

theorem find?_releasing {tracked : Keyed (Nat × Nat) (Nat × Nat)} {keys : List (Nat × Nat)}
    {key value : Nat × Nat} :
    (releasing tracked keys).find? key = some value ↔
      tracked.find? key = some value ∧ key ∉ keys := by
  simp [releasing, Keyed.find?_filter]

theorem find?_forgetting {cancelable : Keyed (Nat × Nat) Nat} {number other : Nat} {call : Call}
    {key : Nat × Nat} :
    (forgetting cancelable number call).find? key = some other ↔
      cancelable.find? key = some other ∧
        (key = (call.caller, call.request) → other ≠ number) := by
  simp [forgetting, Keyed.find?_filter, Decidable.imp_iff_not_or]

theorem set_of_found {dealer : Dealer} {number : Nat} {call : Call}
    (found : dealer.calls[number]? = some call) : dealer.calls.set number call = dealer.calls := by
  obtain ⟨bound, located⟩ := List.getElem?_eq_some_iff.mp found
  rw [← located]
  exact List.set_getElem_self bound

theorem untrack_eq (dealer : Dealer) (target : Call.Target) :
    dealer.untrack target.callee target.invocation =
      { dealer with tracked := releasing dealer.tracked [target.key] } := by
  simp [untrack, Keyed.erase, releasing, Call.Target.key]

theorem notices_eq (number : Nat) (mode : CancelMode) (reason : String) (release : Bool)
    (targets : List Call.Target) (dealer : Dealer) :
    targets.foldl (fun dealer target =>
      let dealer := if release then dealer.untrack target.callee target.invocation else dealer
      dealer.send target.callee (target.interrupt mode reason).2 (some number)) dealer =
    { dealer with
      tracked := releasing dealer.tracked (if release then targets.map Call.Target.key else [])
      effects :=
        dealer.effects ++ mailing number (targets.map (Call.Target.interrupt mode reason)) } := by
  induction targets generalizing dealer with
  | nil => simp [mailing]
  | cons target targets ih =>
    rw [List.foldl_cons, ih]
    cases release with
    | false => simp [send_eq, mailing, Call.Target.interrupt]
    | true => simp [send_eq, untrack_eq, releasing_releasing, mailing, Call.Target.interrupt]

theorem interrupt_eq {dealer : Dealer} {number : Nat} {call : Call}
    (found : dealer.calls[number]? = some call) (mode : CancelMode) (reason : String)
    (release : Bool) :
    dealer.interrupt number mode reason release =
      { dealer with
        calls := dealer.calls.set number call.interrupted
        tracked := releasing dealer.tracked
          (if release then call.activeTargets.map Call.Target.key else [])
        effects := dealer.effects ++ mailing number (call.interrupts mode reason) } := by
  simp only [interrupt, found, Call.interruptActive_eq]
  exact notices_eq number mode reason release call.activeTargets
    (dealer.setCall number call.interrupted)

theorem interrupt_setCall {dealer : Dealer} {number : Nat} (call : Call)
    (bound : number < dealer.calls.length) (mode : CancelMode) (reason : String)
    (release : Bool) :
    (dealer.setCall number call).interrupt number mode reason release =
      { dealer with
        calls := dealer.calls.set number call.interrupted
        tracked := releasing dealer.tracked
          (if release then call.activeTargets.map Call.Target.key else [])
        effects := dealer.effects ++ mailing number (call.interrupts mode reason) } := by
  have found : (dealer.setCall number call).calls[number]? = some call := by
    simp [setCall, bound]
  rw [interrupt_eq found]
  simp [setCall]

theorem forgetting_of_absent {cancelable : Keyed (Nat × Nat) Nat} {number : Nat} {call : Call}
    (absent : cancelable.find? (call.caller, call.request) ≠ some number) :
    forgetting cancelable number call = cancelable := by
  rw [forgetting, ← Keyed.filter_true cancelable, Keyed.filter_filter]
  apply Keyed.filter_congr
  intro key value located
  by_cases here : key = (call.caller, call.request)
  · rw [here] at located
    have other : value ≠ number := by
      rintro rfl
      exact absent located
    simp [other]
  · simp [here]

theorem forget_eq (dealer : Dealer) (number : Nat) (call : Call) :
    dealer.forget number call =
      { dealer with cancelable := forgetting dealer.cancelable number call } := by
  unfold forget
  split
  · rename_i found
    have erased : dealer.cancelable.erase (call.caller, call.request) =
        forgetting dealer.cancelable number call := by
      apply Keyed.filter_congr
      intro key value located
      by_cases here : key = (call.caller, call.request)
      · rw [here, found] at located
        simp_all
      · simp [here]
    rw [erased]
  · rename_i absent
    rw [forgetting_of_absent absent]

@[simp] theorem forgetting_setCancelMode (cancelable : Keyed (Nat × Nat) Nat) (number : Nat)
    (call : Call) (mode : CancelMode) :
    forgetting cancelable number (call.setCancelMode mode) = forgetting cancelable number call :=
  rfl

@[simp] theorem forgetting_settled (cancelable : Keyed (Nat × Nat) Nat) (number : Nat)
    (call : Call) (index : Nat) (outcome : Call.Outcome) :
    forgetting cancelable number (call.settled index outcome) =
      forgetting cancelable number call := rfl

theorem conclude?_of_completed {dealer : Dealer} {number : Nat} {call : Call} {reply : Rpc}
    (done : call.isCompleted = true) : dealer.conclude? number call reply = none := by
  simp [conclude?, Call.complete?, done]

def concluded (dealer : Dealer) (number : Nat) (call : Call) (reply : Rpc) : Dealer :=
  { dealer with
    calls := dealer.calls.set number call.completed
    cancelable := forgetting dealer.cancelable number call
    effects := dealer.effects ++ outgoing (some number) call.caller reply }

theorem conclude?_of_open {dealer : Dealer} {number : Nat} {call : Call} {reply : Rpc}
    (opened : call.isCompleted = false) :
    dealer.conclude? number call reply = some (dealer.concluded number call reply) := by
  simp [conclude?, Call.complete?_of_open opened, send_eq, forget_eq, setCall, concluded]

theorem interrupt_concluded {dealer : Dealer} {number : Nat} (call : Call) (reply : Rpc)
    (bound : number < dealer.calls.length) (mode : CancelMode) (reason : String) :
    (dealer.concluded number call reply).interrupt number mode reason true =
      { dealer with
        calls := dealer.calls.set number call.completed.interrupted
        tracked := releasing dealer.tracked (call.activeTargets.map Call.Target.key)
        cancelable := forgetting dealer.cancelable number call
        effects := dealer.effects ++
          mailing number ((call.caller, reply) :: call.interrupts mode reason) } := by
  have found : (dealer.concluded number call reply).calls[number]? = some call.completed := by
    simp [concluded, bound]
  rw [interrupt_eq found]
  simp [concluded]

theorem target?_eq_some_iff {dealer : Dealer} {callee invocation number index : Nat} {call : Call}
    {target : Call.Target} :
    dealer.target? callee invocation = some (number, call, index, target) ↔
      dealer.tracked.find? (callee, invocation) = some (number, index) ∧
        dealer.calls[number]? = some call ∧ call.targets[index]? = some target := by
  simp only [target?, bind, Option.bind_eq_some_iff, pure]
  constructor
  · rintro ⟨⟨n, i⟩, tracked, c, found, t, located, equal⟩
    simp only [Option.some.injEq, Prod.mk.injEq] at equal
    obtain ⟨rfl, rfl, rfl, rfl⟩ := equal
    exact ⟨tracked, found, located⟩
  · rintro ⟨tracked, found, located⟩
    exact ⟨(number, index), tracked, call, found, target, located, rfl⟩

theorem sendProgress_eq {dealer : Dealer} {number : Nat} {call : Call}
    (found : dealer.calls[number]? = some call) (opened : call.isCompleted = false)
    (payload : Payload) :
    dealer.sendProgress number call payload = dealer.turn number call (.progress payload) := by
  simp [sendProgress, opened, send_eq, turn, Call.turn, Call.progressReply, set_of_found found,
    mailing]

theorem yieldResult_eq {dealer : Dealer} {number index : Nat} {call : Call} {target : Call.Target}
    (tracked : dealer.tracked.find? target.key = some (number, index))
    (found : dealer.calls[number]? = some call) (located : call.targets[index]? = some target)
    (left : target.state.isFinished = false) (now : Time) (payload : Payload) :
    dealer.yieldResult now target.callee target.invocation payload =
      dealer.turn number call (.result index payload (now - call.started)) := by
  have awaited : dealer.target? target.callee target.invocation =
      some (number, call, index, target) := target?_eq_some_iff.mpr ⟨tracked, found, located⟩
  simp only [yieldResult, awaited, Call.finish?_of_unfinished located left]
  cases done : call.isCompleted with
  | true =>
    have same : (call.settled index .result).completed = call.settled index .result :=
      Call.completed_of_isCompleted done
    by_cases more : 0 < call.remaining - 1
    · simp [more, done, turn, Call.turn, Call.keyAt_of_found located,
        Call.noteAt_of_found located, sendProgress, untrack_eq, setCall, record]
    · simp [more, done, same, turn, Call.turn, Call.keyAt_of_found located,
        Call.noteAt_of_found located, untrack_eq, setCall, record, conclude?_of_completed]
  | false =>
    by_cases more : 0 < call.remaining - 1
    · simp [more, done, turn, Call.turn, Call.keyAt_of_found located,
        Call.noteAt_of_found located, sendProgress, untrack_eq, setCall, record, send_eq,
        Call.progressReply]
    · simp [more, done, turn, Call.turn, Call.keyAt_of_found located,
        Call.noteAt_of_found located, untrack_eq, setCall, record, conclude?_of_open, concluded]

theorem fail_eq {dealer : Dealer} {number index : Nat} {call : Call} {target : Call.Target}
    (tracked : dealer.tracked.find? target.key = some (number, index))
    (found : dealer.calls[number]? = some call) (located : call.targets[index]? = some target)
    (left : target.state.isFinished = false) (details : Dict) (error : String)
    (payload : Payload) :
    dealer.fail target.callee target.invocation details error payload =
      dealer.turn number call (.failure index details error payload) := by
  have awaited : dealer.target? target.callee target.invocation =
      some (number, call, index, target) := target?_eq_some_iff.mpr ⟨tracked, found, located⟩
  have bound : number < dealer.calls.length := (List.getElem?_eq_some_iff.mp found).1
  simp only [fail, awaited, Call.finish?_of_unfinished located left, untrack_eq]
  cases done : call.isCompleted with
  | true =>
    simp [done, turn, Call.turn, Call.keyAt_of_found located, Call.noteAt_of_found located,
      setCall, record, conclude?_of_completed]
  | false =>
    by_cases killed : call.cancelMode = some .kill
    · simp [done, killed, turn, Call.turn, Call.keyAt_of_found located,
        Call.noteAt_of_found located, setCall, record, conclude?_of_open, concluded]
    · simp [done, killed, turn, Call.turn, Call.keyAt_of_found located,
        Call.noteAt_of_found located, setCall, record, conclude?_of_open, Call.stop,
        interrupt_concluded, bound, releasing_releasing]

theorem recordCall_eq (dealer : Dealer) (call : Call) (occurrence : Occurrence) :
    dealer.recordCall call occurrence =
      { dealer with statistics := recording dealer.statistics (call.noteAt 0 occurrence) } := by
  unfold recordCall Call.noteAt
  cases call.targets <;> simp [record]

theorem cancelCall_eq {dealer : Dealer} {number : Nat} {call : Call}
    (found : dealer.calls[number]? = some call) (opened : call.isCompleted = false)
    (mode : CancelMode) (pending : mode = .kill → call.state = .pending) :
    dealer.cancelCall number call mode = dealer.turn number call (.cancellation mode) := by
  have bound : number < dealer.calls.length := (List.getElem?_eq_some_iff.mp found).1
  cases mode with
  | skip =>
    simp [cancelCall, turn, Call.turn, conclude?_of_open, opened, recordCall_eq, concluded]
  | kill =>
    simp [cancelCall, turn, Call.turn, Call.beginCancel?_of_pending, pending, recordCall_eq,
      interrupt_setCall, bound]
  | killNoWait =>
    simp [cancelCall, turn, Call.turn, conclude?_of_open, opened, recordCall_eq, Call.stop,
      interrupt_concluded, bound]

theorem expire?_eq {dealer : Dealer} {number : Nat} {call : Call} {target : Call.Target}
    (found : dealer.calls[number]? = some call) (opened : call.isCompleted = false) (peers : Peers)
    (active : target ∈ call.activeTargets)
    (idle : peers.supports target.callee .callee Feature.callTimeout = false) :
    dealer.expire? peers number = some (dealer.turn number call .timeout) := by
  have bound : number < dealer.calls.length := (List.getElem?_eq_some_iff.mp found).1
  have someIdle : (call.activeTargets.all fun target =>
      peers.supports target.callee .callee Feature.callTimeout) = false := by
    rw [List.all_eq_false]
    exact ⟨target, active, by simp [idle]⟩
  let reply := ended call "call.timeout" .timeout
  have current : ((dealer.concluded number call reply).recordCall call .cancellation).calls[number]? =
      some call.completed := by
    simp [recordCall_eq, concluded, bound]
  simp only [expire?, found, someIdle, conclude?_of_open opened, bind, Option.bind, pure]
  rw [if_neg (by simp), interrupt_eq current]
  simp [reply, recordCall_eq, concluded, turn, Call.turn, Call.stop, opened]

theorem loseTarget_eq {dealer : Dealer} {number index : Nat} {call : Call} {target : Call.Target}
    (found : dealer.calls[number]? = some call) (located : call.targets[index]? = some target)
    (left : target.state.isFinished = false) :
    (dealer.untrack target.callee target.invocation).loseTarget number index =
      dealer.turn number call (.loss index) := by
  simp only [loseTarget, untrack_eq, found, Call.finish?_of_unfinished located left]
  cases done : call.isCompleted with
  | true =>
    have same : (call.settled index .error).completed = call.settled index .error :=
      Call.completed_of_isCompleted done
    by_cases more : 0 < call.remaining - 1
    · simp [more, Nat.ne_of_gt more, done, turn, Call.turn, Call.keyAt_of_found located, setCall]
    · simp [done, same, turn, Call.turn, Call.keyAt_of_found located, setCall,
        conclude?_of_completed, Nat.eq_zero_of_not_pos more]
  | false =>
    by_cases more : 0 < call.remaining - 1
    · simp [more, Nat.ne_of_gt more, done, turn, Call.turn, Call.keyAt_of_found located, setCall]
    · simp [done, turn, Call.turn, Call.keyAt_of_found located, setCall,
        conclude?_of_open, concluded, Nat.eq_zero_of_not_pos more]

theorem loseCall_eq {dealer : Dealer} {number : Nat} {call : Call}
    (found : dealer.calls[number]? = some call) (opened : call.isCompleted = false)
    (gone : dealer.cancelable.find? (call.caller, call.request) = none) :
    dealer.loseCall number = dealer.turn number call .abandonment := by
  have bound : number < dealer.calls.length := (List.getElem?_eq_some_iff.mp found).1
  have ended : dealer.calls[number]? >>= Call.complete? = some call.completed := by
    simp [found, Call.complete?_of_open opened]
  have absent : dealer.cancelable.find? (call.caller, call.request) ≠ some number := by
    simp [gone]
  simp only [loseCall, ended, interrupt_setCall call.completed bound]
  simp [turn, Call.turn, Call.stop, opened, forgetting_of_absent absent]

end CallRouter.Dealer
