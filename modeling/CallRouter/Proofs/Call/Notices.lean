import CallRouter.Proofs.Call.Replies

namespace CallRouter.Call

variable {call : Call} {event : Event}

def answered (call : Call) : Event → Call
  | .result index .. => call.settled index .result
  | .failure index .. | .loss index => call.settled index .error
  | _ => call

theorem origin_answered (call : Call) (event : Event) :
    (call.answered event).origin = call.origin := by
  cases event <;> simp [answered]

def Turn.notices (turn : Turn) : List (Nat × Rpc) :=
  turn.sent.filter fun message => !message.2.kind.isReply

/--
An event leaves all targets but its own as they are, or it interrupts those that are active. These
are then released, unless the call waits for them.
-/
inductive Stirs (call : Call) (event : Event) : Prop
  | rest (silent : (call.turn event).notices = [])
      (same : (call.turn event).call.targets = (call.answered event).targets)
  | stop (mode : CancelMode) (reason : String) (opened : call.isCompleted = false)
      (heard : (call.turn event).notices = (call.answered event).interrupts mode reason)
      (stopped : (call.turn event).call.targets = (call.answered event).interrupted.targets)
      (freed : event = .cancellation .kill ∨
        (call.answered event).activeTargets.map Target.key ⊆ (call.turn event).released)

theorem notices_interrupts (call : Call) (mode : CancelMode) (reason : String) :
    (call.interrupts mode reason).filter (fun message => !message.2.kind.isReply) =
      call.interrupts mode reason := by
  rw [List.filter_eq_self]
  intro message member
  obtain ⟨target, _, rfl⟩ := List.mem_map.mp member
  rfl

theorem notices_stop (call : Call) (reply : Option Rpc) (mode : CancelMode) (reason : String)
    (about : ∀ rpc ∈ reply, rpc.kind.isReply = true) :
    (call.stop reply mode reason).notices = call.interrupts mode reason := by
  have none : (reply.toList.map (call.caller, ·)).filter (fun message => !message.2.kind.isReply) =
      [] := by
    rw [List.filter_eq_nil_iff]
    intro message member
    obtain ⟨rpc, inside, rfl⟩ := List.mem_map.mp member
    simp [about rpc (by simpa using inside)]
  rw [Turn.notices, stop, List.filter_append, none, notices_interrupts, List.nil_append]

theorem stirs_of_answer {outcome : Outcome} {index : Nat}
    (about : call.answered event = call.settled index outcome)
    (silent : (call.turn event).notices = [])
    (settles : (call.turn event).call = call.settled index outcome ∨
      (call.turn event).call = (call.settled index outcome).completed) : Stirs call event := by
  refine .rest silent ?_
  rw [about]
  rcases settles with same | same <;> rw [same]
  rfl

theorem stirs_failure (index : Nat) (details : Dict) (error : String) (payload : Payload) :
    Stirs call (.failure index details error payload) := by
  let last : Rpc := .error .call call.request details error payload
  cases done : call.isCompleted with
  | true =>
    exact stirs_of_answer rfl (by simp [Turn.notices, turn, done]) (.inl (by simp [turn, done]))
  | false =>
    by_cases killed : call.cancelMode = some .kill
    · refine stirs_of_answer rfl ?_ (.inr (by simp [turn, done, killed]))
      simp [Turn.notices, turn, done, killed, Rpc.kind, Message.Kind.isReply]
    · refine .stop .killNoWait CancelMode.killNoWait.reason done ?_ ?_ (.inr ?_)
      · have heard := notices_stop (call.settled index .error) (some last) .killNoWait
          CancelMode.killNoWait.reason (by simp [last, Rpc.kind, Message.Kind.isReply])
        simp only [turn, done, killed]
        exact heard
      · simp [turn, done, killed, stop, answered, interrupted, completed]
      · simp [turn, done, killed, stop, answered]

theorem notices_loss (call : Call) (index : Nat) : (call.turn (.loss index)).notices = [] := by
  simp only [Turn.notices, turn]
  split <;> rfl

theorem stirs_turn (admits : call.Admits event) : Stirs call event := by
  have ended (why : String) (error : ErrorUri) :
      ∀ rpc ∈ some (Dealer.ended call why error), rpc.kind.isReply = true := by
    simp [Dealer.ended, Rpc.kind, Message.Kind.isReply]
  cases event with
  | progress payload => exact .rest rfl rfl
  | result index payload elapsed =>
    refine stirs_of_answer rfl ?_ ?_
    · simp only [Turn.notices, turn]
      split
      · rfl
      · split <;> rfl
    · simp only [turn]
      split <;> simp
  | failure index details error payload => exact stirs_failure index details error payload
  | loss index =>
    refine stirs_of_answer rfl (notices_loss call index) ?_
    simp only [turn]
    split <;> simp
  | cancellation mode =>
    cases mode with
    | skip => exact .rest rfl rfl
    | kill => exact .stop _ _ admits.1 (notices_interrupts call _ _) rfl (.inl rfl)
    | killNoWait =>
      refine .stop _ _ admits.1 (notices_stop _ _ _ _ (ended _ _)) rfl (.inr ?_)
      exact List.Subset.refl _
  | timeout =>
    exact .stop _ _ admits (notices_stop _ _ _ _ (ended _ _)) rfl (.inr (List.Subset.refl _))
  | abandonment =>
    exact .stop _ _ admits (notices_stop _ none _ _ (by simp)) rfl (.inr (List.Subset.refl _))

theorem target_of_answered {j : Nat} {target : Target}
    (found : (call.answered event).targets[j]? = some target)
    (left : target.state.isFinished = false) : call.targets[j]? = some target := by
  have settled (index : Nat) (outcome : Outcome)
      (located : (call.settled index outcome).targets[j]? = some target) :
      call.targets[j]? = some target := by
    rw [getElem?_settled] at located
    split at located
    · obtain ⟨before, _, rfl⟩ := Option.map_eq_some_iff.mp located
      cases left
    · exact located
  cases event with
  | result index payload elapsed => exact settled index .result found
  | failure index details error payload => exact settled index .error found
  | loss index => exact settled index .error found
  | _ => exact found

theorem interrupted_turn (admits : call.Admits event) {j : Nat} {after : Target}
    (found : (call.turn event).call.targets[j]? = some after) (state : after.state = .interrupted) :
    call.targets[j]? = some after ∨ event = .cancellation .kill ∨
      after.key ∈ (call.turn event).released := by
  have left : after.state.isFinished = false := by simp [state, Target.State.isFinished]
  cases stirs_turn admits with
  | rest silent same => exact .inl (target_of_answered (same ▸ found) left)
  | stop mode reason opened heard stopped freed =>
    rw [stopped, getElem?_interrupted] at found
    obtain ⟨before, located, rfl⟩ := Option.map_eq_some_iff.mp found
    by_cases active : before.state = .active
    · right
      refine freed.imp_right fun released => released ?_
      rw [Target.key_interrupted]
      exact List.mem_map_of_mem
        (List.mem_filter.mpr ⟨List.mem_of_getElem? located, by simp [active]⟩)
    · have same : before.interrupted = before := by simp [Target.interrupted, active]
      rw [same] at left ⊢
      exact .inl (target_of_answered located left)

structure Stops (call : Call) (event : Event) (index : Nat) (target : Target) : Prop where
  opened : call.isCompleted = false
  located : call.targets[index]? = some target
  active : target.state = .active
  stopped : ∃ after, (call.turn event).call.targets[index]? = some after ∧
    after.state = .interrupted
  freed : event = .cancellation .kill ∨ target.key ∈ (call.turn event).released

theorem notices_cases (admits : call.Admits event) :
    (call.turn event).notices = [] ∨
      ∃ (targets : List Target) (mode : CancelMode) (reason : String),
        (call.turn event).notices = targets.map (Target.interrupt mode reason) ∧
        (targets.map Target.key).Sublist (call.targets.map Target.key) ∧
        ∀ target ∈ targets, ∃ index, Stops call event index target := by
  cases stirs_turn admits with
  | rest silent same => exact .inl silent
  | stop mode reason opened heard stopped freed =>
    refine .inr ⟨(call.answered event).activeTargets, mode, reason, heard, ?_, ?_⟩
    · rw [← keys_of_origin (origin_answered call event)]
      exact List.filter_sublist.map _
    · intro target member
      obtain ⟨listed, state⟩ := List.mem_filter.mp member
      have active : target.state = .active := by simpa using state
      have left : target.state.isFinished = false := by simp [active, Target.State.isFinished]
      obtain ⟨index, found⟩ := List.mem_iff_getElem?.mp listed
      refine ⟨index, opened, target_of_answered found left, active, ?_, ?_⟩
      · refine ⟨target.interrupted, ?_, by simp [Target.interrupted, active]⟩
        rw [stopped, getElem?_interrupted, found]
        rfl
      · exact freed.imp_right fun released => released (List.mem_map_of_mem member)

theorem receiver_of_turn (admits : call.Admits event) {receiver : Nat} {rpc : Rpc}
    (member : (receiver, rpc) ∈ (call.turn event).sent) :
    call.isCompleted = false ∧ (receiver = call.caller ∨
      ∃ target ∈ call.targets, target.state = .active ∧ target.callee = receiver) := by
  cases reply : rpc.kind.isReply with
  | true =>
    have heard : (receiver, rpc) ∈ (call.turn event).replies :=
      List.mem_filter.mpr ⟨member, reply⟩
    have hears := turn_hears admits
    generalize (call.turn event).replies = replies at heard hears
    cases hears with
    | silence | abandonment => cases heard
    | progress payload opened agreed =>
      obtain ⟨rfl, -⟩ := Prod.mk.inj (List.mem_singleton.mp heard)
      exact ⟨opened_of_turn admits opened, .inl rfl⟩
    | closing last closing opened ended =>
      obtain ⟨rfl, -⟩ := Prod.mk.inj (List.mem_singleton.mp heard)
      exact ⟨opened, .inl rfl⟩
  | false =>
    have heard : (receiver, rpc) ∈ (call.turn event).notices :=
      List.mem_filter.mpr ⟨member, by simp [reply]⟩
    rcases notices_cases admits with silent | ⟨targets, mode, reason, notices, _, stops⟩
    · rw [silent] at heard
      cases heard
    · rw [notices] at heard
      obtain ⟨target, among, same⟩ := List.mem_map.mp heard
      obtain ⟨index, stop⟩ := stops target among
      exact ⟨stop.opened, .inr ⟨target, List.mem_of_getElem? stop.located, stop.active,
        congrArg Prod.fst same⟩⟩

end CallRouter.Call
