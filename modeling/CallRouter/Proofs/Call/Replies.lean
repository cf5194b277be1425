import CallRouter.Proofs.Call.Invariants

namespace CallRouter

def Message.Kind.isReply (kind : Message.Kind) : Bool := kind ≠ .invocation && kind ≠ .interrupt

namespace Call

inductive Final (call : Call) : Rpc → Prop
  | result (payload : Payload) : Final call (.result call.request [] payload)
  | error (details : Dict) (error : String) (payload : Payload) :
      Final call (.error .call call.request details error payload)

inductive Closing (call : Call) (event : Event) : Rpc → Prop
  | result (payload : Payload) : Closing call event (.result call.request [] payload)
  | failure {index : Nat} {details : Dict} {error : String} {payload : Payload}
      (same : event = .failure index details error payload) :
      Closing call event (.error .call call.request details error payload)
  | ended (reason : String) (error : ErrorUri) :
      Closing call event (Dealer.ended call reason error)

theorem Closing.final {call : Call} {event : Event} {rpc : Rpc}
    (closing : Closing call event rpc) : Final call rpc := by
  cases closing with
  | result payload => exact .result payload
  | failure same => exact .error _ _ _
  | ended reason error => exact .error _ _ _

def Turn.replies (turn : Turn) : List (Nat × Rpc) :=
  turn.sent.filter fun message => message.2.kind.isReply

theorem interrupts_not_replies (call : Call) (mode : CancelMode) (reason : String) :
    (call.interrupts mode reason).filter (fun message => message.2.kind.isReply) = [] := by
  rw [List.filter_eq_nil_iff]
  intro message member
  obtain ⟨target, _, rfl⟩ := List.mem_map.mp member
  simp [Target.interrupt, Rpc.kind, Message.Kind.isReply]

inductive Hears (call : Call) (event : Event) : List (Nat × Rpc) → Prop
  | silence (same : call.isCompleted = (call.turn event).call.isCompleted) : Hears call event []
  | abandonment (gone : event = .abandonment) : Hears call event []
  | progress (payload : Payload) (opened : (call.turn event).call.isCompleted = false)
      (agreed : event = .progress payload ∨ 2 ≤ call.remaining) :
      Hears call event [(call.caller, call.progressReply payload)]
  | closing (last : Rpc) (closing : Closing call event last) (opened : call.isCompleted = false)
      (ended : (call.turn event).call.isCompleted = true) :
      Hears call event [(call.caller, last)]

theorem replies_stop (call : Call) (reply : Option Rpc) (mode : CancelMode) (reason : String)
    (about : ∀ rpc ∈ reply, rpc.kind.isReply = true) :
    (call.stop reply mode reason).replies = reply.toList.map (call.caller, ·) := by
  have all : (reply.toList.map (call.caller, ·)).filter (fun message => message.2.kind.isReply) =
      reply.toList.map (call.caller, ·) := by
    rw [List.filter_eq_self]
    intro message member
    obtain ⟨rpc, inside, rfl⟩ := List.mem_map.mp member
    exact about rpc (by simpa using inside)
  rw [Turn.replies, stop, List.filter_append, all, interrupts_not_replies, List.append_nil]

theorem replies_of_sent {turn : Turn} {receiver : Nat} {rpc : Rpc}
    (only : turn.sent = [(receiver, rpc)]) (about : rpc.kind.isReply = true) :
    turn.replies = [(receiver, rpc)] := by
  simp [Turn.replies, only, about]

section Hearing

variable {call : Call} {event : Event}

theorem replies_of_completed (admits : call.Admits event) (done : call.isCompleted = true) :
    (call.turn event).replies = [] := by
  cases event with
  | progress | timeout | abandonment => exact absurd done (by simp [show _ = false from admits])
  | cancellation mode => exact absurd done (by simp [admits.1])
  | result index payload elapsed => simp [Turn.replies, turn, done]
  | failure index details error payload => simp [Turn.replies, turn, done]
  | loss index => simp [Turn.replies, turn, done]

theorem hears_of_completed (admits : call.Admits event) (done : call.isCompleted = true) :
    Hears call event (call.turn event).replies := by
  rw [replies_of_completed admits done]
  exact .silence (done.trans (turn_isCompleted admits done).symm)

theorem replies_result (opened : call.isCompleted = false) (index : Nat) (payload : Payload)
    (elapsed : Nat) :
    (call.turn (.result index payload elapsed)).replies =
      [(call.caller, if 0 < call.remaining - 1 then call.progressReply payload
        else .result call.request [] payload)] := by
  by_cases more : 0 < call.remaining - 1
  · rw [if_pos more]
    exact replies_of_sent (by simp [turn, opened, more, progressReply]) rfl
  · rw [if_neg more]
    exact replies_of_sent (by simp [turn, opened, more]) rfl

theorem hears_result (opened : call.isCompleted = false) (index : Nat) (payload : Payload)
    (elapsed : Nat) :
    Hears call (.result index payload elapsed)
      (call.turn (.result index payload elapsed)).replies := by
  rw [replies_result opened]
  by_cases more : 0 < call.remaining - 1
  · rw [if_pos more]
    refine .progress payload ?_ (.inr ?_)
    · simpa [turn, more] using opened
    · omega
  · rw [if_neg more]
    exact .closing _ (.result payload) opened (by simp [turn, more])

theorem replies_failure (opened : call.isCompleted = false) (index : Nat) (details : Dict)
    (error : String) (payload : Payload) :
    (call.turn (.failure index details error payload)).replies =
      [(call.caller, .error .call call.request details error payload)] := by
  let last : Rpc := .error .call call.request details error payload
  by_cases killed : call.cancelMode = some .kill
  · exact replies_of_sent (by simp [turn, opened, killed]) rfl
  · have stopped := replies_stop (call.settled index .error) (some last) .killNoWait
      CancelMode.killNoWait.reason (by simp [last, Rpc.kind, Message.Kind.isReply])
    simp only [turn, opened, killed]
    exact stopped

theorem completed_failure (opened : call.isCompleted = false) (index : Nat) (details : Dict)
    (error : String) (payload : Payload) :
    (call.turn (.failure index details error payload)).call.isCompleted = true := by
  simp only [turn, opened]
  by_cases killed : call.cancelMode = some .kill <;> simp [killed, stop]

theorem hears_failure (opened : call.isCompleted = false) (index : Nat) (details : Dict)
    (error : String) (payload : Payload) :
    Hears call (.failure index details error payload)
      (call.turn (.failure index details error payload)).replies := by
  rw [replies_failure opened]
  exact .closing _ (.failure rfl) opened (completed_failure opened index details error payload)

theorem hears_loss (opened : call.isCompleted = false) (index : Nat) :
    Hears call (.loss index) (call.turn (.loss index)).replies := by
  by_cases more : 0 < call.remaining - 1
  · have nothing : (call.turn (.loss index)).replies = [] := by
      simp [Turn.replies, turn, more]
    rw [nothing]
    exact .silence (by simp [turn, more])
  · have sent : (call.turn (.loss index)).sent =
        [(call.caller, Dealer.ended call "callee.lost" .canceled)] := by
      simp [turn, opened, more]
    rw [replies_of_sent sent rfl]
    exact .closing _ (.ended _ _) opened (by simp [turn, more])

theorem replies_stop_ended (call : Call) (mode : CancelMode) (reason why : String)
    (error : ErrorUri) :
    (call.stop (some (Dealer.ended call why error)) mode reason).replies =
      [(call.caller, Dealer.ended call why error)] :=
  replies_stop call _ mode reason (by simp [Dealer.ended, Rpc.kind, Message.Kind.isReply])

theorem hears_cancellation {mode : CancelMode} (admits : call.Admits (.cancellation mode)) :
    Hears call (.cancellation mode) (call.turn (.cancellation mode)).replies := by
  cases mode with
  | skip =>
    have sent : (call.turn (.cancellation .skip)).sent =
        [(call.caller, Dealer.ended call CancelMode.skip.reason .canceled)] := rfl
    rw [replies_of_sent sent rfl]
    exact .closing _ (.ended _ _) admits.1 rfl
  | kill =>
    have nothing : (call.turn (.cancellation .kill)).replies = [] :=
      interrupts_not_replies call .kill CancelMode.kill.reason
    rw [nothing]
    exact .silence admits.1
  | killNoWait =>
    have last : (call.turn (.cancellation .killNoWait)).replies =
        [(call.caller, Dealer.ended call CancelMode.killNoWait.reason .canceled)] :=
      replies_stop_ended (call.setCancelMode .killNoWait) _ _ _ _
    rw [last]
    exact .closing _ (.ended _ _) admits.1 rfl

theorem turn_hears (admits : call.Admits event) : Hears call event (call.turn event).replies := by
  cases done : call.isCompleted with
  | true => exact hears_of_completed admits done
  | false =>
    cases event with
    | progress payload =>
      have sent : (call.turn (.progress payload)).sent =
          [(call.caller, call.progressReply payload)] := rfl
      rw [replies_of_sent sent rfl]
      exact .progress payload done (.inl rfl)
    | result index payload elapsed => exact hears_result done index payload elapsed
    | failure index details error payload => exact hears_failure done index details error payload
    | loss index => exact hears_loss done index
    | cancellation mode => exact hears_cancellation admits
    | timeout =>
      have last : (call.turn .timeout).replies =
          [(call.caller, Dealer.ended call "call.timeout" .timeout)] :=
        replies_stop_ended call _ _ _ _
      rw [last]
      exact .closing _ (.ended _ _) done rfl
    | abandonment =>
      have nothing : (call.turn .abandonment).replies = [] :=
        replies_stop call none .killNoWait "caller.lost" (by simp)
      rw [nothing]
      exact .abandonment rfl

end Hearing

end Call

end CallRouter
