import CallRouter.Proofs.Call.Invariants

namespace CallRouter.Call

variable {event : Event}

def Event.isCancellation : Event → Bool
  | .cancellation _ | .timeout => true
  | _ => false

def countsFor (call : Call) (path : List String) : Bool :=
  call.targets[0]?.any fun target => path.isPrefixOf [target.pattern.uri]

theorem countsFor_origin (call : Call) (path : List String) :
    call.origin.countsFor path = call.countsFor path := by
  simp only [countsFor, origin, List.getElem?_map]
  cases call.targets[0]? <;> rfl

theorem countsFor_of_origin {call later : Call} (same : later.origin = call.origin)
    (path : List String) : later.countsFor path = call.countsFor path := by
  rw [← countsFor_origin, same, countsFor_origin]

theorem countP_noteAt (call : Call) (index : Nat) {occurrence what : Occurrence}
    (other : occurrence ≠ what) (path : List String) :
    (call.noteAt index occurrence).countP
      (fun note => path.isPrefixOf [note.1.uri] && note.2 = what) = 0 := by
  rw [List.countP_eq_zero]
  intro note member
  obtain ⟨target, _, rfl⟩ := List.mem_map.mp member
  simp [other]

theorem countP_noteAt_first (call : Call) (what : Occurrence) (path : List String) :
    (call.noteAt 0 what).countP (fun note => path.isPrefixOf [note.1.uri] && note.2 = what) =
      if call.countsFor path then 1 else 0 := by
  unfold noteAt countsFor
  cases call.targets[0]? with
  | none => rfl
  | some target => simp [List.countP_singleton]

theorem attempts_turn (call : Call) (event : Event) (path : List String) :
    (call.turn event).recorded.countP
      (fun note => path.isPrefixOf [note.1.uri] && note.2 = .attempt) = 0 := by
  cases event with
  | result index payload elapsed => exact countP_noteAt call index (by simp) path
  | failure index details error payload =>
    have failed := countP_noteAt call index (by simp : Occurrence.failure ≠ .attempt) path
    simp only [turn]
    split
    · exact failed
    · split <;> exact failed
  | cancellation mode => cases mode <;> exact countP_noteAt call 0 (by simp) path
  | timeout => exact countP_noteAt call 0 (by simp) path
  | _ => rfl

theorem cancellations_turn (call : Call) (event : Event) (path : List String) :
    (call.turn event).recorded.countP
      (fun note => path.isPrefixOf [note.1.uri] && note.2 = .cancellation) =
        if event.isCancellation && call.countsFor path then 1 else 0 := by
  cases event with
  | result index payload elapsed => exact countP_noteAt call index (by simp) path
  | failure index details error payload =>
    have failed := countP_noteAt call index (by simp : Occurrence.failure ≠ .cancellation) path
    simp only [turn]
    split
    · exact failed
    · split <;> exact failed
  | cancellation mode =>
    have noted := countP_noteAt_first call .cancellation path
    cases mode <;> simpa [turn, Event.isCancellation] using noted
  | timeout =>
    have noted := countP_noteAt_first call .cancellation path
    simpa [turn, Event.isCancellation] using noted
  | _ => rfl

theorem state_turn_other (call : Call) (other : event.isCancellation = false) :
    (call.turn event).call.state = call.state ∨ (call.turn event).call.state = .completed := by
  cases event with
  | progress payload => exact .inl rfl
  | result index payload elapsed =>
    simp only [turn]
    split
    · exact .inl rfl
    · exact .inr rfl
  | failure index details error payload =>
    simp only [turn]
    split
    · exact .inl rfl
    · right
      split <;> rfl
  | loss index =>
    simp only [turn]
    split
    · exact .inl rfl
    · exact .inr rfl
  | abandonment => exact .inr rfl
  | _ => simp [Event.isCancellation] at other

theorem state_turn_canceled (call : Call) (cancels : event.isCancellation = true) :
    event = .cancellation .kill ∧ (call.turn event).call.state = .canceling ∨
      event ≠ .cancellation .kill ∧ (call.turn event).call.state = .completed := by
  cases event with
  | cancellation mode =>
    cases mode with
    | kill => exact .inl ⟨rfl, rfl⟩
    | skip => exact .inr ⟨by simp, rfl⟩
    | killNoWait => exact .inr ⟨by simp, rfl⟩
  | timeout => exact .inr ⟨by simp, rfl⟩
  | _ => simp [Event.isCancellation] at cancels

end CallRouter.Call
