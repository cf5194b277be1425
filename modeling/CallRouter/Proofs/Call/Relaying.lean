import CallRouter.Proofs.Call.Replies
import Mathlib.Data.List.Nodup

namespace CallRouter.Call

inductive Answer where
  | progress (payload : Payload)
  | result (payload : Payload)
  | failure (details : Dict) (error : String) (payload : Payload)
  deriving DecidableEq, Repr

def waiting (call : Call) : List (Nat × Nat) :=
  (call.targets.filter fun target => !target.state.isFinished).map Target.key

def agrees (call : Call) (key : Nat × Nat) : Bool :=
  call.targets.any fun target => decide (target.key = key) && target.progressive

/--
What the caller is told when answers come in, while some invocations have not finished. The result
of an invocation is the last message only if no other one is waited for; an error always is.
-/
def relay (call : Call) : List (Nat × Nat) → List ((Nat × Nat) × Answer) → List Rpc
  | _, [] => []
  | waiting, (key, answer) :: answers =>
    if key ∈ waiting then
      match answer with
      | .progress payload =>
        (if call.agrees key then [call.progressReply payload] else []) ++
          call.relay waiting answers
      | .result payload =>
        if waiting.erase key = [] then [.result call.request [] payload]
        else call.progressReply payload :: call.relay (waiting.erase key) answers
      | .failure details error payload => [.error .call call.request details error payload]
    else call.relay waiting answers

theorem relay_of_late {call : Call} {waiting : List (Nat × Nat)} {key : Nat × Nat}
    (late : key ∉ waiting) (answer : Answer) (answers : List ((Nat × Nat) × Answer)) :
    call.relay waiting ((key, answer) :: answers) = call.relay waiting answers := by
  cases answer <;> simp only [relay, if_neg late]

section Waiting

variable {call after : Call} {index : Nat} {target : Target} {key : Nat × Nat}

theorem mem_waiting : key ∈ call.waiting ↔ ∃ (index : Nat) (target : Target),
    call.targets[index]? = some target ∧ target.state.isFinished = false ∧ target.key = key := by
  simp only [waiting, List.mem_map, List.mem_filter, Bool.not_eq_true']
  constructor
  · rintro ⟨target, ⟨member, left⟩, same⟩
    obtain ⟨index, located⟩ := List.mem_iff_getElem?.mp member
    exact ⟨index, target, located, left, same⟩
  · rintro ⟨index, target, located, left, same⟩
    exact ⟨target, ⟨List.mem_of_getElem? located, left⟩, same⟩

theorem length_waiting (call : Call) : call.waiting.length = call.unfinished := by
  rw [waiting, List.length_map, unfinished, List.countP_eq_length_filter]

theorem waiting_settled (apart : (call.targets.map Target.key).Nodup)
    (located : call.targets[index]? = some target) (left : target.state.isFinished = false)
    (outcome : Outcome) :
    (call.settled index outcome).waiting = call.waiting.erase target.key := by
  simp only [waiting, settled]
  generalize call.targets = targets at apart located
  induction targets generalizing index with
  | nil => simp at located
  | cons first targets ih =>
    obtain ⟨unlike, apart⟩ := List.nodup_cons.mp apart
    cases index with
    | zero =>
      obtain rfl : first = target := by simpa using located
      simp [left]
    | succ index =>
      have deeper : targets[index]? = some target := by simpa using located
      have other : first.key ≠ target.key := fun same =>
        unlike (same ▸ List.mem_map_of_mem (List.mem_of_getElem? deeper))
      cases done : first.state.isFinished with
      | true => simpa [done] using ih apart deeper
      | false => simp [done, other, ih apart deeper]

theorem remaining_eq_length (sound : call.Sound) : call.remaining = call.waiting.length := by
  rw [length_waiting, sound.balanced]

theorem agrees_iff (apart : (call.targets.map Target.key).Nodup)
    (located : call.targets[index]? = some target) :
    call.agrees target.key = target.progressive := by
  cases agreed : target.progressive with
  | true =>
    exact List.any_eq_true.mpr ⟨target, List.mem_of_getElem? located, by simp [agreed]⟩
  | false =>
    refine List.any_eq_false.mpr fun other member => ?_
    by_cases same : other.key = target.key
    · obtain rfl := List.inj_on_of_nodup_map apart member (List.mem_of_getElem? located) same
      simp [agreed]
    · simp [same]

theorem waiting_of_active (active : ∀ target ∈ call.targets, target.state = .active) :
    call.waiting = call.targets.map Target.key := by
  rw [waiting, List.filter_eq_self.mpr]
  intro target member
  simp [active target member, Target.State.isFinished]

theorem agrees_of_origin (same : after.origin = call.origin) : after.agrees = call.agrees := by
  have agrees (call : Call) : call.agrees = call.origin.agrees := by
    funext key
    simp only [Call.agrees, origin, List.any_map]
    rfl
  rw [agrees, same, ← agrees]

theorem relay_of_origin (same : after.origin = call.origin) (waiting : List (Nat × Nat))
    (answers : List ((Nat × Nat) × Answer)) :
    after.relay waiting answers = call.relay waiting answers := by
  have request : after.request = call.request := by simpa using congrArg Call.request same
  have agrees := agrees_of_origin same
  induction answers generalizing waiting with
  | nil => rfl
  | cons entry answers ih =>
    obtain ⟨key, answer⟩ := entry
    cases answer <;> simp only [relay, ih, request, agrees, progressReply]

end Waiting

section Turn

variable {call : Call} {index : Nat} {target : Target}

theorem last_iff (sound : call.Sound) (located : call.targets[index]? = some target)
    (left : target.state.isFinished = false) :
    call.waiting.erase target.key = [] ↔ ¬ 0 < call.remaining - 1 := by
  have member : target.key ∈ call.waiting := mem_waiting.mpr ⟨index, target, located, left, rfl⟩
  rw [remaining_eq_length sound, ← List.length_eq_zero_iff, List.length_erase_of_mem member]
  omega

theorem waiting_result (apart : (call.targets.map Target.key).Nodup)
    (located : call.targets[index]? = some target) (left : target.state.isFinished = false)
    (payload : Payload) (elapsed : Nat) :
    (call.turn (.result index payload elapsed)).call.waiting =
      call.waiting.erase target.key := by
  rw [← waiting_settled apart located left .result]
  simp only [turn]
  split <;> rfl

theorem completed_result (opened : call.isCompleted = false) (index : Nat) (payload : Payload)
    (elapsed : Nat) :
    (call.turn (.result index payload elapsed)).call.isCompleted = true ↔
      ¬ 0 < call.remaining - 1 := by
  by_cases more : 0 < call.remaining - 1 <;> simp [turn, more, opened]

end Turn

section Final

variable {call : Call} {payload : Payload} {details : Dict} {error : String} {request : Nat}

theorem not_final_progressReply : ¬ call.Final (call.progressReply payload) := by
  intro final
  generalize same : call.progressReply payload = rpc at final
  cases final with
  | result => simp [progressReply] at same
  | error => simp [progressReply] at same

theorem final_relay_progress {key : Nat × Nat} {waiting : List (Nat × Nat)}
    {answers : List ((Nat × Nat) × Answer)} :
    (∃ rpc ∈ call.relay waiting ((key, .progress payload) :: answers), call.Final rpc) ↔
      ∃ rpc ∈ call.relay waiting answers, call.Final rpc := by
  by_cases member : key ∈ waiting
  · have silent (rpc : Rpc) : rpc ∈ (if call.agrees key then [call.progressReply payload] else []) →
        ¬ call.Final rpc := by
      split <;> simp +contextual [not_final_progressReply]
    simp only [relay, if_pos member, List.mem_append, or_and_right, exists_or]
    exact or_iff_right fun ⟨rpc, inside, final⟩ => silent rpc inside final
  · rw [relay_of_late member]

theorem final_relay_result {key : Nat × Nat} {waiting : List (Nat × Nat)}
    {answers : List ((Nat × Nat) × Answer)} (member : key ∈ waiting) :
    (∃ rpc ∈ call.relay waiting ((key, .result payload) :: answers), call.Final rpc) ↔
      waiting.erase key = [] ∨ ∃ rpc ∈ call.relay (waiting.erase key) answers, call.Final rpc := by
  by_cases last : waiting.erase key = []
  · simp only [relay, if_pos member, if_pos last]
    exact iff_of_true ⟨_, List.mem_singleton_self _, .result payload⟩ (.inl last)
  · simp only [relay, if_pos member, if_neg last, List.mem_cons, or_and_right, exists_or,
      exists_eq_left, not_final_progressReply, false_or]
    exact (or_iff_right last).symm

theorem final_relay_iff {waiting : List (Nat × Nat)} {answers : List ((Nat × Nat) × Answer)}
    (some : waiting ≠ []) (apart : waiting.Nodup)
    (unfailing : ∀ key ∈ waiting, ∀ details error payload,
      (key, Answer.failure details error payload) ∉ answers) :
    (∃ rpc ∈ call.relay waiting answers, call.Final rpc) ↔
      ∀ key ∈ waiting, ∃ payload, (key, Answer.result payload) ∈ answers := by
  induction answers generalizing waiting with
  | nil =>
    obtain ⟨key, member⟩ := List.exists_mem_of_ne_nil waiting some
    refine iff_of_false (by simp [relay]) fun all => ?_
    obtain ⟨payload, absent⟩ := all key member
    cases absent
  | cons entry answers ih =>
    obtain ⟨key, answer⟩ := entry
    have later {left : List (Nat × Nat)} (among : left ⊆ waiting) : ∀ key ∈ left,
        ∀ details error payload, (key, Answer.failure details error payload) ∉ answers :=
      fun key member details error payload listed =>
        unfailing key (among member) details error payload (List.mem_cons_of_mem _ listed)
    by_cases member : key ∈ waiting
    · cases answer with
      | progress payload =>
        rw [final_relay_progress, ih some apart (later (List.Subset.refl _))]
        simp
      | result payload =>
        have others : (∀ other ∈ waiting.erase key, ∃ given, (other, .result given) ∈ answers) ↔
            ∀ other ∈ waiting, ∃ given, (other, Answer.result given) ∈
              (key, .result payload) :: answers := by
          simp only [apart.mem_erase_iff, List.mem_cons, Prod.mk.injEq, Answer.result.injEq]
          refine forall_congr' fun other => ?_
          by_cases here : other = key <;> simp [here]
        rw [final_relay_result member, ← others]
        by_cases last : waiting.erase key = []
        · simp [last]
        · rw [ih last (apart.erase key) (later List.erase_subset)]
          exact or_iff_right last
      | failure details error payload =>
        exact absurd List.mem_cons_self (unfailing key member details error payload)
    · rw [relay_of_late member, ih some apart (later (List.Subset.refl _))]
      refine forall₂_congr fun other among => exists_congr fun given => ?_
      have here : other ≠ key := fun same => member (same ▸ among)
      simp [here]

end Final

end CallRouter.Call
