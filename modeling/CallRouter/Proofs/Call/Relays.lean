import CallRouter.Proofs.Call.Turn
import CallRouter.Proofs.Message.Size

namespace CallRouter

open Json

theorem ErrorUri.size_uri_le (error : ErrorUri) : (text error.uri).size ≤ 37 := by
  cases error <;> decide

theorem CancelMode.size_name_le (mode : CancelMode) : (text mode.name).size ≤ 12 := by
  cases mode <;> decide

theorem CancelMode.size_reason_le (mode : CancelMode) : (text mode.reason).size ≤ 26 := by
  cases mode <;> decide

namespace Call

variable {call : Call} {mode : CancelMode} {reason : String} {receiver : Nat} {rpc : Rpc}

def Event.content : Event → List Json
  | .progress payload | .result _ payload _ => payload.fields
  | .failure _ details error payload => .dict details :: .text error :: payload.fields
  | _ => []

theorem sizes_ended_le (call : Call) (short : (text reason).size ≤ 26) (error : ErrorUri) :
    sizes (Dealer.ended call reason error).content ≤ 80 := by
  have key : String.utf8Len (quote Dict.Key.reason.toList) = 8 := by decide
  have uri := error.size_uri_le
  simp only [Dealer.ended, Dealer.reasonOnly, Payload.empty, Payload.fields, Rpc.content,
    sizes_cons, sizes_nil, size_dict, entrySizes_cons, entrySizes_nil, key]
  omega

theorem sizes_interrupt_le (short : (text reason).size ≤ 26)
    (member : (receiver, rpc) ∈ call.interrupts mode reason) : sizes rpc.content ≤ 80 := by
  obtain ⟨target, -, same⟩ := List.mem_map.mp member
  obtain ⟨-, rfl⟩ := Prod.mk.inj same
  have keys : String.utf8Len (quote Dict.Key.mode.toList) = 6 ∧ String.utf8Len (quote Dict.Key.reason.toList) = 8 := by
    decide
  have name := mode.size_name_le
  simp only [Rpc.content, sizes_cons, sizes_nil, size_dict, entrySizes_cons, entrySizes_nil, keys]
  omega

theorem sizes_stop_le {bound : Nat} {reply : Option Rpc} (short : (text reason).size ≤ 26)
    (replied : ∀ rpc ∈ reply, sizes rpc.content ≤ bound + 80)
    (member : (receiver, rpc) ∈ (call.stop reply mode reason).sent) :
    sizes rpc.content ≤ bound + 80 := by
  rcases List.mem_append.mp member with answer | notice
  · obtain ⟨last, given, same⟩ := List.mem_map.mp answer
    obtain ⟨-, rfl⟩ := Prod.mk.inj same
    exact replied _ (Option.mem_toList.mp given)
  · exact Nat.le_add_left_of_le (sizes_interrupt_le short notice)

theorem sizes_progressReply_le (call : Call) (payload : Payload) :
    sizes (call.progressReply payload).content ≤ sizes payload.fields + 80 := by
  have details : (Json.dict [(Dict.Key.progress, .bool true)]).size = 17 := by decide
  simp only [progressReply, Rpc.content, sizes_cons, details]
  omega

theorem sizes_result_le (request : Nat) (payload : Payload) :
    sizes (Rpc.result request [] payload).content ≤ sizes payload.fields + 80 := by
  have details : (Json.dict []).size = 2 := rfl
  simp only [Rpc.content, sizes_cons, details]
  omega

theorem sizes_turn_le {event : Event} (member : (receiver, rpc) ∈ (call.turn event).sent) :
    sizes rpc.content ≤ sizes event.content + 80 := by
  have short (mode : CancelMode) := mode.size_reason_le
  cases event with
  | progress payload =>
    obtain ⟨-, rfl⟩ := Prod.mk.inj (List.mem_singleton.mp member)
    exact sizes_progressReply_le call payload
  | result index payload elapsed =>
    simp only [turn] at member
    split at member
    · cases member
    · obtain ⟨-, rfl⟩ := Prod.mk.inj (List.mem_singleton.mp member)
      split
      · exact sizes_progressReply_le _ payload
      · exact sizes_result_le call.request payload
  | failure index details error payload =>
    simp only [turn] at member
    split at member
    · cases member
    · split at member
      · obtain ⟨-, rfl⟩ := Prod.mk.inj (List.mem_singleton.mp member)
        exact Nat.le_add_right _ 80
      · refine sizes_stop_le (short .killNoWait) (fun last given => ?_) member
        obtain rfl := Option.some.inj given
        exact Nat.le_add_right _ 80
  | loss index =>
    simp only [turn] at member
    split at member
    · cases member
    · obtain ⟨-, rfl⟩ := Prod.mk.inj (List.mem_singleton.mp member)
      exact Nat.le_add_left_of_le (sizes_ended_le call (by decide) .canceled)
  | cancellation mode =>
    cases mode with
    | skip =>
      obtain ⟨-, rfl⟩ := Prod.mk.inj (List.mem_singleton.mp member)
      exact Nat.le_add_left_of_le (sizes_ended_le call (short .skip) .canceled)
    | kill => exact Nat.le_add_left_of_le (sizes_interrupt_le (short .kill) member)
    | killNoWait =>
      refine sizes_stop_le (short .killNoWait) (fun last given => ?_) member
      obtain rfl := Option.some.inj given
      exact Nat.le_add_left_of_le (sizes_ended_le call (short .killNoWait) .canceled)
  | timeout =>
    refine sizes_stop_le (by decide) (fun last given => ?_) member
    obtain rfl := Option.some.inj given
    exact Nat.le_add_left_of_le (sizes_ended_le call (by decide) .timeout)
  | abandonment =>
    exact sizes_stop_le (by decide) (by simp) member

end Call

end CallRouter
