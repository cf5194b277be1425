import CallRouter.Proofs.Call.Relaying
import CallRouter.Proofs.Dealer.Protocol
import CallRouter.Proofs.Dealer.Sweep

namespace CallRouter.Dealer

open Relation

variable {peers : Peers} {operation : Operation} {dealer middle later : Dealer} {call : Call}
  {number session : Nat}

def Operation.answer? : Operation → Option ((Nat × Nat) × Call.Answer)
  | .handle _ _ session message =>
    match Rpc.ofMessage message with
    | .ok (.yield invocation options payload) =>
      some ((session, invocation),
        if options.flag Dict.Key.progress then .progress payload else .result payload)
    | .ok (.error .invocation invocation details error payload) =>
      some ((session, invocation), .failure details error payload)
    | _ => none
  | _ => none

inductive Quits (dealer : Dealer) (number : Nat) (call : Call) : Operation → Prop
  | cancellation {now : Time} {draw : Nat} {message : Message} {options : Dict}
      {choice : Option CancelMode}
      (reads : Rpc.ofMessage message = .ok (.cancel call.request options))
      (chosen : options.choice CancelMode.ofName Dict.Key.mode = .ok choice)
      (located : dealer.cancelable.find? (call.caller, call.request) = some number)
      (pending : choice.getD dealer.options.defaultCancelMode = .kill → call.state = .pending) :
      Quits dealer number call (.handle now draw call.caller message)
  | loss {index : Nat} {target : Call.Target} (tracks : dealer.Tracks number call index target) :
      Quits dealer number call (.closeSession target.callee)
  | abandonment : Quits dealer number call (.closeSession call.caller)

inductive Lapses (peers : Peers) (dealer : Dealer) (number : Nat) (call : Call) : Operation → Prop
  | timeout {now : Time} {index : Nat} {target : Call.Target}
      (tracks : dealer.Tracks number call index target) (due : call.isDue peers now = true) :
      Lapses peers dealer number call (.checkTimeout now target.callee)

structure Spares (number : Nat) (dealer later : Dealer) : Prop where
  same : later.calls[number]? = dealer.calls[number]?
  silent : later.replies number = dealer.replies number

theorem spares_refl (number : Nat) (dealer : Dealer) : Spares number dealer dealer := ⟨rfl, rfl⟩

theorem Spares.trans (first : Spares number dealer middle) (second : Spares number middle later) :
    Spares number dealer later :=
  ⟨second.same.trans first.same, second.silent.trans first.silent⟩

theorem spares_aside (aside : dealer.Aside later) (number : Nat) : Spares number dealer later :=
  ⟨by rw [aside.calls], replies_aside aside number⟩

theorem spares_turn {other : Nat} (found : dealer.calls[other]? = some call)
    (apart : other ≠ number) (event : Call.Event) :
    Spares number dealer (dealer.turn other call event) where
  same := by rw [getElem?_turn found, if_neg apart]
  silent := by rw [replies_turn, if_neg apart, List.append_nil]

theorem Dispatches.spares (dispatches : Dispatches peers dealer operation call later)
    (known : number < dealer.calls.length) : Spares number dealer later where
  same := by rw [dispatches.calls, List.getElem?_append_left known]
  silent := replies_dispatch dispatches number

section Closing

theorem spares_losses (losses : ReflTransGen (Loss session) dealer later)
    (apart : ∀ key index, dealer.tracked.find? key = some (number, index) → key.1 ≠ session) :
    Spares number dealer later := by
  induction losses with
  | refl => exact spares_refl number dealer
  | tail before loss ih =>
    cases loss with
    | @lose other index call target found tracks served =>
      refine ih.trans (spares_turn found ?_ _)
      rintro rfl
      have moves : Moves obliging (.closeSession session) dealer _ :=
        moves_of_turns (turns_losses before)
      exact apart target.key index (tracked_of_moves moves tracks.tracked) served

theorem spares_abandonments (abandonments : ReflTransGen (Abandonment session) dealer later)
    (apart : ∀ call, dealer.calls[number]? = some call → call.caller ≠ session) :
    Spares number dealer later := by
  induction abandonments with
  | refl => exact spares_refl number dealer
  | tail _ abandonment ih =>
    cases abandonment with
    | abandon found opened made =>
      refine ih.trans (spares_turn found ?_ _)
      rintro rfl
      exact apart _ (ih.same ▸ found) made

theorem spares_closeSession (linked : dealer.Linked)
    (unserved : ∀ key index, dealer.tracked.find? key = some (number, index) → key.1 ≠ session)
    (unmade : ∀ call, dealer.calls[number]? = some call → call.caller ≠ session) :
    Spares number dealer (dealer.closeSession session) := by
  have closes := closes_closeSession dealer session
  generalize dealer.closeSession session = later at closes
  cases closes with
  | @close order made all =>
    have left := spares_aside order.aside number
    have lost : Spares number order.left order.deserted :=
      spares_losses (order.losses linked) unserved
    have severed : Spares number order.deserted order.severed := ⟨rfl, rfl⟩
    have before := (left.trans lost).trans severed
    refine before.trans (spares_abandonments (order.abandonments all) ?_)
    rw [before.same]
    exact unmade

end Closing

theorem spares_expireAll {numbers : List Nat} (peers : Peers) (now : Time)
    (calm : number ∈ numbers → ∃ call, dealer.calls[number]? = some call ∧
      call.isOverdue now = true ∧ call.isDue peers now = false) :
    Spares number dealer (dealer.expireAll peers numbers).2 := by
  induction numbers generalizing dealer with
  | nil => exact spares_refl number dealer
  | cons other numbers ih =>
    have next := fun member : number ∈ numbers => calm (List.mem_cons_of_mem other member)
    cases expired : dealer.expire? peers other with
    | none =>
      rw [expireAll_of_none expired]
      exact ih next
    | some middle =>
      rw [expireAll_of_some expired]
      have spared : Spares number dealer middle := by
        cases found : dealer.calls[other]? with
        | none => simp [expire?, found] at expired
        | some holder =>
          rcases expire?_cases peers found with kept | ⟨-, -, turned⟩
          · cases kept.symm.trans expired
          · obtain rfl := Option.some.inj (turned.symm.trans expired)
            refine spares_turn found ?_ _
            rintro rfl
            obtain ⟨call, also, late, spared⟩ := calm List.mem_cons_self
            rw [expire?_eq_none also late spared] at expired
            cases expired
      refine spared.trans (ih ?_)
      rw [spared.same]
      exact next

theorem spares_checkTimeout (linked : dealer.Linked) {now : Time}
    (found : dealer.calls[number]? = some call)
    (timely : ¬ Lapses peers dealer number call (.checkTimeout now session)) :
    Spares number dealer (dealer.checkTimeout peers now session).2 := by
  refine spares_expireAll peers now fun member => ?_
  obtain ⟨key, index, holder, tracked, rfl, held, -, late⟩ := mem_overdue.mp member
  obtain rfl : call = holder := Option.some.inj (found.symm.trans held)
  refine ⟨call, found, late, ?_⟩
  by_contra due
  obtain ⟨also, target, there, tracks, rfl⟩ := linked.tracked tracked
  obtain rfl : call = also := Option.some.inj (found.symm.trans there)
  exact timely (.timeout tracks (by simpa using due))

theorem spares_cancel (linked : dealer.Linked) (found : dealer.calls[number]? = some call)
    {now : Time} {draw caller request : Nat} {message : Message} {options : Dict}
    (reads : Rpc.ofMessage message = .ok (.cancel request options))
    (stays : ¬ dealer.Quits number call (.handle now draw caller message)) :
    Spares number dealer (dealer.cancel caller request options) := by
  cases chosen : options.choice CancelMode.ofName Dict.Key.mode with
  | error unknown =>
    simp only [cancel, chosen]
    exact spares_aside (aside_refuse dealer caller _ _ _) number
  | ok choice =>
    cases located : dealer.cancelable.find? (caller, request) with
    | none =>
      rw [cancel_of_absent chosen located]
      exact spares_aside (aside_refuse dealer caller _ _ _) number
    | some other =>
      obtain ⟨holder, held, rfl, rfl, opened, turned, same⟩ :=
        cancel_of_located linked chosen located
      by_cases pending :
          choice.getD dealer.options.defaultCancelMode = .kill → holder.state = .pending
      · rw [turned pending]
        refine spares_turn held ?_ _
        rintro rfl
        obtain rfl : call = holder := Option.some.inj (found.symm.trans held)
        exact stays (.cancellation reads chosen located pending)
      · obtain ⟨kill, canceling⟩ := Classical.not_imp.mp pending
        rw [same kill canceling]
        exact spares_refl number dealer

inductive Speaks (key : Nat × Nat) : Operation → Call.Answer → Prop
  | progress {now : Time} {draw : Nat} {message : Message} {options : Dict} {payload : Payload}
      (reads : Rpc.ofMessage message = .ok (.yield key.2 options payload))
      (flag : options.flag Dict.Key.progress = true) :
      Speaks key (.handle now draw key.1 message) (.progress payload)
  | result {now : Time} {draw : Nat} {message : Message} {options : Dict} {payload : Payload}
      (reads : Rpc.ofMessage message = .ok (.yield key.2 options payload))
      (flag : options.flag Dict.Key.progress = false) :
      Speaks key (.handle now draw key.1 message) (.result payload)
  | failure {now : Time} {draw : Nat} {message : Message} {details : Dict} {error : String}
      {payload : Payload}
      (reads : Rpc.ofMessage message = .ok (.error .invocation key.2 details error payload)) :
      Speaks key (.handle now draw key.1 message) (.failure details error payload)

theorem answer?_eq_some_iff {key : Nat × Nat} {answer : Call.Answer} :
    operation.answer? = some (key, answer) ↔ Speaks key operation answer := by
  constructor
  · intro spoken
    cases operation with
    | handle now draw session message =>
      simp only [Operation.answer?] at spoken
      split at spoken
      · rename_i invocation options payload reads
        obtain ⟨rfl, rfl⟩ := Prod.mk.inj (Option.some.inj spoken)
        cases flag : options.flag Dict.Key.progress with
        | true => exact .progress reads flag
        | false => exact .result reads flag
      · rename_i invocation details error payload reads
        obtain ⟨rfl, rfl⟩ := Prod.mk.inj (Option.some.inj spoken)
        exact .failure reads
      · cases spoken
    | _ => cases spoken
  · intro speaks
    cases speaks with
    | progress reads flag | result reads flag => simp [Operation.answer?, reads, flag]
    | failure reads => simp [Operation.answer?, reads]

inductive Answered (dealer : Dealer) (number : Nat) (call : Call) (index : Nat)
    (target : Call.Target) : Call.Answer → Dealer → Prop
  | ignored {payload : Payload} (unheard : target.progressive = false ∨ call.isCompleted = true) :
      Answered dealer number call index target (.progress payload) dealer
  | progress {payload : Payload} (agreed : target.progressive = true)
      (opened : call.isCompleted = false) :
      Answered dealer number call index target (.progress payload)
        (dealer.turn number call (.progress payload))
  | result {payload : Payload} (elapsed : Nat) :
      Answered dealer number call index target (.result payload)
        (dealer.turn number call (.result index payload elapsed))
  | failure {details : Dict} {error : String} {payload : Payload} :
      Answered dealer number call index target (.failure details error payload)
        (dealer.turn number call (.failure index details error payload))

theorem Speaks.answered {index : Nat} {target : Call.Target} {answer : Call.Answer}
    (speaks : Speaks target.key operation answer) (found : dealer.calls[number]? = some call)
    (tracks : dealer.Tracks number call index target) (peers : Peers) :
    Answered dealer number call index target answer (dealer.step peers operation) := by
  have awaited : dealer.target? target.callee target.invocation =
      some (number, call, index, target) :=
    target?_eq_some_iff.mpr ⟨tracks.tracked, found, tracks.located⟩
  cases speaks with
  | @progress now draw message options payload reads flag =>
    simp only [step, handle, reads, flag, if_true, yieldProgress, Call.Target.key, awaited,
      tracks.left, Bool.not_false, Bool.and_true]
    cases agreed : target.progressive with
    | false => exact .ignored (.inl agreed)
    | true =>
      cases done : call.isCompleted with
      | true =>
        simp only [if_true, sendProgress, done]
        exact .ignored (.inr done)
      | false =>
        rw [if_pos rfl, sendProgress_eq found done]
        exact .progress agreed done
  | @result now draw message options payload reads flag =>
    simp only [step, handle, reads, flag, Call.Target.key]
    have turned := yieldResult_eq tracks.tracked found tracks.located tracks.left now payload
    rw [if_neg (by simp), turned]
    exact .result _
  | @failure now draw message details error payload reads =>
    simp only [step, handle, reads, Call.Target.key]
    rw [fail_eq tracks.tracked found tracks.located tracks.left]
    exact .failure

theorem spares_answer (linked : dealer.Linked) {key : Nat × Nat} {answer : Call.Answer}
    (speaks : Speaks key operation answer)
    (apart : ∀ index, dealer.tracked.find? key ≠ some (number, index)) :
    Spares number dealer (dealer.step peers operation) := by
  cases tracked : dealer.tracked.find? key with
  | none =>
    have responds : Responds key operation := by
      cases speaks with
      | progress reads | result reads => exact .yield reads
      | failure reads => exact .error reads
    rw [step_of_untracked tracked responds]
    exact spares_refl number dealer
  | some place =>
    obtain ⟨other, index⟩ := place
    obtain ⟨holder, target, found, tracks, rfl⟩ := linked.tracked tracked
    have elsewhere : other ≠ number := by
      rintro rfl
      exact apart index tracked
    have answered := speaks.answered found tracks peers
    generalize dealer.step peers operation = later at answered
    cases answered with
    | ignored => exact spares_refl number dealer
    | _ => exact spares_turn found elsewhere _

theorem spares_handle (linked : dealer.Linked) (found : dealer.calls[number]? = some call)
    {now : Time} {draw : Nat} {message : Message}
    (stays : ¬ dealer.Quits number call (.handle now draw session message))
    (silent : (Operation.handle now draw session message).answer? = none) :
    Spares number dealer (dealer.step peers (.handle now draw session message)) := by
  have bound := (List.getElem?_eq_some_iff.mp found).1
  simp only [Operation.answer?] at silent
  simp only [step, handle]
  cases reads : Rpc.ofMessage message with
  | error error => exact spares_refl number dealer
  | ok rpc =>
    cases rpc with
    | register request options uri =>
      exact spares_aside (aside_register dealer now session request options uri) number
    | unregister request id => exact spares_aside (aside_unregister dealer session request id) number
    | call request options uri payload =>
      rcases call_cases dealer peers now draw session request options uri payload reads with
        ⟨statistics, rpc, reply, more, answered⟩ | ⟨call, dispatches⟩
      · simp only [answered]
        exact spares_aside (aside_trans (aside_count more) (aside_send _ session reply)) number
      · exact dispatches.spares bound
    | cancel request options => exact spares_cancel linked found reads stays
    | yield invocation options payload => simp [reads] at silent
    | error type invocation details error payload =>
      cases type with
      | invocation => simp [reads] at silent
      | _ => exact spares_refl number dealer
    | _ => exact spares_refl number dealer

theorem spares_step (linked : dealer.Linked) (found : dealer.calls[number]? = some call)
    (stays : ¬ dealer.Quits number call operation)
    (timely : ¬ Lapses peers dealer number call operation)
    (unanswered : ∀ key answer, Speaks key operation answer →
      ∀ index, dealer.tracked.find? key ≠ some (number, index)) :
    Spares number dealer (dealer.step peers operation) := by
  cases spoken : operation.answer? with
  | some said =>
    obtain ⟨key, answer⟩ := said
    have speaks := answer?_eq_some_iff.mp spoken
    exact spares_answer linked speaks (unanswered key answer speaks)
  | none =>
    cases operation with
    | handle now draw session message => exact spares_handle linked found stays spoken
    | checkTimeout now session => exact spares_checkTimeout linked found timely
    | closeSession session =>
      refine spares_closeSession linked (fun key index tracked => ?_) fun holder held => ?_
      · rintro rfl
        obtain ⟨holder, target, held, tracks, rfl⟩ := linked.tracked tracked
        obtain rfl : call = holder := Option.some.inj (found.symm.trans held)
        exact stays (.loss tracks)
      · rintro rfl
        obtain rfl : call = holder := Option.some.inj (found.symm.trans held)
        exact stays .abandonment

end CallRouter.Dealer
