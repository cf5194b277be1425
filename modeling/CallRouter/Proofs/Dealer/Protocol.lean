import CallRouter.Proofs.Dealer.Informed
import CallRouter.Proofs.Dealer.NoneLost
import CallRouter.Proofs.Dealer.Teardown

namespace CallRouter.Dealer

open Relation

variable {peers : Peers} {operation : Operation} {dealer later : Dealer} {call : Call}
  {number index session : Nat} {key : Nat × Nat}

inductive Answers (key : Nat × Nat) : Operation → Prop
  | result {now : Time} {draw : Nat} {message : Message} {options : Dict} {payload : Payload}
      (reads : Rpc.ofMessage message = .ok (.yield key.2 options payload))
      (final : options.flag Dict.Key.progress = false) :
      Answers key (.handle now draw key.1 message)
  | error {now : Time} {draw : Nat} {message : Message} {details : Dict} {error : String}
      {payload : Payload}
      (reads : Rpc.ofMessage message = .ok (.error .invocation key.2 details error payload)) :
      Answers key (.handle now draw key.1 message)

inductive Responds (key : Nat × Nat) : Operation → Prop
  | yield {now : Time} {draw : Nat} {message : Message} {options : Dict} {payload : Payload}
      (reads : Rpc.ofMessage message = .ok (.yield key.2 options payload)) :
      Responds key (.handle now draw key.1 message)
  | error {now : Time} {draw : Nat} {message : Message} {type : Message.Kind} {details : Dict}
      {error : String} {payload : Payload}
      (reads : Rpc.ofMessage message = .ok (.error type key.2 details error payload)) :
      Responds key (.handle now draw key.1 message)

theorem step_of_untracked (untracked : dealer.tracked.find? key = none)
    (responds : Responds key operation) : dealer.step peers operation = dealer := by
  have nobody : dealer.target? key.1 key.2 = none := by simp [target?, untracked]
  cases responds with
  | @yield now draw message options payload reads =>
    simp only [step, handle, reads]
    split <;> simp_all [yieldProgress, yieldResult]
  | @error now draw message type details error payload reads =>
    cases type <;> simp [step, handle, reads, fail, nobody]

theorem tracked_of_moves (moves : Moves peers operation dealer later) {place : Nat × Nat}
    (tracked : later.tracked.find? key = some place) :
    dealer.tracked.find? key = some place := by
  induction moves with
  | refl => exact tracked
  | tail _ move ih =>
    cases move with
    | aside aside => exact ih (aside.tracked ▸ tracked)
    | turn found cause => exact ih (find?_releasing.mp tracked).1
    | retire closing => exact ih tracked

theorem tracked_of_step (linked : dealer.Linked) (known : key ∈ dealer.issued)
    (distinct : (dealer.step peers operation).issued.Nodup) {place : Nat × Nat}
    (tracked : (dealer.step peers operation).tracked.find? key = some place) :
    dealer.tracked.find? key = some place := by
  rcases step_cases linked peers operation with moves | ⟨call, dispatches⟩
  · exact tracked_of_moves moves tracked
  · rw [dispatches.tracked] at tracked
    rcases find?_tracking_cases tracked with ⟨i, target, located, rfl, _⟩ | before
    · have listed := List.mem_map_of_mem (f := Call.Target.key) (List.mem_of_getElem? located)
      exact absurd listed (dispatches.unissued distinct known)
    · exact before

theorem untracked_of_less (untracked : dealer.tracked.find? key = none)
    (less : ∀ {place : Nat × Nat}, later.tracked.find? key = some place →
      dealer.tracked.find? key = some place) : later.tracked.find? key = none := by
  rw [Option.eq_none_iff_forall_ne_some] at untracked ⊢
  exact fun place tracked => untracked place (less tracked)

theorem untracked_of_released {event : Call.Event}
    (released : key ∈ (call.turn event).released) :
    (dealer.turn number call event).tracked.find? key = none := by
  rw [Option.eq_none_iff_forall_ne_some]
  exact fun place tracked => (find?_releasing.mp tracked).2 released

/-- Nothing is awaited of an invocation, unless its target is left in peace. -/
def AtRest (dealer : Dealer) (key : Nat × Nat) : Prop :=
  ∀ number index, dealer.tracked.find? key = some (number, index) → dealer.Resting number index

theorem atRest_of_untracked (untracked : dealer.tracked.find? key = none) : dealer.AtRest key := by
  intro number index tracked
  simp [untracked] at tracked

theorem AtRest.moves (rests : dealer.AtRest key) (moves : Moves peers operation dealer later) :
    later.AtRest key := fun number index tracked =>
  (rests number index (tracked_of_moves moves tracked)).persists (persists_moves moves)

theorem AtRest.told (rests : dealer.AtRest key) (informed : dealer.Informed)
    (moves : Moves peers operation dealer later) : later.told key = dealer.told key := by
  induction moves with
  | refl => rfl
  | @tail middle later before move ih =>
    have current := informed_moves informed before
    cases move with
    | aside aside => rw [told_aside aside, ih]
    | retire closing => exact ih
    | @turn number call event found cause =>
      rcases told_turn middle number cause.admits (keys_nodup current.distinct found) key with
        silent | ⟨place, target, options, stop, rfl, grown⟩
      · rw [silent, ih]
      · -- An active target of an open call is tracked, so that it could not be at rest.
        have left : target.state.isFinished = false := by
          simp [stop.active, Call.Target.State.isFinished]
        have tracked := current.awaited found stop.opened stop.located left
        have quiet := rests.moves before number place tracked
        exact absurd rfl (quiet.apart found stop.opened stop.located stop.active)

theorem AtRest.step (rests : dealer.AtRest key) (informed : dealer.Informed)
    (known : key ∈ dealer.issued) (distinct : (dealer.step peers operation).issued.Nodup) :
    (dealer.step peers operation).AtRest key ∧
      (dealer.step peers operation).told key = dealer.told key := by
  constructor
  · intro number index tracked
    have before := tracked_of_step informed.toLinked known distinct tracked
    exact (rests number index before).persists (persists_step informed.toLinked peers operation)
  · rcases step_cases informed.toLinked peers operation with moves | ⟨call, dispatches⟩
    · exact rests.told informed moves
    · exact told_dispatch_other dispatches (dispatches.unissued distinct known)

section Run

variable {options : Options} {before after : List Operation}

theorem untracked_run (once : (run peers options (before ++ after)).DrawsOnce peers)
    (known : key ∈ (run peers options before).issued)
    (untracked : (run peers options before).tracked.find? key = none) :
    (run peers options (before ++ after)).tracked.find? key = none := by
  induction after using List.reverseRecOn with
  | nil => rwa [List.append_nil]
  | append_singleton after operation ih =>
    rw [← List.append_assoc] at once ⊢
    have still := ih once.of_prefix
    have member := (issued_run peers options before after).subset known
    have distinct := once.issued_nodup (drawn_run peers options _)
    rw [run_concat] at distinct ⊢
    exact untracked_of_less still (tracked_of_step (linked_run peers options _) member distinct)

theorem AtRest.run (once : (Dealer.run peers options (before ++ after)).DrawsOnce peers)
    (known : key ∈ (Dealer.run peers options before).issued)
    (rests : (Dealer.run peers options before).AtRest key) :
    (Dealer.run peers options (before ++ after)).AtRest key ∧
      (Dealer.run peers options (before ++ after)).told key =
        (Dealer.run peers options before).told key := by
  induction after using List.reverseRecOn with
  | nil =>
    rw [List.append_nil]
    exact ⟨rests, rfl⟩
  | append_singleton after operation ih =>
    rw [← List.append_assoc] at once ⊢
    obtain ⟨quiet, silent⟩ := ih once.of_prefix
    have member := (issued_run peers options before after).subset known
    have distinct := once.issued_nodup (drawn_run peers options _)
    rw [run_concat] at distinct ⊢
    obtain ⟨rest, same⟩ := quiet.step (informed_run once.of_prefix) member distinct
    exact ⟨rest, same.trans silent⟩

end Run

theorem answers_cases (linked : dealer.Linked) (peers : Peers)
    (answers : Answers key operation) :
    dealer.tracked.find? key = none ∧ dealer.step peers operation = dealer ∨
      ∃ number call index target event, dealer.calls[number]? = some call ∧
        call.targets[index]? = some target ∧ target.key = key ∧ event.index? = some index ∧
        call.Admits event ∧ dealer.step peers operation = dealer.turn number call event := by
  cases tracked : dealer.tracked.find? key with
  | none =>
    refine .inl ⟨rfl, step_of_untracked tracked ?_⟩
    cases answers with
    | result reads final => exact .yield reads
    | error reads => exact .error reads
  | some place =>
    obtain ⟨number, index⟩ := place
    obtain ⟨call, target, found, tracks, rfl⟩ := linked.tracked tracked
    have admits : ∃ target, call.targets[index]? = some target ∧
        target.state.isFinished = false := ⟨target, tracks.located, tracks.left⟩
    right
    cases answers with
    | @result now draw message options payload reads final =>
      refine ⟨number, call, index, target, .result index payload (now - call.started), found,
        tracks.located, rfl, rfl, admits, ?_⟩
      simp only [step, handle, reads, final]
      exact yieldResult_eq tracks.tracked found tracks.located tracks.left now payload
    | @error now draw message details error payload reads =>
      refine ⟨number, call, index, target, .failure index details error payload, found,
        tracks.located, rfl, rfl, admits, ?_⟩
      simp only [step, handle, reads]
      exact fail_eq tracks.tracked found tracks.located tracks.left details error payload

theorem answered_step (informed : dealer.Informed) (answers : Answers key operation) :
    (dealer.step peers operation).tracked.find? key = none ∧
      (dealer.step peers operation).told key = dealer.told key := by
  rcases answers_cases informed.toLinked peers answers with ⟨untracked, same⟩ |
    ⟨number, call, index, target, event, found, located, rfl, about, admits, same⟩
  · rw [same]
    exact ⟨untracked, rfl⟩
  · rw [same]
    constructor
    · exact untracked_of_released (Call.released_of_index about located)
    · rcases told_turn dealer number admits (keys_nodup informed.distinct found) target.key with
        silent | ⟨place, stopped, options, stop, equal, grown⟩
      · exact silent
      · -- The target that answered would be the one that is interrupted, but it has finished.
        obtain ⟨-, rfl⟩ := Prod.mk.inj
          (place_of_key informed.distinct found located found stop.located equal)
        obtain ⟨after, reached, state⟩ := stop.stopped
        have finished := Call.turn_finishes about reached
        simp [state, Call.Target.State.isFinished] at finished

theorem told_losses (losses : ReflTransGen (Loss session) dealer later) :
    later.told key = dealer.told key := by
  induction losses with
  | refl => rfl
  | tail _ loss ih =>
    cases loss with
    | lose found tracks served =>
      rw [told_turn_eq, Call.notices_loss, mailing_nil, List.filterMap_nil, List.append_nil, ih]

theorem closed_step (informed : dealer.Informed) (peers : Peers) (key : Nat × Nat) :
    (dealer.step peers (.closeSession key.1)).tracked.find? key = none ∧
      (dealer.step peers (.closeSession key.1)).told key = dealer.told key := by
  have closes := closes_closeSession dealer key.1
  simp only [step]
  generalize dealer.closeSession key.1 = later at closes
  cases closes with
  | @close order made all =>
    have severing : Moves peers (.closeSession key.1) dealer order.severed :=
      order.moves informed.toLinked
    have abandoning : Moves peers (.closeSession key.1) order.severed _ :=
      moves_abandonments (order.abandonments all)
    have untracked : order.severed.tracked.find? key = none := by
      rw [Option.eq_none_iff_forall_ne_some]
      exact fun place tracked => (order.tracked_severed_iff.mp tracked).2 rfl
    constructor
    · exact untracked_of_less untracked (tracked_of_moves abandoning)
    · have lost : order.deserted.told key = order.left.told key :=
        told_losses (order.losses informed.toLinked)
      have rests := atRest_of_untracked untracked
      exact (rests.told (informed_moves informed severing) abandoning).trans
        (lost.trans (told_aside order.aside key))

theorem told_skip (linked : dealer.Linked)
    (skip : IsSkip dealer.options.defaultCancelMode call operation) :
    (dealer.step peers operation).told key = dealer.told key := by
  obtain ⟨now, draw, message, options, choice, rfl, reads, chosen, mode⟩ := skip
  have moves : Moves peers (.handle now draw call.caller message) dealer
      (dealer.cancel call.caller call.request options) := cancel_moves linked reads
  have cancels : (Operation.handle now draw call.caller message).Cancels
      dealer.options.defaultCancelMode .skip :=
    ⟨now, draw, call.caller, message, call.request, options, choice, rfl, reads, chosen, mode⟩
  simp only [step, handle, reads]
  generalize dealer.cancel call.caller call.request options = later at moves
  induction moves with
  | refl => rfl
  | @tail middle later before move ih =>
    cases move with
    | aside aside => rw [told_aside aside, ih]
    | retire closing => exact ih
    | @turn number holder event found cause =>
      obtain rfl := cause.of_cancels (options_moves before ▸ cancels)
      rw [told_turn_eq, ih]
      exact List.append_nil _

theorem told_step_cases (informed : dealer.Informed) (known : key ∈ dealer.issued)
    (distinct : (dealer.step peers operation).issued.Nodup) :
    (dealer.step peers operation).told key = dealer.told key ∨
      operation.Cancels dealer.options.defaultCancelMode .kill ∨
      (dealer.step peers operation).tracked.find? key = none := by
  rcases step_cases informed.toLinked peers operation with moves | ⟨call, dispatches⟩
  · generalize dealer.step peers operation = later at moves
    clear distinct
    induction moves with
    | refl => exact .inl rfl
    | @tail middle later before move ih =>
      have current := informed_moves informed before
      rcases ih with same | kill | untracked
      · cases move with
        | aside aside => exact .inl ((told_aside aside key).trans same)
        | retire closing => exact .inl same
        | @turn number call event found cause =>
          rcases told_turn middle number cause.admits (keys_nodup current.distinct found) key with
            silent | ⟨place, target, options, stop, rfl, grown⟩
          · exact .inl (silent.trans same)
          · right
            rcases stop.freed with rfl | released
            · exact .inl (options_moves before ▸ cause.cancels)
            · exact .inr (untracked_of_released released)
      · exact .inr (.inl kill)
      · exact .inr (.inr (untracked_of_less untracked (tracked_of_moves (.single move))))
  · exact .inl (told_dispatch_other dispatches (dispatches.unissued distinct known))

theorem atRest_of_completed (informed : dealer.Informed)
    (found : dealer.calls[number]? = some call) (done : call.isCompleted = true)
    (member : key ∈ call.targets.map Call.Target.key) : dealer.AtRest key := by
  obtain ⟨target, among, rfl⟩ := List.mem_map.mp member
  obtain ⟨index, located⟩ := List.mem_iff_getElem?.mp among
  intro other place tracked
  obtain ⟨holder, also, held, tracks, same⟩ := informed.tracked tracked
  obtain ⟨rfl, rfl⟩ := Prod.mk.inj
    (place_of_key informed.distinct found located held tracks.located same)
  exact ⟨call, target, found, located, .inl done⟩

section Moment

variable {options : Options} {before after : List Operation}
  (once : (run peers options (before ++ [operation] ++ after)).DrawsOnce peers)

include once

theorem told_of_end (known : key ∈ (run peers options before).issued)
    (ends : Answers key operation ∨ operation = .closeSession key.1) :
    (run peers options (before ++ [operation] ++ after)).told key =
      (run peers options before).told key := by
  have informed : (run peers options before).Informed := informed_run once.of_prefix.of_prefix
  have settled : (run peers options (before ++ [operation])).tracked.find? key = none ∧
      (run peers options (before ++ [operation])).told key =
        (run peers options before).told key := by
    rw [run_concat]
    rcases ends with answers | rfl
    · exact answered_step informed answers
    · exact closed_step informed peers key
  have still := (issued_run peers options before [operation]).subset known
  exact ((atRest_of_untracked settled.1).run once still).2.trans settled.2

theorem told_of_skip (found : (run peers options before).calls[number]? = some call)
    {ended : Call} (reached : (run peers options (before ++ [operation])).calls[number]? = some ended)
    (done : ended.isCompleted = true) (skip : IsSkip options.defaultCancelMode call operation)
    {target : Call.Target} (member : target ∈ call.targets) :
    (run peers options (before ++ [operation] ++ after)).told target.key =
      (run peers options before).told target.key := by
  obtain ⟨index, located⟩ := List.mem_iff_getElem?.mp member
  have known := mem_issued found located
  obtain ⟨holder, also, same, -⟩ := persists_run peers options before [operation] found
  obtain rfl : ended = holder := Option.some.inj (reached.symm.trans also)
  have listed : target.key ∈ ended.targets.map Call.Target.key := by
    rw [Call.keys_of_origin same]
    exact List.mem_map_of_mem member
  have rests := atRest_of_completed (informed_run once.of_prefix) reached done listed
  have silent : (run peers options (before ++ [operation])).told target.key =
      (run peers options before).told target.key := by
    rw [run_concat]
    exact told_skip (linked_run peers options before) (options_run peers options before ▸ skip)
  have still := (issued_run peers options before [operation]).subset known
  exact (rests.run once still).2.trans silent

theorem untracked_of_end (known : key ∈ (run peers options before).issued)
    (ends : Answers key operation ∨
      (run peers options (before ++ [operation])).told key ≠ (run peers options before).told key ∧
        ¬ operation.Cancels options.defaultCancelMode .kill) :
    (run peers options (before ++ [operation] ++ after)).tracked.find? key = none := by
  have informed : (run peers options before).Informed := informed_run once.of_prefix.of_prefix
  have distinct := once.of_prefix.issued_nodup (drawn_run peers options _)
  have untracked : (run peers options (before ++ [operation])).tracked.find? key = none := by
    rw [run_concat] at ends distinct ⊢
    rcases ends with answers | ⟨told, waits⟩
    · exact (answered_step informed answers).1
    · rcases told_step_cases informed known distinct with silent | kill | untracked
      · exact absurd silent told
      · rw [options_run] at kill
        exact absurd kill waits
      · exact untracked
  exact untracked_run once ((issued_run peers options before [operation]).subset known) untracked

end Moment

/--
If the ids of invocations are valid and never used again, then the callee of each hears of it once
and first of all, and at most once that it should stop. It is not told to stop from when it answers
for good or its session closes, nor from when the call is skipped. Whatever it still says after it
answered for good, or after it was told to stop and the call does not wait for it, is ignored.
-/
theorem callee_protocol (peers : Peers) (options : Options) (operations : List Operation)
    (once : (run peers options operations).DrawsOnce peers) :
    let dealer := run peers options operations
    (∀ key, dealer.told key ≠ [] → key ∈ dealer.issued) ∧
    (∀ call ∈ dealer.calls, ∀ target ∈ call.targets, Briefing target (dealer.told target.key)) ∧
    ∀ before operation after, operations = before ++ [operation] ++ after →
      let earlier := run peers options before
      let next := run peers options (before ++ [operation])
      (∀ key ∈ earlier.issued,
        (Answers key operation ∨ operation = .closeSession key.1 →
          dealer.told key = earlier.told key) ∧
        (Answers key operation ∨ next.told key ≠ earlier.told key ∧
            ¬ operation.Cancels options.defaultCancelMode .kill →
          ∀ response, Responds key response → dealer.step peers response = dealer)) ∧
      ∀ (number : Nat) (call ended : Call), earlier.calls[number]? = some call →
        next.calls[number]? = some ended → ended.isCompleted = true →
        IsSkip options.defaultCancelMode call operation →
          ∀ target ∈ call.targets, dealer.told target.key = earlier.told target.key := by
  intro dealer
  have informed : dealer.Informed := informed_run once
  refine ⟨?_, ?_, ?_⟩
  · intro key told
    by_contra absent
    exact told (informed.unknown absent)
  · intro call listed target member
    obtain ⟨number, found⟩ := List.mem_iff_getElem?.mp listed
    obtain ⟨index, located⟩ := List.mem_iff_getElem?.mp member
    exact informed.briefed found located
  · rintro before operation after rfl earlier next
    refine ⟨fun key known => ⟨told_of_end once known, ?_⟩, ?_⟩
    · intro ends response responds
      exact step_of_untracked (untracked_of_end once known ends) responds
    · intro number call ended found reached done skip target member
      exact told_of_skip once found reached done skip member

theorem callee_protocol_of_interrupted_call :
    let operations : List Operation :=
      [.handle 0 0 1 ⟨.register, [.ofNat 1, .dict [], .text "sum"]⟩,
        .handle 0 0 2 ⟨.call, [.ofNat 1, .dict [], .text "sum"]⟩,
        .handle 0 0 2 ⟨.cancel, [.ofNat 1, .dict [(Dict.Key.mode, .text "killnowait")]]⟩]
    let dealer := run obliging {} operations
    dealer.DrawsOnce obliging ∧ (dealer.told (1, 1)).map Message.kind = [.invocation, .interrupt] ∧
      dealer.step obliging (.handle 0 0 1 ⟨.yield, [.ofNat 1, .dict []]⟩) = dealer := by
  intro operations dealer
  have once : dealer.DrawsOnce obliging := drawsOnce_obliging (by decide +kernel)
  obtain ⟨-, -, stages⟩ := callee_protocol obliging {} operations once
  obtain ⟨keys, -⟩ := stages (operations.take 2) _ [] rfl
  obtain ⟨-, ignores⟩ := keys (1, 1) (by decide +kernel)
  have interrupted : dealer.told (1, 1) ≠ (run obliging {} (operations.take 2)).told (1, 1) := by
    decide +kernel
  refine ⟨once, by decide +kernel, ignores (.inr ⟨interrupted, ?_⟩) _ (.yield rfl)⟩
  rintro ⟨_, _, _, _, _, _, _, ⟨⟩, reads, chosen, mode⟩
  obtain ⟨-, rfl⟩ := Rpc.cancel.inj (Except.ok.inj reads)
  obtain rfl := Except.ok.inj chosen
  cases mode

end CallRouter.Dealer
