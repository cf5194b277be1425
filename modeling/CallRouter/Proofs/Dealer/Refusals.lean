import CallRouter.Proofs.Dealer.Isolation
import CallRouter.Proofs.Registration.Lookup

namespace CallRouter

namespace Statistics

/-- One more call of a missing procedure is counted: on its name, or else past the limit of names. -/
structure Misses (statistics : Statistics) (name : String) (later : Statistics) : Prop where
  nodes : later.nodes = statistics.nodes
  limit : later.missedLimit = statistics.missedLimit
  others : ∀ other, other ≠ name → later.missed.find? other = statistics.missed.find? other
  counted : statistics.missed.contains name = true ∨
      statistics.missed.size < statistics.missedLimit →
    later.missed.find? name = some (statistics.missedCount name + 1) ∧
      later.overflow = statistics.overflow
  past : statistics.missed.contains name = false →
      statistics.missedLimit ≤ statistics.missed.size →
    later.missed = statistics.missed ∧ later.overflow = statistics.overflow + 1

theorem misses_recordMissed (statistics : Statistics) (name : String) :
    statistics.Misses name (statistics.recordMissed name) := by
  unfold recordMissed
  split
  · rename_i room
    refine ⟨rfl, rfl, fun other apart => ?_, fun _ => ⟨?_, rfl⟩, fun unknown full => ?_⟩
    · exact (Keyed.find?_insert _ _ _ _).trans (if_neg apart.symm)
    · exact Keyed.find?_insert_self _ _ _
    · simp only [unknown, Bool.false_or, decide_eq_true_eq] at room
      omega
  · rename_i none
    simp only [Bool.or_eq_true, decide_eq_true_eq, not_or, Bool.not_eq_true] at none
    refine ⟨rfl, rfl, fun _ _ => rfl, ?_, fun _ _ => ⟨rfl, rfl⟩⟩
    rintro (known | few)
    · simp [none.1] at known
    · exact absurd few none.2

end Statistics

theorem Rpc.fields_of_error (type : Message.Kind) (request : Nat) (details : Dict) (error : String)
    (payload : Payload) :
    let sent := (Rpc.error type request details error payload).message
    sent.nat? 0 = some type.code ∧ sent.nat? 1 = some request ∧ sent.text? 3 = some error :=
  ⟨by simp [message, fields, Message.nat?, Message.field?],
    by simp [message, fields, Message.nat?, Message.field?], rfl⟩

theorem ErrorUri.uri_eq_noSuchProcedure {error : ErrorUri} :
    error.uri = ErrorUri.noSuchProcedure.uri ↔ error = .noSuchProcedure := by
  cases error <;> decide

theorem Call.error_of_turn {call : Call} {event : Call.Event} (admits : call.Admits event)
    {receiver : Nat} {rpc : Rpc} (member : (receiver, rpc) ∈ (call.turn event).sent)
    (failed : rpc.kind = .error) :
    ∃ details error payload, rpc = .error .call call.request details error payload := by
  have heard : (receiver, rpc) ∈ (call.turn event).replies :=
    List.mem_filter.mpr ⟨member, by simp [failed, Message.Kind.isReply]⟩
  have hears := Call.turn_hears admits
  generalize (call.turn event).replies = replies at heard hears
  cases hears with
  | silence | abandonment => cases heard
  | progress payload opened agreed =>
    obtain ⟨-, rfl⟩ := Prod.mk.inj (List.mem_singleton.mp heard)
    cases failed
  | closing last closing opened ended =>
    obtain ⟨-, rfl⟩ := Prod.mk.inj (List.mem_singleton.mp heard)
    cases closing.final with
    | result payload => cases failed
    | error details error payload => exact ⟨details, error, payload, rfl⟩

namespace Dealer

open Relation Registration Registration.Directory

variable {peers : Peers} {dealer later : Dealer} {now : Time} {draw session : Nat}
  {message : Message}

theorem refuse_of_mem {kind : Message.Kind} {request receiver : Nat} {refusal : Refusal}
    {sent : Message} {about : Option Nat}
    (member : .send receiver sent about ∈
      (dealer.refuse session kind request refusal).effects.drop dealer.effects.length) :
    receiver = session ∧ sent.nat? 1 = some request ∧ sent.text? 3 = some refusal.uri.uri ∧
      dealer.refuse session kind request refusal =
        { dealer with effects := dealer.effects ++ [.send session sent none] } := by
  rw [refuse, send_eq] at member ⊢
  rw [List.drop_left] at member
  obtain ⟨rfl, rfl, -⟩ := eq_of_outgoing member
  refine ⟨rfl, (Rpc.fields_of_error ..).2.1, (Rpc.fields_of_error ..).2.2, ?_⟩
  rw [outgoing_eq] at member ⊢
  split at member
  · rename_i sendable
    rw [if_pos sendable]
  · cases member

inductive Rejects (dealer : Dealer) (session : Nat) (message : Message) : Dealer → Prop
  | refuse {request : Nat} {refusal : Refusal} (asked : message.nat? 0 = some request)
      (found : message.kind = .call → refusal.uri ≠ .noSuchProcedure) :
      Rejects dealer session message (dealer.refuse session message.kind request refusal)
  | miss {request : Nat} {uri : String} {refusal : Refusal} (asked : message.nat? 0 = some request)
      (calling : message.kind = .call) (called : message.text? 2 = some uri)
      (missing : refusal.uri = .noSuchProcedure) :
      Rejects dealer session message
        ({ dealer with statistics := dealer.statistics.recordMissed uri }.refuse session
          message.kind request refusal)

theorem rejects_refuse {kind : Message.Kind} {request : Nat} {refusal : Refusal}
    (same : message.kind = kind) (asked : message.nat? 0 = some request) (other : kind ≠ .call) :
    Rejects dealer session message (dealer.refuse session kind request refusal) := by
  subst same
  exact .refuse asked fun calling => absurd calling other

def Grants (message : Message) (dealer later : Dealer) : Prop :=
  ∃ new, later.effects = dealer.effects ++ new ∧
    ∀ receiver sent about, .send receiver sent about ∈ new → sent.kind = .error →
      sent.nat? 0 ≠ some message.kind.code

theorem grants_refl (dealer : Dealer) : Grants message dealer dealer := ⟨[], by simp, by simp⟩

theorem grants_of_effects (events : List Registration.Event) {receiver : Nat} (rpc : Rpc)
    (granted : rpc.kind ≠ .error)
    (grown : later.effects = dealer.effects ++ (events.map .publish ++ outgoing none receiver rpc)) :
    Grants message dealer later := by
  refine ⟨_, grown, fun receiver sent about member failed => ?_⟩
  rcases List.mem_append.mp member with published | answered
  · simp at published
  · exact absurd ((kind_of_outgoing answered).symm.trans failed) granted

theorem register_refuses {request : Nat} {options : Dict} {uri : String}
    (reads : Rpc.ofMessage message = .ok (.register request options uri)) :
    Rejects dealer session message (dealer.register now session request options uri) ∨
      Grants message dealer (dealer.register now session request options uri) := by
  have kind : message.kind = .register := (Rpc.kind_of_ofMessage reads).symm
  have asked := Rpc.request_of_ofMessage reads (by rw [kind]; rfl)
  unfold register
  cases done : dealer.register? now session options uri with
  | error refusal => exact .inl (rejects_refuse kind asked (by decide))
  | ok answer =>
    right
    obtain ⟨registration, later⟩ := answer
    obtain ⟨_, _, events, directory, _, _, _, _, made, rfl⟩ := register?_cases done
    apply grants_of_effects events (.registered request registration.id) (by simp [Rpc.kind])
    show (send _ session (.registered request registration.id) none).effects = _
    rw [send_eq, List.append_assoc]

theorem unregister_refuses {request id : Nat}
    (reads : Rpc.ofMessage message = .ok (.unregister request id)) :
    Rejects dealer session message (dealer.unregister session request id) ∨
      Grants message dealer (dealer.unregister session request id) := by
  have kind : message.kind = .unregister := (Rpc.kind_of_ofMessage reads).symm
  have asked := Rpc.request_of_ofMessage reads (by rw [kind]; rfl)
  unfold unregister
  cases done : dealer.unregister? session id with
  | error refusal => exact .inl (rejects_refuse kind asked (by decide))
  | ok later =>
    right
    obtain ⟨_, registration, events, directory, gone, rfl⟩ := unregister?_cases done
    apply grants_of_effects events (.unregistered request none) (by simp [Rpc.kind])
    show (send _ session (.unregistered request none) none).effects = _
    rw [send_eq, List.append_assoc]

theorem call_refuses {request : Nat} {options : Dict} {uri : String} {payload : Payload}
    (reads : Rpc.ofMessage message = .ok (.call request options uri payload)) :
    Rejects dealer session message
        (dealer.call peers now draw session request options uri payload) ∨
      Grants message dealer
        (dealer.call peers now draw session request options uri payload) := by
  obtain ⟨kind, asked⟩ := Rpc.call_of_ofMessage reads
  unfold call
  cases answered : dealer.call? peers now draw session request options uri payload with
  | error refusal =>
    left
    rw [← kind]
    cases refusal with
    | noSuchProcedure name => exact .miss asked kind (Rpc.procedure_of_call reads) rfl
    | _ => exact .refuse asked (by simp [Refusal.uri])
  | ok later =>
    right
    rcases call?_cases reads answered with ⟨_, answer, -, rfl⟩ | ⟨call, dispatches⟩
    · apply grants_of_effects [] (.result request [] (.ofArgs [answer])) (by simp [Rpc.kind])
      show (send dealer session (.result request [] (.ofArgs [answer])) none).effects = _
      rw [send_eq, List.map_nil, List.nil_append]
    · obtain ⟨payload, grown⟩ := dispatches.effects
      refine ⟨_, grown, fun receiver sent about member failed => ?_⟩
      obtain ⟨⟨receiver, rpc⟩, among, inside⟩ := List.mem_flatMap.mp member
      obtain ⟨target, _, same⟩ := List.mem_map.mp among
      obtain ⟨-, rfl⟩ := Prod.mk.inj same
      rw [kind_of_outgoing inside] at failed
      cases failed

theorem turns_grant (request : message.kind.isRequest = true)
    (turns : ReflTransGen (Turns peers (.handle now draw session message)) dealer later) :
    Grants message dealer later := by
  induction turns with
  | refl => exact grants_refl dealer
  | tail before turn ih =>
    obtain ⟨new, grown, silent⟩ := ih
    obtain ⟨found, cause⟩ := turn
    have canceling : message.kind = .cancel := by
      rcases cause.kind_cases with same | same | same
      · exact same
      · simp [same, Message.Kind.isRequest] at request
      · simp [same, Message.Kind.isRequest] at request
    refine ⟨_, (congrArg (· ++ _) grown).trans (List.append_assoc _ _ _), ?_⟩
    intro receiver sent about member failed
    rcases List.mem_append.mp member with earlier | last
    · exact silent receiver sent about earlier failed
    · obtain ⟨⟨receiver, rpc⟩, among, inside⟩ := List.mem_flatMap.mp last
      obtain ⟨-, rfl, -⟩ := eq_of_outgoing inside
      obtain ⟨details, error, payload, rfl⟩ := Call.error_of_turn cause.admits among failed
      rw [canceling, (Rpc.fields_of_error ..).1]
      decide

theorem request_cases (linked : dealer.Linked) (request : message.kind.isRequest = true) :
    Rejects dealer session message (dealer.step peers (.handle now draw session message)) ∨
      Grants message dealer (dealer.step peers (.handle now draw session message)) := by
  have handled := handled_step linked peers now draw session message
  generalize dealer.step peers (.handle now draw session message) = later at handled ⊢
  cases handled with
  | register reads => exact register_refuses reads
  | unregister reads => exact unregister_refuses reads
  | call reads => exact call_refuses reads
  | turns turns => exact .inr (turns_grant request turns)
  | refuse reads =>
    have kind : message.kind = .cancel := (Rpc.kind_of_ofMessage reads).symm
    have asked := Rpc.request_of_ofMessage reads request
    exact .inl (rejects_refuse kind asked (by decide))

theorem trace_of_rejects (rejects : Rejects dealer session message later) {receiver : Nat}
    {sent : Message} {about : Option Nat}
    (member : .send receiver sent about ∈ later.effects.drop dealer.effects.length) :
    receiver = session ∧ sent.nat? 1 = message.nat? 0 ∧
      ∃ statistics, later = { dealer with
          statistics, effects := dealer.effects ++ [.send session sent none] } ∧
        if message.kind = .call ∧ sent.text? 3 = some ErrorUri.noSuchProcedure.uri then
          ∃ uri, message.text? 2 = some uri ∧ dealer.statistics.Misses uri statistics
        else statistics = dealer.statistics := by
  cases rejects with
  | refuse asked found =>
    obtain ⟨rfl, about, named, same⟩ := refuse_of_mem member
    refine ⟨rfl, about.trans asked.symm, dealer.statistics, same, ?_⟩
    rw [if_neg]
    rintro ⟨calling, missing⟩
    rw [named, Option.some.injEq, ErrorUri.uri_eq_noSuchProcedure] at missing
    exact found calling missing
  | @miss request uri refusal asked calling called missing =>
    let missed : Dealer := { dealer with statistics := dealer.statistics.recordMissed uri }
    have member : .send receiver sent about ∈
        (missed.refuse session message.kind request refusal).effects.drop missed.effects.length :=
      member
    obtain ⟨rfl, about, named, same⟩ := refuse_of_mem member
    refine ⟨rfl, about.trans asked.symm, dealer.statistics.recordMissed uri, same, ?_⟩
    rw [if_pos ⟨calling, by rw [named, missing]⟩]
    exact ⟨uri, called, Statistics.misses_recordMissed dealer.statistics uri⟩

theorem chooseRegistrations_ne_nil (wellFormed : dealer.directory.WellFormed) {uri : String}
    {offers : Bool} {entry : Entry}
    (resolved : dealer.directory.resolve uri offers = some (.entry entry))
    (receiveProgress : Bool) (draw : Nat) :
    (dealer.chooseRegistrations entry receiveProgress draw).1 ≠ [] := by
  simp only [Directory.resolve] at resolved
  split at resolved
  · cases resolved
  · obtain ⟨served, found, same⟩ := Option.map_eq_some_iff.mp resolved
    obtain rfl := Destination.entry.inj same
    obtain ⟨⟨id, held⟩, -⟩ := covers_of_lookup found
    unfold chooseRegistrations
    split
    · obtain ⟨member, inside⟩ := List.exists_mem_of_ne_nil _ (wellFormed.inhabited id served held)
      obtain ⟨registration, live, -⟩ := (wellFormed.toConsistent.mem_members held).mp inside
      exact List.ne_nil_of_mem (List.mem_filterMap.mpr ⟨member, inside, live⟩)
    · obtain ⟨registration, selected, -⟩ := wellFormed.select_exists held draw
      simp [selected]

theorem yield_untracked {invocation : Nat} {options : Dict} {payload : Payload}
    (reads : Rpc.ofMessage message = .ok (.yield invocation options payload))
    (untracked : dealer.tracked.find? (session, invocation) = none) :
    dealer.handle peers now draw session message = .ok dealer := by
  have nobody : dealer.target? session invocation = none := by simp [target?, untracked]
  simp [handle, reads, yieldProgress, yieldResult, nobody]

theorem error_untracked {invocation : Nat} {details : Dict} {error : String} {payload : Payload}
    (reads : Rpc.ofMessage message = .ok (.error .invocation invocation details error payload))
    (untracked : dealer.tracked.find? (session, invocation) = none) :
    dealer.handle peers now draw session message = .ok dealer := by
  have nobody : dealer.target? session invocation = none := by simp [target?, untracked]
  simp [handle, reads, fail, nobody]

theorem error_ignored {type : Message.Kind} {request : Nat} {details : Dict} {error : String}
    {payload : Payload}
    (reads : Rpc.ofMessage message = .ok (.error type request details error payload))
    (other : type ≠ .invocation) :
    dealer.handle peers now draw session message = .ok dealer := by
  cases type <;> simp_all [handle]

/--
An error of the type of a request is all that comes of the request: it goes to the requester, repeats
the id of the request, and leaves the dealer as it was, but for one miss of the called name if there
is no such procedure. A message that is refused as such, and an answer that nobody waits for, leave
the dealer as it was without any message.
-/
theorem rejected_requests_leave_no_trace (peers : Peers) (options : Options)
    (operations : List Operation) (ends : RunsEnd peers options operations) (now : Time)
    (draw session : Nat) (message : Message) :
    let dealer := run peers options operations
    let later := dealer.step peers (.handle now draw session message)
    (∀ receiver sent about, message.kind.isRequest = true →
      .send receiver sent about ∈ later.effects.drop dealer.effects.length →
      sent.kind = .error → sent.nat? 0 = some message.kind.code →
        receiver = session ∧ sent.nat? 1 = message.nat? 0 ∧
        ∃ statistics, later = { dealer with
            statistics, effects := dealer.effects ++ [.send session sent none] } ∧
          if message.kind = .call ∧ sent.text? 3 = some ErrorUri.noSuchProcedure.uri then
            ∃ uri, message.text? 2 = some uri ∧ dealer.statistics.Misses uri statistics
          else statistics = dealer.statistics) ∧
    (∀ uri entry, dealer.directory.resolve uri dealer.options.metaApi = some (.entry entry) →
      ∀ receiveProgress draw, (dealer.chooseRegistrations entry receiveProgress draw).1 ≠ []) ∧
    (∀ refusal, dealer.handle peers now draw session message = .error refusal → later = dealer) ∧
    (∀ type request details error payload,
      Rpc.ofMessage message = .ok (.error type request details error payload) →
      (type = .invocation → dealer.tracked.find? (session, request) = none) → later = dealer) ∧
    (∀ invocation options payload,
      Rpc.ofMessage message = .ok (.yield invocation options payload) →
      dealer.tracked.find? (session, invocation) = none → later = dealer) := by
  intro dealer later
  have linked := linked_run peers options operations
  have wellFormed := wellFormed_of_runsEnd peers options operations ends
  have ignored (same : dealer.handle peers now draw session message = .ok dealer) :
      later = dealer := by
    simp only [later, step, same]
  refine ⟨?_, fun uri entry resolved => chooseRegistrations_ne_nil wellFormed resolved, ?_, ?_, ?_⟩
  · intro receiver sent about request member failed type
    rcases request_cases linked request with rejects | ⟨new, grown, silent⟩
    · exact trace_of_rejects rejects member
    · rw [grown, List.drop_left] at member
      exact absurd type (silent receiver sent about member failed)
  · intro refusal refused
    simp only [later, step, refused]
  · intro type request details error payload reads untracked
    by_cases same : type = .invocation
    · subst same
      exact ignored (error_untracked reads (untracked rfl))
    · exact ignored (error_ignored reads same)
  · intro invocation options payload reads untracked
    exact ignored (yield_untracked reads untracked)

theorem rejected_requests_leave_no_trace_of_missing_procedure :
    let operations : List Operation :=
      [.handle 0 0 1 ⟨.register, [.ofNat 1, .dict [], .text "sum"]⟩,
        .handle 0 0 2 ⟨.call, [.ofNat 1, .dict [], .text "sum"]⟩]
    let calling : Message := ⟨.call, [.ofNat 2, .dict [], .text "mul"]⟩
    let sent : Message := ⟨.error, [.ofNat 48, .ofNat 2, .dict [],
      .text "wamp.error.no_such_procedure", .list [.text "no such procedure: mul"]]⟩
    let dealer := run obliging {} operations
    let later := dealer.step obliging (.handle 0 0 2 calling)
    RunsEnd obliging {} operations ∧ calling.kind.isRequest = true ∧
      .send 2 sent none ∈ later.effects.drop dealer.effects.length ∧ sent.kind = .error ∧
      sent.nat? 0 = some calling.kind.code ∧
      ∃ statistics, later = { dealer with
          statistics, effects := dealer.effects ++ [.send 2 sent none] } ∧
        dealer.statistics.Misses "mul" statistics := by
  intro operations calling sent dealer later
  have ends : RunsEnd obliging {} operations := by
    apply runsEnd_of_hasIds
    decide +kernel
  have member : .send 2 sent none ∈ later.effects.drop dealer.effects.length := by decide +kernel
  obtain ⟨rejected, -⟩ := rejected_requests_leave_no_trace obliging {} operations ends 0 0 2 calling
  obtain ⟨-, -, statistics, same, missed⟩ := rejected 2 sent none rfl member rfl rfl
  rw [if_pos ⟨rfl, rfl⟩] at missed
  obtain ⟨uri, called, misses⟩ := missed
  obtain rfl : "mul" = uri := Option.some.inj called
  exact ⟨ends, rfl, member, rfl, rfl, statistics, same, misses⟩

end Dealer

end CallRouter
