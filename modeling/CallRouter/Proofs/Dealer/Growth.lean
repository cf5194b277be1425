import CallRouter.Proofs.Call.Relays
import CallRouter.Proofs.Dealer.Quoting
import CallRouter.Proofs.Dealer.Reach

namespace CallRouter.Dealer

open Relation Json

variable {peers : Peers} {dealer later : Dealer} {now : Time} {draw session : Nat}
  {message : Message}

def timeoutSize (terms : Call.Options) : Nat :=
  (terms.timeout.map fun timeout => (Json.ofNat timeout).size).getD 0

theorem timeoutSize_le {caller : Nat} {options : Dict} {terms : Call.Options}
    (agreed : callOptions peers caller options = .ok terms) :
    timeoutSize terms ≤ (Json.dict options).size := by
  obtain ⟨timeout, timed, done⟩ := Rpc.bind_eq_ok_iff.mp agreed
  obtain rfl := Except.ok.inj done
  unfold timeoutOf at timed
  split at timed
  · cases timed
    exact Nat.zero_le _
  · cases timed
    exact Nat.zero_le _
  · rename_i value _ found
    split at timed
    · cases timed
      exact Nat.zero_le _
    · rename_i number
      cases timed
      rw [Json.nat?_eq_some_iff.mp number] at found
      exact size_of_get? found
    · cases timed

theorem entrySizes_ite_le {shown : Prop} [Decidable shown] {entries others : Dict} {bound : Nat}
    (first : entrySizes entries ≤ bound) (second : entrySizes others ≤ bound) :
    entrySizes (if shown then entries else others) ≤ bound := by
  split <;> assumption

theorem size_invocationDetails_le (peers : Peers) (options : Options) (call : Call)
    (target : Call.Target) (word : call.caller < 2 ^ 64) :
    (Json.dict (invocationDetails peers options call target)).size ≤
      80 + (Json.text call.procedure).size + timeoutSize call.options := by
  have keys : String.utf8Len (quote Dict.Key.caller.toList) = 8 ∧
      String.utf8Len (quote Dict.Key.procedure.toList) = 11 ∧
      String.utf8Len (quote Dict.Key.receiveProgress.toList) = 18 ∧
      String.utf8Len (quote Dict.Key.timeout.toList) = 9 := by decide
  have digits : (Json.ofNat call.caller).size ≤ 20 :=
    size_ofNat_le (by decide) (Nat.lt_trans word (by decide))
  have caller : entrySizes (if call.options.discloseMe && options.discloseCaller then
      [(Dict.Key.caller, Json.ofNat call.caller)] else []) ≤ 30 := by
    refine entrySizes_ite_le ?_ (Nat.zero_le _)
    rw [entrySizes_cons, entrySizes_nil, keys.1]
    omega
  have procedure : entrySizes (if target.pattern.policy = .exact then [] else
      [(Dict.Key.procedure, Json.text call.procedure)]) ≤ 13 + (Json.text call.procedure).size := by
    refine entrySizes_ite_le (Nat.zero_le _) ?_
    rw [entrySizes_cons, entrySizes_nil, keys.2.1]
    omega
  have progress : entrySizes (if target.progressive then
      [(Dict.Key.receiveProgress, Json.bool true)] else []) ≤ 24 := by
    refine entrySizes_ite_le ?_ (Nat.zero_le _)
    rw [entrySizes_cons, entrySizes_nil, keys.2.2.1]
    decide
  have parts := Nat.add_le_add (Nat.add_le_add caller procedure) progress
  rw [← entrySizes_append, ← entrySizes_append] at parts
  refine Nat.le_trans (size_dict_le _) ?_
  unfold invocationDetails
  dsimp only
  rw [entrySizes_append]
  cases timed : call.options.timeout with
  | none =>
    rw [entrySizes_nil]
    omega
  | some timeout =>
    have asked : timeoutSize call.options = (Json.ofNat timeout).size := by
      rw [timeoutSize, timed]
      rfl
    have last : entrySizes (if peers.supports target.callee .callee Feature.callTimeout then
        [(Dict.Key.timeout, Json.ofNat timeout)] else []) ≤ 11 + (Json.ofNat timeout).size := by
      refine entrySizes_ite_le ?_ (Nat.zero_le _)
      rw [entrySizes_cons, entrySizes_nil, keys.2.2.2]
      omega
    dsimp only
    omega

/--
How long a message can be that the dealer sends because of one of a given size: on behalf of a call,
or in answer to a request.
-/
def allowance (dealer : Dealer) (size : Nat) (sent : Message) : Option Nat → Nat
  | some _ => size + 128
  | none => if sent.kind = .result then dealer.directory.outline.size + 128 else 2 * size + 256

theorem allowance_mono (dealer : Dealer) {size more : Nat} (less : size ≤ more) (sent : Message)
    (about : Option Nat) : dealer.allowance size sent about ≤ dealer.allowance more sent about := by
  unfold allowance
  split
  · omega
  · split <;> omega

def Bounded (message : Message) (dealer later : Dealer) : Prop :=
  ∃ new, later.effects = dealer.effects ++ new ∧
    ∀ receiver sent about, .send receiver sent about ∈ new →
      sent.size ≤ dealer.allowance message.size sent about

theorem size_of_outgoing {number about : Option Nat} {receiver : Nat} {rpc : Rpc} {sent : Message}
    (member : .send receiver sent about ∈ outgoing number session rpc) :
    about = number ∧ sent.kind = rpc.kind ∧ sent.size ≤ sizes rpc.content + 40 := by
  obtain ⟨-, rfl, same⟩ := eq_of_outgoing member
  refine ⟨same, rfl, Rpc.size_message_le (Message.isValid_of_validate ?_)⟩
  rw [outgoing_eq] at member
  split at member
  · rename_i sendable
    exact Rpc.isSendable_iff.mp sendable
  · cases member

theorem bounded_of_effects (events : List Registration.Event) (session : Nat) (rpc : Rpc)
    (grown : later.effects =
      dealer.effects ++ (events.map .publish ++ outgoing none session rpc))
    (within : sizes rpc.content + 40 ≤ dealer.allowance message.size rpc.message none) :
    Bounded message dealer later := by
  refine ⟨_, grown, fun receiver sent about member => ?_⟩
  rcases List.mem_append.mp member with published | answered
  · simp at published
  · obtain ⟨rfl, kind, bound⟩ := size_of_outgoing answered
    have same : dealer.allowance message.size sent none =
        dealer.allowance message.size rpc.message none := by
      rw [allowance, allowance, kind]
      rfl
    omega

theorem bounded_refuse (dealer : Dealer) {kind : Message.Kind} {request : Nat} {refusal : Refusal}
    (within : refusal.size ≤ 2 * message.size + 164) :
    Bounded message dealer (dealer.refuse session kind request refusal) := by
  let answer : Rpc := .error kind request [] refusal.uri.uri (.ofArgs [.text refusal.message])
  refine bounded_of_effects [] session answer (by rw [refuse, send_eq]; rfl) ?_
  have uri := refusal.uri.size_uri_le
  have text : refusal.size = (Json.text refusal.message).size := rfl
  have details : (Json.dict []).size = 2 := rfl
  simp only [answer, allowance, Rpc.message, Rpc.kind, Rpc.content, Payload.ofArgs,
    Payload.fields, sizes_cons, sizes_nil, size_list, details, reduceCtorEq, if_false]
  omega

theorem isValid_of_reads {rpc : Rpc} (valid : message.IsValid)
    (reads : Rpc.ofMessage message = .ok rpc) : rpc.message.IsValid :=
  (Rpc.message_of_ofMessage valid reads).symm ▸ valid

theorem sizes_of_reads {rpc : Rpc} (valid : message.IsValid)
    (reads : Rpc.ofMessage message = .ok rpc) : sizes rpc.content + 6 ≤ message.size :=
  Rpc.message_of_ofMessage valid reads ▸ rpc.sizes_content_le

section Handling

variable (valid : message.IsValid)

include valid

theorem bounded_register {request : Nat} {options : Dict} {uri : String}
    (reads : Rpc.ofMessage message = .ok (.register request options uri)) :
    Bounded message dealer (dealer.register now session request options uri) := by
  have given := sizes_of_reads valid reads
  simp only [Rpc.content, sizes_cons, sizes_nil] at given
  unfold register
  cases done : dealer.register? now session options uri with
  | error refusal =>
    have quoted := size_register?_le done
    exact bounded_refuse dealer (by omega)
  | ok answer =>
    obtain ⟨registration, later⟩ := answer
    obtain ⟨_, _, events, directory, _, _, _, _, _, rfl⟩ := register?_cases done
    refine bounded_of_effects events session (.registered request registration.id) ?_ ?_
    · show (send _ session (.registered request registration.id) none).effects = _
      rw [send_eq, List.append_assoc]
    · simp only [allowance, Rpc.message, Rpc.kind, Rpc.content, sizes_nil, reduceCtorEq, if_false]
      omega

theorem bounded_unregister {request id : Nat}
    (reads : Rpc.ofMessage message = .ok (.unregister request id)) :
    Bounded message dealer (dealer.unregister session request id) := by
  unfold unregister
  cases done : dealer.unregister? session id with
  | error refusal =>
    have digits : (Json.ofNat id).size ≤ 17 := Rpc.size_second_le (isValid_of_reads valid reads) rfl
    have quoted := size_unregister?_le done
    exact bounded_refuse dealer (by omega)
  | ok later =>
    obtain ⟨_, registration, events, directory, _, rfl⟩ := unregister?_cases done
    refine bounded_of_effects events session (.unregistered request none) ?_ ?_
    · show (send _ session (.unregistered request none) none).effects = _
      rw [send_eq, List.append_assoc]
    · simp only [allowance, Rpc.message, Rpc.kind, Rpc.content, Option.map, Option.toList,
        sizes_nil, reduceCtorEq, if_false]
      omega

theorem bounded_cancel {request : Nat} {options : Dict} {refusal : Refusal}
    (reads : Rpc.ofMessage message = .ok (.cancel request options))
    (why : Uncancelable request options refusal) :
    Bounded message dealer (dealer.refuse session .cancel request refusal) := by
  have given := sizes_of_reads valid reads
  simp only [Rpc.content, sizes_cons, sizes_nil] at given
  apply bounded_refuse
  cases why with
  | absent =>
    have digits : (Json.ofNat request).size ≤ 17 :=
      Rpc.size_request_le (isValid_of_reads valid reads)
    rw [Refusal.size_noSuchCall]
    omega
  | unknown refused =>
    have quoted := Dict.size_of_choice refused
    rw [Refusal.size_ofUnknownOption]
    omega

theorem bounded_dispatch (word : session < 2 ^ 64) {call : Call}
    (dispatches : Dispatches peers dealer (.handle now draw session message) call later) :
    Bounded message dealer later := by
  cases dispatches with
  | @dispatch _ _ _ request _ options uri payload terms _ registrations chosen reads _ agreed _
      choice =>
    have given := sizes_of_reads valid reads
    simp only [Rpc.content, sizes_cons] at given
    have timeout := timeoutSize_le agreed
    have grown : (chosen.dispatch peers now session request uri terms registrations payload).effects
        = dealer.effects ++ mailing dealer.calls.length (invocations peers dealer.options
          (chosen.newCall peers now session request uri terms registrations) payload) := by
      rw [dispatch_eq, chooseRegistrations_frame choice]
    refine ⟨_, grown, fun receiver sent about member => ?_⟩
    obtain ⟨⟨receiver, rpc⟩, among, inside⟩ := List.mem_flatMap.mp member
    obtain ⟨target, -, same⟩ := List.mem_map.mp among
    obtain ⟨-, rfl⟩ := Prod.mk.inj same
    obtain ⟨rfl, -, bound⟩ := size_of_outgoing inside
    have details := size_invocationDetails_le peers dealer.options
      (chosen.newCall peers now session request uri terms registrations) target word
    simp only [Rpc.content, sizes_cons] at bound
    simp only [newCall] at details bound
    simp only [allowance]
    omega

theorem bounded_call (word : session < 2 ^ 64) {request : Nat} {options : Dict} {uri : String}
    {payload : Payload}
    (reads : Rpc.ofMessage message = .ok (.call request options uri payload)) :
    Bounded message dealer
      (dealer.call peers now draw session request options uri payload) := by
  have given := sizes_of_reads valid reads
  simp only [Rpc.content, sizes_cons] at given
  unfold call
  cases answered : dealer.call? peers now draw session request options uri payload with
  | error refusal =>
    have quoted := size_call?_le answered
    have within : refusal.size ≤ 2 * message.size + 164 := by omega
    cases refusal with
    | noSuchProcedure name =>
      exact bounded_refuse { dealer with statistics := dealer.statistics.recordMissed uri } within
    | _ => exact bounded_refuse dealer within
  | ok later =>
    rcases call?_cases reads answered with ⟨procedure, answer, told, rfl⟩ | ⟨call, dispatches⟩
    · refine bounded_of_effects [] session (.result request [] (.ofArgs [answer])) ?_ ?_
      · show (send dealer session (.result request [] (.ofArgs [answer])) none).effects = _
        rw [send_eq, List.map_nil, List.nil_append]
      · have outlined := Registration.MetaProcedure.size_answer_le told
        have details : (Json.dict []).size = 2 := rfl
        simp only [allowance, Rpc.message, Rpc.kind, Rpc.content, Payload.ofArgs, Payload.fields,
          sizes_cons, sizes_nil, size_list, details, if_true]
        omega
    · exact bounded_dispatch valid word dispatches

theorem content_of_cause {number : Nat} {call : Call} {event : Call.Event}
    (cause : Cause peers dealer number call (.handle now draw session message) event) :
    sizes event.content + 6 ≤ message.size := by
  cases cause with
  | progress _ reads | result _ reads =>
    have given := sizes_of_reads valid reads
    simp only [Rpc.content, sizes_cons] at given
    simp only [Call.Event.content]
    omega
  | failure _ reads => exact sizes_of_reads valid reads
  | cancellation reads =>
    have given := sizes_of_reads valid reads
    simp only [Call.Event.content, sizes_nil]
    omega

theorem bounded_turns
    (turns : ReflTransGen (Turns peers (.handle now draw session message)) dealer later) :
    Bounded message dealer later := by
  -- Every turn has its cause in the one message, so each is bounded by it, however many there are.
  induction turns with
  | refl => exact ⟨[], by simp, by simp⟩
  | tail _ turn ih =>
    obtain ⟨new, grown, within⟩ := ih
    obtain ⟨found, cause⟩ := turn
    have given := content_of_cause valid cause
    refine ⟨_, (congrArg (· ++ _) grown).trans (List.append_assoc _ _ _), ?_⟩
    intro receiver sent about member
    rcases List.mem_append.mp member with earlier | last
    · exact within receiver sent about earlier
    · obtain ⟨⟨receiver, rpc⟩, among, inside⟩ := List.mem_flatMap.mp last
      obtain ⟨rfl, -, bound⟩ := size_of_outgoing inside
      have carried := Call.sizes_turn_le among
      simp only [allowance]
      omega

theorem bounded_of_handled (word : session < 2 ^ 64)
    (handled : Handled peers dealer now draw session message later) :
    Bounded message dealer later := by
  cases handled with
  | register reads => exact bounded_register valid reads
  | unregister reads => exact bounded_unregister valid reads
  | call reads => exact bounded_call valid word reads
  | refuse reads why => exact bounded_cancel valid reads why
  | turns turns => exact bounded_turns valid turns

end Handling

end CallRouter.Dealer
