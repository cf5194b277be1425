import CallRouter.Proofs.Message.Registry

namespace CallRouter

namespace Message

namespace FieldType

variable {value : Json}

theorem eq_of_accepts_id (accepts : id.accepts value = true) : ∃ n, value = .ofNat n := by
  cases number : value.nat? with
  | none => simp [FieldType.accepts, number] at accepts
  | some n => exact ⟨n, Json.nat?_eq_some_iff.mp number⟩

theorem eq_of_accepts_dict (accepts : dict.accepts value = true) :
    ∃ entries, value = .dict entries := by
  cases value <;> first | exact ⟨_, rfl⟩ | cases accepts

theorem eq_of_accepts_list (accepts : list.accepts value = true) :
    ∃ items, value = .list items := by
  cases value <;> first | exact ⟨_, rfl⟩ | cases accepts

theorem eq_of_accepts_uri (accepts : uri.accepts value = true) : ∃ text, value = .text text := by
  cases value <;> first | exact ⟨_, rfl⟩ | cases accepts

end FieldType

section

open FieldType

variable {values : List Json} {first second third : String}

theorem eq_of_id_id (fits : List.Forall₂ Field.Accepts [⟨first, .id⟩, ⟨second, .id⟩] values) :
    ∃ m n, values = [.ofNat m, .ofNat n] := by
  obtain _ | ⟨front, _ | ⟨back, ⟨⟩⟩⟩ := fits
  obtain ⟨m, rfl⟩ := eq_of_accepts_id front
  obtain ⟨n, rfl⟩ := eq_of_accepts_id back
  exact ⟨m, n, rfl⟩

theorem eq_of_id_dict (fits : List.Forall₂ Field.Accepts [⟨first, .id⟩, ⟨second, .dict⟩] values) :
    ∃ n entries, values = [.ofNat n, .dict entries] := by
  obtain _ | ⟨front, _ | ⟨back, ⟨⟩⟩⟩ := fits
  obtain ⟨n, rfl⟩ := eq_of_accepts_id front
  obtain ⟨entries, rfl⟩ := eq_of_accepts_dict back
  exact ⟨n, entries, rfl⟩

theorem eq_of_id_dict_uri
    (fits : List.Forall₂ Field.Accepts [⟨first, .id⟩, ⟨second, .dict⟩, ⟨third, .uri⟩] values) :
    ∃ n entries text, values = [.ofNat n, .dict entries, .text text] := by
  obtain _ | ⟨front, _ | ⟨middle, _ | ⟨back, ⟨⟩⟩⟩⟩ := fits
  obtain ⟨n, rfl⟩ := eq_of_accepts_id front
  obtain ⟨entries, rfl⟩ := eq_of_accepts_dict middle
  obtain ⟨text, rfl⟩ := eq_of_accepts_uri back
  exact ⟨n, entries, text, rfl⟩

end

theorem Shape.fits_of_admits {kind : Kind} {variant : List Field} {flows : List Flow}
    {values : List Json} (admits : Shape.Admits ⟨kind, [variant], flows⟩ values) :
    List.Forall₂ Field.Accepts variant values := by
  obtain ⟨other, member, fits⟩ := admits
  rwa [List.mem_singleton.mp member] at fits

theorem IsValid.admits {message : Message} (valid : message.IsValid) :
    (Shape.standard message.kind).Admits message.fields :=
  Shape.validate_eq_ok_iff_admits.mp valid.validate

end Message

namespace Payload

/-- The payload as it is read back: keyword arguments come with a list of arguments. -/
def filled (payload : Payload) : Payload :=
  ⟨payload.args.or (payload.kwargs.map fun _ => []), payload.kwargs⟩

end Payload

namespace Rpc

open Message (Field Kind Shape eq_of_id_id eq_of_id_dict eq_of_id_dict_uri)
open Message.Shape (fits_of_admits)
open Message.FieldType (eq_of_accepts_id eq_of_accepts_dict eq_of_accepts_list)

theorem exists_payload {back : List Field} {values : List Json}
    (member : back ∈ Shape.withPayload []) (fits : List.Forall₂ Field.Accepts back values) :
    ∃ payload, Payload.filled payload = payload ∧ values = payload.fields := by
  simp only [Shape.withPayload, List.nil_append, List.mem_cons, List.not_mem_nil, or_false]
    at member
  obtain rfl | rfl | rfl := member
  · cases fits
    exact ⟨.empty, rfl, rfl⟩
  · obtain ⟨value, _, accepts, ⟨⟩, rfl⟩ := List.forall₂_cons_left_iff.mp fits
    obtain ⟨args, rfl⟩ := eq_of_accepts_list accepts
    exact ⟨.ofArgs args, rfl, rfl⟩
  · obtain ⟨value, rest, accepts, last, rfl⟩ := List.forall₂_cons_left_iff.mp fits
    obtain ⟨value, _, accepted, ⟨⟩, rfl⟩ := List.forall₂_cons_left_iff.mp last
    obtain ⟨args, rfl⟩ := eq_of_accepts_list accepts
    obtain ⟨kwargs, rfl⟩ := eq_of_accepts_dict accepted
    exact ⟨⟨some args, some kwargs⟩, rfl, rfl⟩

theorem admits_withPayload {kind : Kind} {front : List Field} {flows : List Message.Flow}
    {values : List Json} (admits : Shape.Admits ⟨kind, Shape.withPayload front, flows⟩ values) :
    ∃ fields payload, List.Forall₂ Field.Accepts front fields ∧
      Payload.filled payload = payload ∧ values = fields ++ payload.fields := by
  obtain ⟨variant, member, fits⟩ := admits
  obtain ⟨back, payload, rfl⟩ : ∃ back ∈ Shape.withPayload [], variant = front ++ back := by
    simpa [Shape.withPayload, eq_comm] using member
  have fields := List.forall₂_take front.length fits
  have rest := List.forall₂_drop front.length fits
  rw [List.take_left] at fields
  rw [List.drop_left] at rest
  obtain ⟨payload, filled, same⟩ := exists_payload payload rest
  exact ⟨_, payload, fields, filled, by rw [← same, List.take_append_drop]⟩

def filled : Rpc → Rpc
  | call request options procedure payload => call request options procedure payload.filled
  | result request details payload => result request details payload.filled
  | invocation request registration details payload =>
    invocation request registration details payload.filled
  | yield request options payload => yield request options payload.filled
  | error type request details uri payload => error type request details uri payload.filled
  | rpc => rpc

@[simp] theorem payloadAt_zero (kind : Kind) (payload : Payload) :
    payloadAt ⟨kind, payload.fields⟩ 0 = payload.filled := by
  obtain ⟨_ | args, _ | kwargs⟩ := payload <;> rfl

@[simp] theorem payloadAt_succ (kind : Kind) (value : Json) (fields : List Json) (index : Nat) :
    payloadAt ⟨kind, value :: fields⟩ (index + 1) = payloadAt ⟨kind, fields⟩ index := rfl

theorem nat?_here (kind : Kind) (n : Nat) (fields : List Json) :
    Message.nat? ⟨kind, .ofNat n :: fields⟩ 0 = some n := Json.nat?_ofNat n

theorem nat?_next (kind : Kind) (value : Json) (n : Nat) (fields : List Json) :
    Message.nat? ⟨kind, value :: .ofNat n :: fields⟩ 1 = some n := Json.nat?_ofNat n

theorem ofMessage_message (rpc : Rpc) : ofMessage rpc.message = .ok rpc.filled := by
  cases rpc with
  | unregistered request details =>
    cases details <;> simp only [ofMessage, message, kind, fields, requestAt, nat?_here] <;> rfl
  | error type request details uri payload =>
    simp only [ofMessage, message, kind, fields, List.cons_append, List.nil_append, requestAt,
      nat?_here, nat?_next, required, bind, Except.bind, Kind.ofCode?_code, payloadAt_succ,
      payloadAt_zero]
    rfl
  | _ =>
    simp only [ofMessage, message, kind, fields, List.cons_append, List.nil_append, requestAt,
      registrationAt, nat?_here, nat?_next, payloadAt_succ, payloadAt_zero]
    rfl

theorem exists_message {message : Message} (valid : message.IsValid)
    (session : message.kind ∉ [Kind.hello, .welcome, .abort, .goodbye])
    (known : message.kind = .error → ∃ type : Kind, message.field? 0 = some (.ofNat type.code)) :
    ∃ rpc : Rpc, rpc.filled = rpc ∧ rpc.message = message := by
  have admits := valid.admits
  obtain ⟨kind, values⟩ := message
  cases kind with
  | hello | welcome | abort | goodbye => simp at session
  | register =>
    obtain ⟨request, options, procedure, rfl⟩ := eq_of_id_dict_uri (fits_of_admits admits)
    exact ⟨.register request options procedure, rfl, rfl⟩
  | registered =>
    obtain ⟨request, registration, rfl⟩ := eq_of_id_id (fits_of_admits admits)
    exact ⟨.registered request registration, rfl, rfl⟩
  | unregister =>
    obtain ⟨request, registration, rfl⟩ := eq_of_id_id (fits_of_admits admits)
    exact ⟨.unregister request registration, rfl, rfl⟩
  | unregistered =>
    obtain ⟨variant, member, fits⟩ := admits
    obtain rfl | rfl : variant = [Field.request] ∨ variant = [.request, .details] := by
      simpa [Shape.standard] using member
    · obtain _ | ⟨first, ⟨⟩⟩ := fits
      obtain ⟨request, rfl⟩ := eq_of_accepts_id first
      exact ⟨.unregistered request none, rfl, rfl⟩
    · obtain ⟨request, details, rfl⟩ := eq_of_id_dict fits
      exact ⟨.unregistered request (some details), rfl, rfl⟩
  | call =>
    obtain ⟨fields, payload, fits, filled, rfl⟩ := admits_withPayload admits
    obtain ⟨request, options, procedure, rfl⟩ := eq_of_id_dict_uri fits
    exact ⟨.call request options procedure payload, by rw [Rpc.filled, filled], rfl⟩
  | cancel =>
    obtain ⟨request, options, rfl⟩ := eq_of_id_dict (fits_of_admits admits)
    exact ⟨.cancel request options, rfl, rfl⟩
  | result =>
    obtain ⟨fields, payload, fits, filled, rfl⟩ := admits_withPayload admits
    obtain ⟨request, details, rfl⟩ := eq_of_id_dict fits
    exact ⟨.result request details payload, by rw [Rpc.filled, filled], rfl⟩
  | invocation =>
    obtain ⟨fields, payload, fits, filled, rfl⟩ := admits_withPayload admits
    obtain _ | ⟨first, rest⟩ := fits
    obtain ⟨request, rfl⟩ := eq_of_accepts_id first
    obtain ⟨registration, details, rfl⟩ := eq_of_id_dict rest
    exact ⟨.invocation request registration details payload, by rw [Rpc.filled, filled], rfl⟩
  | interrupt =>
    obtain ⟨request, options, rfl⟩ := eq_of_id_dict (fits_of_admits admits)
    exact ⟨.interrupt request options, rfl, rfl⟩
  | yield =>
    obtain ⟨fields, payload, fits, filled, rfl⟩ := admits_withPayload admits
    obtain ⟨request, options, rfl⟩ := eq_of_id_dict fits
    exact ⟨.yield request options payload, by rw [Rpc.filled, filled], rfl⟩
  | error =>
    obtain ⟨type, code⟩ := known rfl
    obtain ⟨fields, payload, fits, filled, rfl⟩ := admits_withPayload admits
    obtain _ | ⟨-, rest⟩ := fits
    obtain rfl := Option.some.inj code
    obtain ⟨request, details, uri, rfl⟩ := eq_of_id_dict_uri rest
    exact ⟨.error type request details uri payload, by rw [Rpc.filled, filled], rfl⟩

theorem named_of_ofMessage {message : Message} {rpc : Rpc} (reads : ofMessage message = .ok rpc) :
    message.kind ∉ [Kind.hello, .welcome, .abort, .goodbye] ∧
      (message.kind = .error → ∃ type : Kind, message.field? 0 = some (.ofNat type.code)) := by
  have kind := kind_of_ofMessage reads
  refine ⟨by rw [← kind]; cases rpc <;> simp [Rpc.kind], fun error => ?_⟩
  simp only [ofMessage, error, bind_eq_ok_iff, required_eq_ok_iff] at reads
  obtain ⟨code, number, rest⟩ := reads
  obtain ⟨value, here, natural⟩ := Option.bind_eq_some_iff.mp number
  cases type : Kind.ofCode? code with
  | none => simp [type, throw, throwThe, MonadExceptOf.throw] at rest
  | some known =>
    rw [← Kind.code_of_ofCode? type] at natural
    exact ⟨known, by rw [here, Json.nat?_eq_some_iff.mp natural]⟩

theorem toMessage_eq_ok_iff {rpc : Rpc} {message : Message} :
    rpc.toMessage .standard = .ok message ↔ rpc.message = message ∧ message.IsValid := by
  have read : Message.Registry.standard.parse rpc.message.raw = rpc.toMessage .standard :=
    Message.Registry.parse_code .standard rpc.kind rpc.fields
  constructor
  · intro sent
    obtain ⟨rfl, -⟩ := Message.Registry.build_eq_ok_iff.mp sent
    exact ⟨rfl, read.trans sent⟩
  · rintro ⟨rfl, valid⟩
    exact read.symm.trans valid

theorem message_of_ofMessage {message : Message} {rpc : Rpc} (valid : message.IsValid)
    (reads : ofMessage message = .ok rpc) : rpc.message = message := by
  obtain ⟨session, known⟩ := named_of_ofMessage reads
  obtain ⟨view, filled, rfl⟩ := exists_message valid session known
  rw [ofMessage_message, filled] at reads
  rw [Except.ok.inj reads]

/--
A message of the shape of its kind is read by named fields unless it is about a session, or an error
about no kind of message, and what is read stands for just that message. Any message by named fields
that may be sent is read back, with a list of arguments before keyword arguments.
-/
theorem named_fields_are_faithful :
    (∀ message : Message, message.IsValid →
      ((∃ rpc, ofMessage message = .ok rpc) ↔
        message.kind ∉ [Kind.hello, .welcome, .abort, .goodbye] ∧
        (message.kind = .error → ∃ type : Kind, message.field? 0 = some (.ofNat type.code))) ∧
      ∀ rpc, ofMessage message = .ok rpc → rpc.toMessage .standard = .ok message) ∧
    ∀ rpc message, toMessage .standard rpc = .ok message →
      ofMessage message = .ok rpc.filled := by
  refine ⟨fun message valid => ⟨⟨?_, ?_⟩, fun rpc reads => ?_⟩, fun rpc message sent => ?_⟩
  · rintro ⟨rpc, reads⟩
    exact named_of_ofMessage reads
  · rintro ⟨session, known⟩
    obtain ⟨rpc, filled, rfl⟩ := exists_message valid session known
    exact ⟨rpc, by rw [ofMessage_message, filled]⟩
  · exact toMessage_eq_ok_iff.mpr ⟨message_of_ofMessage valid reads, valid⟩
  · obtain ⟨rfl, -⟩ := toMessage_eq_ok_iff.mp sent
    exact ofMessage_message rpc

theorem named_fields_are_faithful_of_error :
    let rpc := error .call 7 [] "com.error" ⟨none, some [("key", .null)]⟩
    let message : Message := ⟨.error, [.ofNat 48, .ofNat 7, .dict [], .text "com.error", .list [],
      .dict [("key", .null)]]⟩
    message.IsValid ∧ rpc.toMessage .standard = .ok message ∧
      ofMessage message = .ok rpc.filled ∧ rpc.filled ≠ rpc ∧
      rpc.filled.toMessage .standard = .ok message := by
  intro rpc message
  have valid : message.IsValid := by rfl
  have sent : rpc.toMessage .standard = .ok message := by rfl
  obtain ⟨reading, writing⟩ := named_fields_are_faithful
  have reads := writing rpc message sent
  exact ⟨valid, sent, reads, by decide, (reading message valid).2 rpc.filled reads⟩

end Rpc

end CallRouter
