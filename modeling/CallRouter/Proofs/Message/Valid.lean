import CallRouter.Message.Standard
import CallRouter.Rpc

namespace CallRouter

namespace Message

def IsValid (message : Message) : Prop := Registry.standard.parse message.raw = .ok message

namespace Shape

theorem validate_eq_ok_iff (shape : Shape) (fields : List Json) :
    shape.validate fields = .ok () ↔
      ∃ variant ∈ shape.variants, variant.length = fields.length ∧
        mistyped? variant fields = none := by
  have listed (variant : List Field) :
      variant ∈ shape.variants.filter (fun variant => variant.length == fields.length) ↔
        variant ∈ shape.variants ∧ variant.length = fields.length := by
    simp
  unfold validate
  cases fitting : shape.variants.filter fun variant => variant.length == fields.length with
  | nil =>
    constructor
    · rintro ⟨⟩
    · rintro ⟨variant, member, length, -⟩
      have fits := (listed variant).mpr ⟨member, length⟩
      simp [fitting] at fits
  | cons first others =>
    rw [fitting] at listed
    cases wrong : mistyped? first fields with
    | none =>
      obtain ⟨member, length⟩ := (listed first).mp (by simp)
      simp only [wrong, true_iff]
      exact ⟨first, member, length, wrong⟩
    | some field =>
      simp only [wrong]
      constructor
      · intro accepted
        split at accepted
        · rename_i some
          obtain ⟨other, among, typed⟩ := List.any_eq_true.mp some
          obtain ⟨member, length⟩ := (listed other).mp (by simp [among])
          exact ⟨other, member, length, by simpa using typed⟩
        · cases accepted
      · rintro ⟨variant, member, length, typed⟩
        have among := (listed variant).mpr ⟨member, length⟩
        rcases List.mem_cons.mp among with rfl | other
        · simp [wrong] at typed
        · rw [if_pos]
          exact List.any_eq_true.mpr ⟨variant, other, by simp [typed]⟩

theorem mistyped?_append {front back : List Field} {fields rest : List Json}
    (length : front.length = fields.length) (typed : mistyped? front fields = none) :
    mistyped? (front ++ back) (fields ++ rest) = mistyped? back rest := by
  induction front generalizing fields with
  | nil =>
    obtain rfl : fields = [] := by simpa using length.symm
    rfl
  | cons field front ih =>
    cases fields with
    | nil => simp at length
    | cons value fields =>
      simp only [mistyped?] at typed
      split at typed
      · rename_i accepted
        rw [List.cons_append, List.cons_append, mistyped?, if_pos accepted]
        exact ih (by simpa using length) typed
      · cases typed

theorem accepts_of_mistyped? {variant : List Field} {fields : List Json}
    (typed : mistyped? variant fields = none) {index : Nat} {field : Field} {value : Json}
    (here : variant[index]? = some field) (there : fields[index]? = some value) :
    field.type.accepts value = true := by
  induction variant generalizing fields index with
  | nil => simp at here
  | cons first variant ih =>
    cases fields with
    | nil => simp at there
    | cons front fields =>
      simp only [mistyped?] at typed
      split at typed
      · rename_i accepted
        cases index with
        | zero =>
          obtain rfl : first = field := by simpa using here
          obtain rfl : front = value := by simpa using there
          exact accepted
        | succ index => exact ih typed here there
      · cases typed

end Shape

theorem IsValid.validate {message : Message} (valid : message.IsValid) :
    (Shape.standard message.kind).validate message.fields = .ok () := by
  simp only [IsValid, raw, Registry.parse, Json.nat?_ofNat, bind, Option.bind, Kind.ofCode?_code,
    Registry.shape?_standard, Except.bind] at valid
  cases checked : (Shape.standard message.kind).validate message.fields with
  | error error => simp [checked] at valid
  | ok done => rfl

theorem isValid_of_validate {message : Message}
    (checked : (Shape.standard message.kind).validate message.fields = .ok ()) :
    message.IsValid := by
  simp only [IsValid, raw, Registry.parse, Json.nat?_ofNat, bind, Option.bind, Kind.ofCode?_code,
    Registry.shape?_standard, Except.bind, checked,
    Registry.kind_of_shape? (Registry.shape?_standard message.kind)]
  rfl

theorem IsValid.accepts {message : Message} (valid : message.IsValid) {index : Nat} {field : Field}
    {value : Json} (always : ∀ variant ∈ (Shape.standard message.kind).variants,
      variant[index]? = some field)
    (there : message.fields[index]? = some value) : field.type.accepts value = true := by
  obtain ⟨variant, member, _, typed⟩ := (Shape.validate_eq_ok_iff _ _).mp valid.validate
  exact Shape.accepts_of_mistyped? typed (always variant member) there

end Message

namespace Rpc

theorem bind_eq_ok_iff {ε α β : Type} {first : Except ε α} {next : α → Except ε β} {result : β} :
    first >>= next = .ok result ↔ ∃ value, first = .ok value ∧ next value = .ok result := by
  cases first <;> simp [bind, Except.bind]

theorem bind_eq_error_iff {ε α β : Type} {first : Except ε α} {next : α → Except ε β}
    {error : ε} : first >>= next = .error error ↔
      first = .error error ∨ ∃ value, first = .ok value ∧ next value = .error error := by
  cases first <;> simp [bind, Except.bind]

theorem required_eq_ok_iff {α : Type} {name : String} {found : Option α} {value : α} :
    required name found = .ok value ↔ found = some value := by
  cases found <;> simp [required]

theorem kind_of_ofMessage {message : Message} {rpc : Rpc} (reads : ofMessage message = .ok rpc) :
    rpc.kind = message.kind := by
  cases kind : message.kind <;>
    simp only [ofMessage, kind, bind_eq_ok_iff, pure, Except.pure, Except.ok.injEq, throw,
      throwThe, MonadExceptOf.throw, reduceCtorEq] at reads
  case error =>
    obtain ⟨code, -, read⟩ := reads
    split at read
    · cases read
    · simp only [bind_eq_ok_iff, Except.ok.injEq] at read
      obtain ⟨_, -, _, -, _, -, rfl⟩ := read
      rfl
  case register | call | invocation =>
    obtain ⟨_, -, _, -, _, -, rfl⟩ := reads
    rfl
  case unregistered =>
    obtain ⟨_, -, rfl⟩ := reads
    rfl
  all_goals
    obtain ⟨_, -, _, -, rfl⟩ := reads
    rfl

theorem request_of_ofMessage {message : Message} {rpc : Rpc} (reads : ofMessage message = .ok rpc)
    (isRequest : message.kind.isRequest = true) : message.nat? 0 = some rpc.request := by
  cases kind : message.kind <;> simp only [kind, Message.Kind.isRequest] at isRequest <;>
    try contradiction
  all_goals
    simp only [ofMessage, kind, bind_eq_ok_iff, requestAt, required_eq_ok_iff, pure, Except.pure,
      Except.ok.injEq] at reads
  case call | register =>
    obtain ⟨_, found, _, -, _, -, rfl⟩ := reads
    exact found
  case cancel | unregister =>
    obtain ⟨_, found, _, -, rfl⟩ := reads
    exact found

theorem call_of_ofMessage {message : Message} {request : Nat} {options : Dict} {uri : String}
    {payload : Payload} (reads : ofMessage message = .ok (.call request options uri payload)) :
    message.kind = .call ∧ message.nat? 0 = some request := by
  have kind : message.kind = .call := (kind_of_ofMessage reads).symm
  exact ⟨kind, request_of_ofMessage reads (by rw [kind]; rfl)⟩

theorem procedure_of_call {message : Message} {request : Nat} {options : Dict} {uri : String}
    {payload : Payload} (reads : ofMessage message = .ok (.call request options uri payload)) :
    message.text? 2 = some uri := by
  have kind : message.kind = .call := (kind_of_ofMessage reads).symm
  simp only [ofMessage, kind, bind_eq_ok_iff, procedureAt, required_eq_ok_iff, pure, Except.pure,
    Except.ok.injEq] at reads
  obtain ⟨_, -, _, -, _, found, same⟩ := reads
  exact (Rpc.call.inj same).2.2.1 ▸ found

theorem error_of_ofMessage {message : Message} {type : Message.Kind} {request : Nat}
    {details : Dict} {error : String} {payload : Payload}
    (reads : ofMessage message = .ok (.error type request details error payload)) :
    message.kind = .error ∧ message.text? 3 = some error := by
  cases kind : message.kind <;>
    simp only [ofMessage, kind, bind_eq_ok_iff, requestAt, registrationAt, optionsAt, detailsAt,
      procedureAt, required_eq_ok_iff, pure, Except.pure, Except.ok.injEq, reduceCtorEq, and_false,
      exists_false] at reads
  case error =>
    obtain ⟨code, _, rest⟩ := reads
    split at rest
    · cases rest
    · simp only [bind_eq_ok_iff, required_eq_ok_iff, Except.ok.injEq] at rest
      obtain ⟨_, _, _, _, text, found, same⟩ := rest
      exact ⟨rfl, (Rpc.error.inj same).2.2.2.1 ▸ found⟩

theorem isValidId_of_request {message : Message} {rpc : Rpc} (valid : message.IsValid)
    (reads : ofMessage message = .ok rpc) (isRequest : message.kind.isRequest = true) :
    isValidId rpc.request = true := by
  obtain ⟨value, there, number⟩ := Option.bind_eq_some_iff.mp (request_of_ofMessage reads isRequest)
  have first : ∀ variant ∈ (Message.Shape.standard message.kind).variants,
      variant[0]? = some Message.Field.request := by
    cases kind : message.kind <;> simp [kind, Message.Kind.isRequest] at isRequest <;>
      simp [Message.Shape.standard, Message.Shape.withPayload]
  have accepted : Message.Field.request.type.accepts value = true := valid.accepts first there
  simpa [Message.Field.request, Message.FieldType.accepts, number] using accepted

theorem isValidId_of_call {message : Message} {request : Nat} {options : Dict} {uri : String}
    {payload : Payload} (valid : message.IsValid)
    (reads : ofMessage message = .ok (.call request options uri payload)) :
    isValidId request = true :=
  isValidId_of_request valid reads (by rw [← kind_of_ofMessage reads]; rfl)

theorem isValid_of_error {message : Message} {type : Message.Kind} {request : Nat}
    {details : Dict} {error : String} {payload : Payload} (valid : message.IsValid)
    (reads : ofMessage message = .ok (.error type request details error payload)) :
    Uri.isValid error = true := by
  obtain ⟨kind, found⟩ := error_of_ofMessage reads
  obtain ⟨value, there, text⟩ := Option.bind_eq_some_iff.mp found
  have accepted : Message.Field.error.type.accepts value = true :=
    valid.accepts (by simp [kind, Message.Shape.standard, Message.Shape.withPayload]) there
  cases value <;> simp_all [Json.text?, Message.Field.error, Message.FieldType.accepts]

def message (rpc : Rpc) : Message := ⟨rpc.kind, rpc.fields⟩

def isSendable (rpc : Rpc) : Bool := (rpc.toMessage .standard).isOk

theorem isSendable_iff {rpc : Rpc} :
    rpc.isSendable = true ↔ (Message.Shape.standard rpc.kind).validate rpc.fields = .ok () := by
  cases checked : (Message.Shape.standard rpc.kind).validate rpc.fields <;>
    simp [isSendable, toMessage, Message.Registry.build, Message.Registry.shape?_standard, checked,
      bind, Except.bind, pure, Except.pure, Except.isOk, Except.toBool]

theorem validate_withPayload {kind : Message.Kind} {flows : List Message.Flow}
    {front : List Message.Field} {fields : List Json} (length : front.length = fields.length)
    (typed : Message.Shape.mistyped? front fields = none) (payload : Payload) :
    (⟨kind, Message.Shape.withPayload front, flows⟩ : Message.Shape).validate
      (fields ++ payload.fields) = .ok () := by
  rw [Message.Shape.validate_eq_ok_iff]
  have append (back : List Message.Field) (rest : List Json) :
      Message.Shape.mistyped? (front ++ back) (fields ++ rest) =
        Message.Shape.mistyped? back rest := Message.Shape.mistyped?_append length typed
  cases payload with
  | mk args kwargs =>
    cases kwargs with
    | some kwargs =>
      refine ⟨front ++ [Message.Shape.argumentsField, Message.Shape.argumentsKwField], ?_, ?_, ?_⟩
      · simp [Message.Shape.withPayload]
      · cases args <;> simp [Payload.fields, length]
      · cases args <;> exact append _ _
    | none =>
      cases args with
      | some args =>
        refine ⟨front ++ [Message.Shape.argumentsField], ?_, ?_, ?_⟩
        · simp [Message.Shape.withPayload]
        · simp [Payload.fields, length]
        · exact append _ _
      | none =>
        refine ⟨front, ?_, ?_, ?_⟩
        · simp [Message.Shape.withPayload]
        · simp [Payload.fields, length]
        · simpa [Payload.fields] using typed

theorem isSendable_result {request : Nat} (valid : isValidId request = true) (details : Dict)
    (payload : Payload) : (result request details payload).isSendable = true := by
  apply isSendable_iff.mpr
  have typed : Message.Shape.mistyped? [.request, .details] [.ofNat request, .dict details] = none := by
    simp [Message.Shape.mistyped?, Message.FieldType.accepts, Message.Field.request,
      Message.Field.details, valid]
  exact validate_withPayload rfl typed payload

theorem isSendable_invocation {request registration : Nat} (valid : isValidId request = true)
    (registered : isValidId registration = true) (details : Dict) (payload : Payload) :
    (invocation request registration details payload).isSendable = true := by
  apply isSendable_iff.mpr
  have typed : Message.Shape.mistyped? [.request, .registration, .details]
      [.ofNat request, .ofNat registration, .dict details] = none := by
    simp [Message.Shape.mistyped?, Message.FieldType.accepts, Message.Field.request,
      Message.Field.registration, Message.Field.details, valid, registered]
  exact validate_withPayload rfl typed payload

theorem isSendable_interrupt (request : Nat) (options : Dict) :
    (interrupt request options).isSendable = isValidId request := by
  have typed (variant : List Message.Field) : variant = [.request, .options] →
      (Message.Shape.mistyped? variant [.ofNat request, .dict options] = none ↔
        isValidId request = true) := by
    rintro rfl
    simp [Message.Shape.mistyped?, Message.FieldType.accepts, Message.Field.request,
      Message.Field.options]
  rw [Bool.eq_iff_iff, isSendable_iff, Message.Shape.validate_eq_ok_iff]
  simp [kind, fields, Message.Shape.standard, typed]

theorem isSendable_error {request : Nat} {error : String} (valid : isValidId request = true)
    (named : Uri.isValid error = true) (type : Message.Kind) (details : Dict)
    (payload : Payload) : (Rpc.error type request details error payload).isSendable = true := by
  apply isSendable_iff.mpr
  have typed : Message.Shape.mistyped? [.requestType, .request, .details, .error]
      [.ofNat type.code, .ofNat request, .dict details, .text error] = none := by
    have code : Message.FieldType.integer.accepts (.ofNat type.code) = true := rfl
    have number : Message.FieldType.id.accepts (.ofNat request) = true := by
      simpa [Message.FieldType.accepts] using valid
    have dict : Message.FieldType.dict.accepts (.dict details) = true := rfl
    have text : Message.FieldType.uri.accepts (.text error) = true := named
    simp [Message.Shape.mistyped?, Message.Field.requestType, Message.Field.request,
      Message.Field.details, Message.Field.error, code, number, dict, text]
  exact validate_withPayload rfl typed payload

end Rpc

end CallRouter
