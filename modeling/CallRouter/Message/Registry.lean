import CallRouter.Json.Printer
import CallRouter.ProtocolError

namespace CallRouter

structure Message where
  kind : Message.Kind
  fields : List Json
  deriving DecidableEq, Repr, Inhabited

namespace Message

def raw (message : Message) : List Json := .ofNat message.kind.code :: message.fields

def field? (message : Message) (index : Nat) : Option Json := message.fields[index]?

def nat? (message : Message) (index : Nat) : Option Nat := message.field? index >>= Json.nat?

def int? (message : Message) (index : Nat) : Option Int := message.field? index >>= Json.int64?

def text? (message : Message) (index : Nat) : Option String := message.field? index >>= Json.text?

def dict? (message : Message) (index : Nat) : Option Dict := message.field? index >>= Json.dict?

def list? (message : Message) (index : Nat) : Option (List Json) :=
  message.field? index >>= Json.list?

def recover? : List Json → Option (Kind × Nat)
  | code :: request :: _ => do
    let kind ← code.nat? >>= Kind.ofCode?
    let id ← request.nat?
    if isValidId id && kind.isRequest then return (kind, id) else none
  | _ => none

namespace Shape

/-- Accepts the fields, or tells what is wrong with them in the first variant of their number. -/
def validate (shape : Shape) (fields : List Json) : Except ProtocolError Unit :=
  match shape.variants.filter fun variant => variant.length == fields.length with
  | [] => .error (.fieldCount shape.kind fields.length)
  | variant :: others =>
    match mistyped? variant fields with
    | none => .ok ()
    | some field =>
      if others.any fun other => (mistyped? other fields).isNone then .ok ()
      else .error (.fieldType shape.kind field)

end Shape

structure Registry where
  shapes : List Shape
  deriving DecidableEq, Repr, Inhabited

namespace Registry

def empty : Registry := ⟨[]⟩

def define (registry : Registry) (shape : Shape) : Registry :=
  ⟨shape :: registry.shapes.filter fun other => other.kind ≠ shape.kind⟩

def shape? (registry : Registry) (kind : Kind) : Option Shape :=
  registry.shapes.find? fun shape => shape.kind == kind

def build (registry : Registry) (kind : Kind) (fields : List Json) :
    Except ProtocolError Message := do
  match registry.shape? kind with
  | none => .error (.invalidTypeCode (Json.ofNat kind.code).compact)
  | some shape =>
    shape.validate fields
    return ⟨kind, fields⟩

def parse (registry : Registry) : List Json → Except ProtocolError Message
  | [] => .error .notAnArray
  | code :: fields =>
    match code.nat? >>= Kind.ofCode? >>= registry.shape? with
    | none => .error (.invalidTypeCode code.compact)
    | some shape => do
      shape.validate fields
      return ⟨shape.kind, fields⟩

def parseValue (registry : Registry) : Json → Except ProtocolError Message
  | .list raw => registry.parse raw
  | _ => .error .notAnArray

theorem kind_of_shape? {registry : Registry} {kind : Kind} {shape : Shape}
    (found : registry.shape? kind = some shape) : shape.kind = kind := by
  simpa using List.find?_some found

end Registry

end Message

end CallRouter
