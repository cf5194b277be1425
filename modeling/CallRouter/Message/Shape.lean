import CallRouter.Identifier
import CallRouter.Json.Basic
import CallRouter.Message.Kind
import CallRouter.Message.Role
import CallRouter.Uri

namespace CallRouter.Message

inductive FieldType where
  | uri
  | id
  | integer
  | string
  | bool
  | dict
  | list
  deriving DecidableEq, Repr, Inhabited

namespace FieldType

def all : List FieldType := [uri, id, integer, string, bool, dict, list]

def name : FieldType → String
  | uri => "uri"
  | id => "id"
  | integer => "integer"
  | string => "string"
  | bool => "bool"
  | dict => "dict"
  | list => "list"

def accepts : FieldType → Json → Bool
  | uri, .text value => Uri.isValid value
  | id, value => value.nat?.any isValidId
  | integer, .number (.int _) => true
  | string, .text _ => true
  | bool, .bool _ => true
  | dict, .dict _ => true
  | list, .list _ => true
  | _, _ => false

end FieldType

structure Field where
  name : String
  type : FieldType
  deriving DecidableEq, Repr, Inhabited

structure Flow where
  source : Role
  target : Role
  deriving DecidableEq, Repr, Inhabited

structure Shape where
  kind : Kind
  variants : List (List Field)
  flows : List Flow
  deriving DecidableEq, Repr, Inhabited

namespace Shape

def argumentsField : Field := ⟨"Arguments", .list⟩
def argumentsKwField : Field := ⟨"ArgumentsKw", .dict⟩

def withPayload (fields : List Field) : List (List Field) :=
  [fields, fields ++ [argumentsField], fields ++ [argumentsField, argumentsKwField]]

def clientMaySend (shape : Shape) : Bool := shape.flows.any fun flow => !flow.source.isRouter

def routerMaySend (shape : Shape) : Bool := shape.flows.any fun flow => flow.source.isRouter

def mistyped? : List Field → List Json → Option Field
  | field :: fields, value :: values =>
    if field.type.accepts value then mistyped? fields values else some field
  | _, _ => none

end Shape

end CallRouter.Message
