import CallRouter.Message.Registry
import CallRouter.Text.Lowercase
import CallRouter.Wire.Frame

namespace CallRouter.Wire

inductive Mode where
  | binary
  | lines
  deriving DecidableEq, Repr, Inhabited

def utf8 (text : String) : Bytes := text.toByteArray.data.toList

structure UnknownMode where
  text : String
  deriving DecidableEq, Repr

def UnknownMode.message (unknown : UnknownMode) : String := "unknown wire mode: " ++ unknown.text

namespace Mode

def name : Mode → String
  | binary => "binary"
  | lines => "jsonl"

def all : List Mode := [binary, lines]

def ofName (text : String) : Except UnknownMode Mode :=
  let lower := Text.lowercase text
  match all.find? fun mode => mode.name == lower with
  | some mode => .ok mode
  | none => .error ⟨lower⟩

def lineEnd : UInt8 := 10

def encodeText (mode : Mode) (text : Bytes) : Except ProtocolError Bytes :=
  match mode with
  | binary => Frame.encode { payload := text }
  | lines => .ok (text ++ [lineEnd])

def encode (mode : Mode) (message : Message) : Except ProtocolError Bytes :=
  mode.encodeText (utf8 (Json.list message.raw).compact)

end Mode

end CallRouter.Wire
