import CallRouter.Message.Shape
import CallRouter.Text.Numeral

namespace CallRouter

inductive ProtocolError where
  | invalidMagic (bytes : List UInt8)
  | unsupportedVersion (version : UInt16)
  | frameTooLarge (size limit : UInt32)
  | crcMismatch (expected actual : UInt32)
  | invalidFlags (bits : UInt16)
  | json
  | invalidUtf8
  | notAnArray
  | invalidTypeCode (code : String)
  | fieldCount (kind : Message.Kind) (count : Nat)
  | fieldType (kind : Message.Kind) (field : Message.Field)
  | missingField (name : String)
  | notRpc (kind : Message.Kind)
  deriving DecidableEq, Repr

namespace ProtocolError

open Text (decimal hexadecimal)

def message : ProtocolError → String
  | invalidMagic bytes =>
    "invalid magic bytes: expected 'WMPX', got [" ++
      String.intercalate ", " (bytes.map fun byte => decimal byte.toNat) ++ "]"
  | unsupportedVersion version => "unsupported protocol version: " ++ decimal version.toNat
  | frameTooLarge size limit =>
    "frame too large: " ++ decimal size.toNat ++ " bytes (max " ++ decimal limit.toNat ++ ")"
  | crcMismatch expected actual =>
    "CRC mismatch: expected " ++ hexadecimal expected.toNat ++ ", got " ++ hexadecimal actual.toNat
  | invalidFlags bits => "invalid frame flags: " ++ hexadecimal bits.toNat
  | json => "JSON error"
  | invalidUtf8 => "invalid UTF-8 in payload"
  | notAnArray => "message is not a non-empty array"
  | invalidTypeCode code => "invalid message type code: " ++ code
  | fieldCount kind count => "no " ++ kind.name ++ " variant takes " ++ decimal count ++ " field(s)"
  | fieldType kind field =>
    kind.name ++ "." ++ field.name ++ ": expected " ++ field.type.name
  | missingField name => "missing required field: " ++ name
  | notRpc kind => kind.name ++ " is not an RPC message"

end ProtocolError

end CallRouter
