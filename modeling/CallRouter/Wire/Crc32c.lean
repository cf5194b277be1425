namespace CallRouter.Wire

abbrev Bytes := List UInt8

namespace Crc32c

/-- One division step by the Castagnoli polynomial, lowest bit first. -/
def shift (remainder : UInt32) : UInt32 :=
  if remainder &&& 1 = 1 then (remainder >>> 1) ^^^ 0x82F63B78 else remainder >>> 1

def update (remainder : UInt32) (byte : UInt8) : UInt32 :=
  shift (shift (shift (shift (shift (shift (shift (shift (remainder ^^^ byte.toUInt32))))))))

def checksum (bytes : Bytes) : UInt32 := ~~~ bytes.foldl update 0xFFFFFFFF

end Crc32c

end CallRouter.Wire
