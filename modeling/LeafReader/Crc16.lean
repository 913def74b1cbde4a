import LeafReader.Bytes

/-!
# The packet checksum (`crc16.c`)
-/

namespace LeafReader

/-- The body of the loop of `crc16_itu_t`. -/
def crc16Byte (seed : UInt16) (b : UInt8) : UInt16 :=
  let seed := (seed >>> 8) ||| (seed <<< 8)
  let seed := seed ^^^ b.toUInt16
  let seed := seed ^^^ ((seed &&& 0xff) >>> 4)
  let seed := seed ^^^ (seed <<< 12)
  seed ^^^ ((seed &&& 0xff) <<< 5)

def crc16ItuT (seed : UInt16) (src : Bytes) : UInt16 := src.foldl crc16Byte seed

def osdpComputeCrc16 (buf : Bytes) : UInt16 := crc16ItuT 0x1D0F buf

/-- `osdp_compute_checksum`: the two's complement of the sum of the bytes. -/
def osdpComputeChecksum (msg : Bytes) : UInt8 := 0 - msg.sum

end LeafReader
