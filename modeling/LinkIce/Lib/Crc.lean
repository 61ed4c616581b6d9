import LinkIce.Lib.Bytes

/-! CRC-32 as a shift register that takes a message in bit by bit. -/
namespace LinkIce

def octetBits (b : UInt8) : List Bool := (List.range 8).map b.toNat.testBit

/-- The register takes in one bit (reflected polynomial). -/
def crcShift (reg : BitVec 32) (bit : Bool) : BitVec 32 :=
  if (reg.getLsbD 0 ^^ bit) = true then (reg >>> 1) ^^^ 0xEDB88320#32 else reg >>> 1

/-- The register starts with all ones, and all of its bits are flipped at the end. -/
def crc32 (data : Bytes) : BitVec 32 :=
  (data.flatMap octetBits).foldl crcShift (BitVec.allOnes 32) ^^^ BitVec.allOnes 32

-- the check value of "123456789"
example : crc32 [49, 50, 51, 52, 53, 54, 55, 56, 57] = 0xCBF43926#32 := by decide +kernel

end LinkIce
