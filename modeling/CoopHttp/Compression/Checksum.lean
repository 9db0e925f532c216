import CoopHttp.Bytes

/-!
# Checksums

Adler-32 and CRC-32, each as a state, a step for one octet, and the value of a state.
-/
namespace CoopHttp

/-- The two sums of Adler-32: of the octets, and of the sums so far. -/
structure Adler32 where
  sum : Nat := 1
  sums : Nat := 0
  deriving DecidableEq, Repr

namespace Adler32

/-- The largest prime below 2^16. -/
def modulus : Nat := 65521

def step (c : Adler32) (b : UInt8) : Adler32 :=
  let sum := (c.sum + b.toNat) % modulus
  ⟨sum, (c.sums + sum) % modulus⟩

def value (c : Adler32) : Nat := c.sums <<< 16 + c.sum

end Adler32

/-- The remainder register of CRC-32, complemented. -/
structure Crc32 where
  register : UInt32 := 0xffffffff
  deriving DecidableEq, Repr

namespace Crc32

/-- The division of one bit by the reflected polynomial. -/
def shift (r : UInt32) : UInt32 := if r &&& 1 = 1 then (r >>> 1) ^^^ 0xedb88320 else r >>> 1

def step (c : Crc32) (b : UInt8) : Crc32 :=
  let r := c.register ^^^ b.toUInt32
  ⟨shift (shift (shift (shift (shift (shift (shift (shift r)))))))⟩

def value (c : Crc32) : Nat := (~~~c.register).toNat

end Crc32

def littleEndian : Nat → Nat → Bytes
  | 0, _ => []
  | size + 1, n => UInt8.ofNat (n % 256) :: littleEndian size (n / 256)

def bigEndian (size n : Nat) : Bytes := (littleEndian size n).reverse

end CoopHttp
