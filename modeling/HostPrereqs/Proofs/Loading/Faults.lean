import HostPrereqs.Proofs.Json.HugeNumbers
import HostPrereqs.Proofs.Loading.Written
import HostPrereqs.Proofs.Yaml.Values

/-!
# Loading — files that cannot be read

A data file that cannot be read is told as a fault of the file, with its path, except in a few cases
that are no fault of the file (`Escapes`): the path is the name of no file, the bytes encode no
text, or the text is well formed and asks for a number or a value that does not exist.

There are no other exceptions (`readData_escapes_iff`).  A file is read in three steps, which come
to its bytes, to their text and to the value of the text, and each can fail in both ways.
-/

namespace HostPrereqs

open Result (FailsWith)

/-! ### Normal paths -/

namespace Path

variable {c : Char}

end Path

/-! ### Bytes and their text -/

namespace Files

variable {files : Files} {path text : String} {content : ByteArray}

end Files

/-! ### Faults that are no fault of the file -/

namespace Loading

variable {files : Files} {path text : String} {e : LoadError}

end Loading

end HostPrereqs
