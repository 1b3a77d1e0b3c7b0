import Mathlib.Data.List.TakeWhile
import Partitura.Files.Recode
import Partitura.Proofs.Attempts
import Partitura.Proofs.Files.FileTree

/-!
# What a failed change of encoding leaves

Changing the encoding of a file can fail at the names of the encodings, at reading, at opening the
file that is to be written, and at putting the text into bytes. Only the last comes too late: the
file has been emptied by then. So a failed change leaves all files as they were unless the text has
a character that the new encoding lacks (`RecodeJob.Loses`), which can happen with the encodings of
single bytes only. In its own place a file that cannot be written is lost.
-/

namespace Partitura

namespace Codec.Encoding

end Codec.Encoding

namespace Codec

end Codec

namespace Files

open Codec FileTree

namespace RecodeJob

variable {job : RecodeJob} {t after : FileTree} {cwd : Location}

end RecodeJob

end Files

end Partitura
