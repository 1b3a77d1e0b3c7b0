import Partitura.Text.Lines
import Partitura.Text.Trim

/-!
# The lines of the bundled plugins

The bundled plugins are kept line by line, and their indentation is left out: a line is indented by
the blocks that it stands in.
-/

namespace Partitura.Bundle

/-- The lines with four blanks for each block around them; a block is closed by the start of a
line. -/
def indentFrom (depth : Nat) : List (List Char) → List (List Char)
  | [] => []
  | line :: rest =>
    let cs := Text.trimLeft line
    let steps := if cs.head? == some '\x7d' then depth - 1 else depth
    (List.replicate (4 * steps) ' ' ++ cs) ::
      indentFrom (depth + cs.count '\x7b' - cs.count '\x7d') rest

/-- The text of a plugin that is written down without indentation. -/
def indented (s : String) : String :=
  String.ofList (Text.unlines (indentFrom 0 (Text.lines s.toList))) ++ "\n"

end Partitura.Bundle
