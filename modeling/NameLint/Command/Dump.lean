import NameLint.Command.Output
import NameLint.Text.Blank
import NameLint.Tree.Outline

/-!
# Dumping a tree

The command reads a source and prints the outline of its tree.
-/

namespace NameLint.Command

set_option autoImplicit false

/-- Runs on the text of standard input, if its bytes are a text. -/
def dump (parse : String → Tree) (input : Option String) : Output :=
  match input with
  | none =>
      { exit := 1
        stderr := joinLines ["Error reading stdin: stream did not contain valid UTF-8"] }
  | some source =>
      if Text.isBlank source then
        { exit := 1
          stderr := joinLines
            ["Error: No input provided. Pipe a JavaScript file to stdin.",
             "Usage: cat app.js | dump_js_ast"] }
      else { exit := 0, stdout := joinLines (Outline.lines source (parse source)) }

end NameLint.Command
